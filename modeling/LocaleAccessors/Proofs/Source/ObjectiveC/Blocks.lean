import LocaleAccessors.Proofs.Source.ObjectiveC.Classes
import LocaleAccessors.Proofs.Source.ObjectiveC.Lines
import LocaleAccessors.Proofs.Source.ObjectiveC.Phases

/-!
The blocks of the classes. A header and an implementation are read as the same blocks, one for each
class, unless the name of the imported header brings a block of its own.
-/

namespace LocaleAccessors.Source.ObjectiveC
open Text (IsWord)

/-! Members. -/

section members
variable {ending keyword : String} {texts others : List String} {found more : List Method}

def Brings (ending : String) (texts : List String) (found : List Method) : Prop :=
  ∀ keyword className methods lines,
    readBlocks keyword ending (some ⟨className, methods⟩) (texts.flatMap linesOf ++ lines) =
      readBlocks keyword ending (some ⟨className, methods ++ found⟩) lines

theorem Brings.append (h : Brings ending texts found) (hothers : Brings ending others more) :
    Brings ending (texts ++ others) (found ++ more) := by
  intro keyword className methods lines
  rw [List.flatMap_append, List.append_assoc, h, hothers, List.append_assoc]

theorem brings_nil : Brings ending [] [] := by
  intro keyword className methods lines
  rw [List.flatMap_nil, List.nil_append, List.append_nil]

theorem brings_silent {text : String} (h : Says ending text .silent) : Brings ending [text] [] := by
  intro keyword className methods lines
  rw [List.flatMap_singleton, linesOf_of_oneLine h.oneLine, List.singleton_append, readBlocks,
    List.append_nil]
  simp only [h.reads]

theorem brings_all_silent (h : ∀ text ∈ texts, Says ending text .silent) : Brings ending texts [] := by
  induction texts with
  | nil => exact brings_nil
  | cons text texts ih =>
    obtain ⟨htext, htexts⟩ := List.forall_mem_cons.mp h
    exact (brings_silent htext).append (ih htexts)

theorem brings_method {text : String} {m : Method} (h : Says ending text (.method m)) :
    Brings ending [text] [m] := by
  intro keyword className methods lines
  rw [List.flatMap_singleton, linesOf_of_oneLine h.oneLine, List.singleton_append, readBlocks]
  simp only [h.reads]

theorem says_empty : Says ending "" .silent :=
  says_silent (by decide) (by decide)

theorem says_brace : Says ending "\x7d" .silent :=
  says_silent (by decide) (by decide)

theorem brings_lines {members : List (List String)}
    (h : List.Forall₂ (fun texts m => Brings ending texts [m]) members found) :
    Brings ending (members.flatMap (· ++ [""])) found := by
  induction h with
  | nil => exact brings_nil
  | cons hmember _ ih =>
    rw [List.flatMap_cons]
    exact (hmember.append (brings_silent says_empty)).append ih

theorem brings_spaced {members : List (List String)}
    (h : List.Forall₂ (fun texts m => Brings ending texts [m]) members found) :
    Brings ending (spaced members) found := by
  unfold spaced
  split
  · next hnone =>
    rw [List.isEmpty_iff.mp hnone] at h
    cases h
    exact brings_silent says_empty
  · exact brings_lines h

def blockOf (c : ClassModel) : Block :=
  ⟨c.name, c.children.map getterMethod ++ c.accessors.map accessorMethod ++
    if c.isRoot then [sharedMethod c.name] else []⟩

theorem legible_getter {g : ChildGetter} (h : IsWord g.name ∧ IsWord g.className) :
    (getterMethod g).Legible :=
  legible_pointer false h.2 h.1

theorem legible_shared {className : String} (h : IsWord className) :
    (sharedMethod className).Legible :=
  legible_pointer true h (by decide)

theorem forall₂_map {α β γ : Type} {r : β → γ → Prop} {as : List α} {f : α → β} {g : α → γ}
    (h : ∀ a ∈ as, r (f a) (g a)) : List.Forall₂ r (as.map f) (as.map g) := by
  rw [List.forall₂_map_left_iff, List.forall₂_map_right_iff, List.forall₂_same]
  exact h

/-! In a header. -/

theorem says_declaration {m : Method} (h : m.Legible) : Says ";" (m.text ++ ";") (.method m) :=
  says_method h (by decide) (by decide)

theorem brings_accessorDeclaration {a : Accessor} (h : a.Worded) :
    Brings ";" (accessorDeclaration a) [accessorMethod a] := by
  unfold accessorDeclaration
  rw [signature_eq]
  exact (brings_silent (says_comment a)).append
    (brings_method (says_declaration (legible_accessor h)))

theorem brings_interface {c : ClassModel} (h : c.Worded) :
    Brings ";" (spaced (c.children.map (fun g => [getterSignature g ++ ";"]) ++
      c.accessors.map accessorDeclaration ++
      (if c.isRoot then [[sharedSignature c.name ++ ";"]] else []))) (blockOf c).methods := by
  refine brings_spaced (List.rel_append (List.rel_append ?_ ?_) ?_)
  · refine forall₂_map fun g hg => ?_
    rw [getterSignature_eq]
    exact brings_method (says_declaration (legible_getter (h.children g hg)))
  · exact forall₂_map fun a ha => brings_accessorDeclaration (h.accessors a ha)
  · split
    · rw [sharedSignature_eq]
      exact .cons (brings_method (says_declaration (legible_shared h.name))) .nil
    · exact .nil

/-! In an implementation. -/

theorem says_definition {m : Method} (h : m.Legible) :
    Says " \x7b" (m.text ++ " \x7b") (.method m) :=
  says_method h (by decide) (by decide)

theorem oneLine_quote (text : String) : OneLine (quote text) :=
  (OneLine.append (by decide) (oneLine_escape .objectiveC text)).append (by decide)

theorem oneLine_lookup (table : Option String) (key : String) : OneLine (lookup table key) := by
  have htable : OneLine ((table.map quote).getD "nil") := by
    cases table with
    | none => decide
    | some name => exact oneLine_quote name
  unfold lookup
  exact (((OneLine.append (by decide) (oneLine_quote key)).append (by decide)).append
    htable).append (by decide)

theorem brings_accessorDefinition (table : Option String) {a : Accessor} (h : a.Worded) :
    Brings " \x7b" (accessorDefinition table a) [accessorMethod a] := by
  have hlookup := oneLine_lookup table a.key
  have hfront := (brings_silent (says_comment a)).append
    (brings_method (says_definition (legible_accessor h)))
  rw [← signature_eq] at hfront
  unfold accessorDefinition
  split
  · have hreturn : OneLine ("return " ++ lookup table a.key ++ ";") :=
      (OneLine.append (by decide) hlookup).append (by decide)
    exact (hfront.append (brings_silent (says_indented hreturn 0))).append (brings_silent says_brace)
  · have hblock : OneLine ("return ^(" ++
        commas (a.arguments.map fun x => typeName x.type ++ " " ++ x.name) ++ ") \x7b") :=
      (OneLine.append (by decide) (plain_parameters h).oneLine).append (by decide)
    have hreturn : OneLine ("return [NSString stringWithFormat: " ++ lookup table a.key ++ ", " ++
        commas (parameterNames a) ++ "];") :=
      (((OneLine.append (by decide) hlookup).append (by decide)).append
        (plain_arguments h).oneLine).append (by decide)
    have hclose : OneLine "\x7d;" := by decide
    exact (((hfront.append (brings_silent (says_indented hblock 0))).append
      (brings_silent (says_indented hreturn 1))).append
      (brings_silent (says_indented hclose 0))).append (brings_silent says_brace)

theorem brings_getterDefinition {g : ChildGetter} (h : IsWord g.name ∧ IsWord g.className) :
    Brings " \x7b" (getterDefinition g) [getterMethod g] := by
  have hreturn : OneLine ("return [" ++ g.className ++ " new];") :=
    (OneLine.append (by decide) (oneLine_of_isWord h.2)).append (by decide)
  unfold getterDefinition
  rw [getterSignature_eq]
  exact ((brings_method (says_definition (legible_getter h))).append
    (brings_silent (says_indented hreturn 0))).append (brings_silent says_brace)

theorem brings_sharedDefinition {className : String} (h : IsWord className) :
    Brings " \x7b" (sharedDefinition className) [sharedMethod className] := by
  have hname := oneLine_of_isWord h
  have hinstance : OneLine ("static " ++ className ++ " *instance;") :=
    (OneLine.append (by decide) hname).append (by decide)
  have halloc : OneLine ("instance = [[" ++ className ++ " alloc] init];") :=
    (OneLine.append (by decide) hname).append (by decide)
  have hbody : ∀ text ∈ ["", indent 1 "static dispatch_once_t once;",
      indent 1 ("static " ++ className ++ " *instance;"), indent 1 "dispatch_once(&once, ^\x7b",
      indent 2 ("instance = [[" ++ className ++ " alloc] init];"), indent 1 "\x7d);",
      indent 1 "return instance;", "\x7d"], Says " \x7b" text .silent := by
    intro text htext
    simp only [List.mem_cons, List.not_mem_nil, or_false] at htext
    obtain rfl | rfl | rfl | rfl | rfl | rfl | rfl | rfl := htext
    · exact says_empty
    · exact says_indented (by decide) 0
    · exact says_indented hinstance 0
    · exact says_indented (by decide) 0
    · exact says_indented halloc 1
    · exact says_indented (by decide) 0
    · exact says_indented (by decide) 0
    · exact says_brace
  unfold sharedDefinition
  rw [sharedSignature_eq]
  exact (brings_method (says_definition (legible_shared h))).append (brings_all_silent hbody)

theorem brings_implementation (table : Option String) {c : ClassModel} (h : c.Worded) :
    Brings " \x7b"
      (if c.isRoot then
        (c.children.map getterDefinition ++ c.accessors.map (accessorDefinition table)).flatMap
          (· ++ [""]) ++ sharedDefinition c.name
      else spaced (c.children.map getterDefinition ++ c.accessors.map (accessorDefinition table)))
      (blockOf c).methods := by
  have hmembers : List.Forall₂ (fun texts m => Brings " \x7b" texts [m])
      (c.children.map getterDefinition ++ c.accessors.map (accessorDefinition table))
      (c.children.map getterMethod ++ c.accessors.map accessorMethod) := by
    refine List.rel_append ?_ ?_
    · exact forall₂_map fun g hg => brings_getterDefinition (h.children g hg)
    · exact forall₂_map fun a ha => brings_accessorDefinition table (h.accessors a ha)
  unfold blockOf
  split
  · exact (brings_lines hmembers).append (brings_sharedDefinition h.name)
  · rw [List.append_nil]
    exact brings_spaced hmembers

end members

/-! Blocks, and what stands outside them. -/

section blocks
variable {ending keyword : String} {texts others : List String} {found more : List Block}

def Holds (keyword ending : String) (texts : List String) (found : List Block) : Prop :=
  ∀ lines, readBlocks keyword ending none (texts.flatMap linesOf ++ lines) =
    (readBlocks keyword ending none lines).map (found ++ ·)

theorem Holds.append (h : Holds keyword ending texts found)
    (hothers : Holds keyword ending others more) :
    Holds keyword ending (texts ++ others) (found ++ more) := by
  intro lines
  rw [List.flatMap_append, List.append_assoc, h, hothers, Option.map_map]
  simp [Function.comp_def]

theorem holds_nil : Holds keyword ending [] [] := by
  intro lines
  simp

theorem holds_skipped (h : ∀ text ∈ texts, ∀ line ∈ linesOf text, opening? keyword line = none) :
    Holds keyword ending texts [] := by
  intro rest
  have hlines : ∀ line ∈ texts.flatMap linesOf, opening? keyword line = none := by
    intro line hline
    obtain ⟨text, htext, hline⟩ := List.mem_flatMap.mp hline
    exact h text htext line hline
  generalize texts.flatMap linesOf = lines at hlines
  induction lines with
  | nil => simp
  | cons line lines ih =>
    obtain ⟨hline, hlines⟩ := List.forall_mem_cons.mp hlines
    rw [List.cons_append, readBlocks]
    simp only [hline]
    exact ih hlines

theorem holds_block {opening name : String} {methods : List Method} (honeLine : OneLine opening)
    (hopening : opening? keyword opening.toList = some name) (h : Brings ending texts methods) :
    Holds keyword ending (opening :: (texts ++ ["@end"])) [⟨name, methods⟩] := by
  intro lines
  have hmem : ("@end", fun rest => if rest = [] then some Line.ending else none) ∈
      keywords ending := by
    simp [keywords]
  have hend : readLine ending "@end".toList = some .ending := by
    have hread := readLine_keyword hmem []
    rwa [List.append_nil] at hread
  have hlast : linesOf "@end" = ["@end".toList] := linesOf_of_oneLine (by decide)
  rw [List.flatMap_cons, linesOf_of_oneLine honeLine, List.singleton_append, List.cons_append,
    readBlocks]
  simp only [hopening]
  rw [List.flatMap_append, List.append_assoc, h, List.flatMap_singleton, hlast,
    List.singleton_append, readBlocks, List.nil_append]
  simp only [hend]
  rfl

theorem holds_intercalate {α : Type} {items : List α} {spelling : α → List String}
    {reading : α → Block}
    (hempty : Holds keyword ending [""] [])
    (h : ∀ a ∈ items, Holds keyword ending (spelling a) [reading a]) :
    Holds keyword ending ([""].intercalate (items.map spelling)) (items.map reading) := by
  induction items with
  | nil => exact holds_nil
  | cons a items ih =>
    obtain ⟨ha, hitems⟩ := List.forall_mem_cons.mp h
    cases items with
    | nil =>
      rw [List.map_singleton, List.intercalate_singleton]
      exact ha
    | cons b items =>
      rw [List.map_cons, List.map_cons, List.intercalate_cons_cons, ← List.map_cons]
      exact (ha.append hempty).append (ih hitems)

end blocks

end LocaleAccessors.Source.ObjectiveC
