import LocaleAccessors.Proofs.Namespace.Words
import LocaleAccessors.Proofs.Source.Swift.Lines
import LocaleAccessors.Source.Render

/-!
Swift files read back. A rendered file declares the namespaces of its tree, in their order and nesting,
and nothing else, whatever the translations, keys and names of tables are.
-/

namespace LocaleAccessors.Source.Swift
open Format (Argument ValueType)
open Text (IsWord)

/-! What a file has to declare. -/

def Parameter.ofArgument (x : Argument) : Parameter :=
  ⟨x.name, typeName x.type⟩

def declare (table : Option String) (a : Accessor) (others : Declarations) : Declarations :=
  .accessor a.name ⟨a.key, table⟩ (a.arguments.map .ofArgument) (parameterNames a) others

/-- A struct for each namespace, in front of other declarations. Its accessors come first, and then
the structs inside it. -/
def declareAll (table : Option String) : Namespaces → Declarations → Declarations
  | .nil, others => others
  | .cons name accessors inner siblings, others =>
    .struct name (accessors.foldr (declare table) (declareAll table inner .nil))
      (declareAll table siblings others)

def declarationsOf (table : Option String) (root : Namespace) : Declarations :=
  declareAll table (.cons root.name root.accessors root.inner .nil) .nil

/-! Blocks of lines, and what they put in front of the declarations after them. -/

/-- The texts say lines that turn every list of declarations after them into another one. -/
def Declares (texts : List String) (f : Declarations → Declarations) : Prop :=
  ∃ lines, List.Forall₂ Says texts lines ∧ ∀ d blocks,
    lines.foldrM precede (.declarations d :: blocks) = some (.declarations (f d) :: blocks)

theorem Declares.append {texts others : List String} {f g : Declarations → Declarations}
    (h : Declares texts f) (hothers : Declares others g) :
    Declares (texts ++ others) (fun d => f (g d)) := by
  obtain ⟨lines, hlines, hf⟩ := h
  obtain ⟨more, hmore, hg⟩ := hothers
  refine ⟨lines ++ more, List.rel_append hlines hmore, fun d blocks => ?_⟩
  rw [List.foldrM_append, hg]
  exact hf (g d) blocks

theorem declares_silent {texts : List String} (h : ∀ text ∈ texts, Says text .silent) :
    Declares texts id := by
  induction texts with
  | nil => exact ⟨[], .nil, fun _ _ => rfl⟩
  | cons text texts ih =>
    obtain ⟨htext, htexts⟩ := List.forall_mem_cons.mp h
    obtain ⟨lines, hlines, hf⟩ := ih htexts
    refine ⟨.silent :: lines, .cons htext hlines, fun d blocks => ?_⟩
    rw [List.foldrM_cons, hf]
    rfl

theorem declares_property {text name : String} {lookup : Lookup}
    (h : Says text (.property name lookup)) :
    Declares [text] (.accessor name lookup [] []) :=
  ⟨[_], .cons h .nil, fun _ _ => rfl⟩

theorem declares_function {opening result closing name : String} {lookup : Lookup}
    {parameters : List Parameter} {arguments : List String}
    (hopening : Says opening (.function name parameters))
    (hresult : Says result (.result lookup arguments)) (hclosing : Says closing .closing) :
    Declares [opening, result, closing] (.accessor name lookup parameters arguments) :=
  ⟨[_, _, _], .cons hopening (.cons hresult (.cons hclosing .nil)), fun _ _ => rfl⟩

theorem declares_accessor (table : Option String) (level : Nat) {a : Accessor} (h : a.Worded) :
    Declares (accessor table level a) (declare table a) := by
  have hcomment : Declares [indent level (comment a)] id :=
    declares_silent (List.forall_mem_singleton.mpr ((says_comment a).indent level))
  have hempty : Declares [""] id := declares_silent (List.forall_mem_singleton.mpr says_empty)
  unfold accessor
  split
  · next hnone =>
    have hproperty := declares_property ((says_property h.name table a.key).indent level)
    have hall := (hcomment.append hproperty).append hempty
    have hdeclare : declare table a = .accessor a.name ⟨a.key, table⟩ [] [] := by
      funext d
      simp [declare, parameterNames, hnone]
    rw [hdeclare]
    exact hall
  · next hsome =>
    have hspelling : (a.arguments.map fun x => "_ " ++ x.name ++ " : " ++ typeName x.type) =
        (a.arguments.map Parameter.ofArgument).map Parameter.spelling := by
      rw [List.map_map]
      rfl
    have hfunction : Says ("public static func " ++ a.name ++ "(" ++
        commas ((a.arguments.map Parameter.ofArgument).map Parameter.spelling) ++
          ") -> String \x7b") (.function a.name (a.arguments.map Parameter.ofArgument)) := by
      refine says_function h.name (by simpa using hsome) ?_ ?_
      · rw [List.forall_mem_map]
        exact h.parameters
      · rw [List.forall_mem_map]
        exact fun x _ => isWord_typeName x.type
    have hresult : Says ("return String(format: " ++ lookup table a.key ++ ", " ++
        commas (parameterNames a) ++ ")") (.result ⟨a.key, table⟩ (parameterNames a)) := by
      refine says_result table a.key (by simpa [parameterNames] using hsome) ?_
      rw [parameterNames, List.forall_mem_map]
      exact h.parameters
    dsimp only
    rw [hspelling]
    exact (hcomment.append (declares_function (hfunction.indent level) (hresult.indent (level + 1))
      (says_closing.indent level))).append hempty

theorem declares_struct {name : String} (h : IsWord name) (level : Nat) {members : List String}
    {f : Declarations → Declarations} (hmembers : Declares members f) :
    Declares (struct level name members) (.struct name (f .nil)) := by
  have hempty : Declares [""] id := declares_silent (List.forall_mem_singleton.mpr says_empty)
  have hinside : Declares (if members.isEmpty then [""] else members) f := by
    split
    · next hnone =>
      rw [List.isEmpty_iff.mp hnone] at hmembers
      obtain ⟨lines, hlines, hf⟩ := hmembers
      cases hlines
      refine ⟨[.silent], .cons says_empty .nil, hf⟩
    · exact hmembers
  obtain ⟨lines, hlines, hf⟩ := hempty.append hinside
  refine ⟨.silent :: .opening name :: (lines ++ [.closing]), ?_, fun d blocks => ?_⟩
  · have hopening := (says_opening h).indent level
    have hclosing : List.Forall₂ Says [indent level "\x7d"] [.closing] :=
      .cons (says_closing.indent level) .nil
    exact .cons says_empty (.cons hopening (List.rel_append hlines hclosing))
  · have hstart : [Line.closing].foldrM precede (.declarations d :: blocks) =
        some (.declarations .nil :: .declarations d :: blocks) := rfl
    rw [List.foldrM_cons, List.foldrM_cons, List.foldrM_append, hstart, Option.bind_eq_bind,
      Option.bind_some, hf]
    rfl

theorem declares_accessors (table : Option String) (level : Nat) {accessors : List Accessor}
    (h : ∀ a ∈ accessors, a.Worded) :
    Declares (accessors.flatMap (accessor table level))
      fun others => accessors.foldr (declare table) others := by
  induction accessors with
  | nil => exact ⟨[], .nil, fun _ _ => rfl⟩
  | cons a accessors ih =>
    obtain ⟨ha, haccessors⟩ := List.forall_mem_cons.mp h
    rw [List.flatMap_cons]
    exact (declares_accessor table level ha).append (ih haccessors)

theorem declares_structs (table : Option String) (level : Nat) {ns : Namespaces} (h : ns.Worded) :
    Declares (structs table level ns) (declareAll table ns) := by
  induction ns generalizing level with
  | nil => exact ⟨[], .nil, fun _ _ => rfl⟩
  | cons name accessors inner siblings ihinner ihsiblings =>
    obtain ⟨hname, haccessors, hinner, hsiblings⟩ := h
    -- Between the braces stand the accessors and then the structs, one level further in.
    have hmembers := (declares_accessors table (level + 1) haccessors).append
      (ihinner (level + 1) hinner)
    exact (declares_struct hname level hmembers).append (ihsiblings level hsiblings)

theorem says_head {text : String} (h : text ∈ banner ++ mark "Imports" ++ ["import Foundation"] ++
    mark "Localizations") : Says text .silent := by
  have hall : ∀ text ∈ banner ++ mark "Imports" ++ ["import Foundation"] ++ mark "Localizations",
      OneLine text ∧ readLine text.toList = some .silent := by
    decide +kernel
  exact ⟨(hall text h).1, (hall text h).2⟩

theorem oneLine_of_forall {texts : List String} {lines : List Line} (h : List.Forall₂ Says texts lines) :
    ∀ text ∈ texts, OneLine text := by
  induction h with
  | nil =>
    intro text htext
    cases htext
  | cons hfirst _ ih => exact List.forall_mem_cons.mpr ⟨hfirst.oneLine, ih⟩

theorem read_fileText {texts : List String} {f : Declarations → Declarations}
    (h : Declares texts f) : read (fileText texts) = some (f .nil) := by
  obtain ⟨lines, hlines, hf⟩ := h
  have hread : (linesOf (fileText texts)).mapM readLine = some (lines ++ [.silent]) := by
    rw [linesOf_fileText_of_oneLine (oneLine_of_forall hlines), mapM_eq_some_iff]
    refine List.rel_append ?_ (.cons rfl .nil)
    rw [List.forall₂_map_left_iff]
    exact hlines.imp fun _ _ hline => hline.reads
  have hend : [Line.silent].foldrM precede [.declarations .nil] = some [.declarations .nil] := rfl
  simp only [read, hread, List.foldrM_append, hend, hf, Option.bind_eq_bind, Option.bind_some]

theorem read_file {o : Options} {root : Namespace} (hname : IsWord root.name)
    (haccessors : ∀ a ∈ root.accessors, a.Worded) (hinner : root.inner.Worded) :
    read (file o root) = some (declarationsOf o.tableName root) := by
  have hworded : Namespaces.Worded (.cons root.name root.accessors root.inner .nil) :=
    ⟨hname, haccessors, hinner, trivial⟩
  have hhead := declares_silent fun text => says_head
  exact read_fileText (hhead.append (declares_structs o.tableName 0 hworded))

/-- Whatever renders as Swift is read back: the file declares the namespaces of the tree and nothing
else. -/
theorem read_render {o : Options} {tree : Key.Tree} {source : Rendered} (hswift : o.language = .swift)
    (h : render o tree = .ok source) :
    read source.implementation = some (declarationsOf o.tableName (namespaceOf o tree)) := by
  unfold render at h
  split at h
  · cases h
  · cases h
  · next hfault _ =>
    cases h
    simp only [sourceOf, hswift]
    exact read_file (Options.isWord_baseName hfault) (fun a ha => worded_of_mem_accessorsOf ha)
      (worded_ofGroups _ _ tree)

theorem read_render_quotes :
    ∃ source, render { tableName := some "\"" }
        (.leaf "b" ⟨"a", "%@\n\x7d"⟩ (.group "c" (.leaf "d" ⟨"\"\n\x7d", ""⟩ .nil) .nil)) = .ok source ∧
      read source.implementation = some (.struct "Localizations"
        (.accessor "b" ⟨"a", some "\""⟩ [⟨"value", "String"⟩] ["value"]
          (.struct "c" (.accessor "d" ⟨"\"\n\x7d", some "\""⟩ [] [] .nil) .nil)) .nil) := by
  have hfault : Options.fault? { tableName := some "\"" } = none := by decide +kernel
  have hfailures : failures
      (.leaf "b" ⟨"a", "%@\n\x7d"⟩ (.group "c" (.leaf "d" ⟨"\"\n\x7d", ""⟩ .nil) .nil)) = [] := by
    decide +kernel
  refine ⟨_, by rw [render, hfault, hfailures], ?_⟩
  rw [read_render rfl (by rw [render, hfault, hfailures])]
  decide +kernel

end LocaleAccessors.Source.Swift
