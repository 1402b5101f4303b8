import LocaleAccessors.Proofs.Namespace.Words
import LocaleAccessors.Proofs.Source.ObjectiveC.Reader
import LocaleAccessors.Source.ObjectiveC

/-!
What a reader of classes finds in rendered lines: the methods that the members of a class declare or
define, and in the bodies of methods nothing.
-/

namespace LocaleAccessors.Source.ObjectiveC
open Format (ValueType)
open Text (IsWord isWordChar)

/-! Types. A type is read to its end where every bracket in it is closed. -/

def Balanced (text : List Char) : Prop :=
  ∀ depth rest, readType depth (text ++ rest) =
    (readType depth rest).map fun found => (text ++ found.1, found.2)

theorem Balanced.append {text other : List Char} (h : Balanced text) (hother : Balanced other) :
    Balanced (text ++ other) := by
  intro depth rest
  rw [List.append_assoc, h, hother, Option.map_map]
  simp [Function.comp_def]

theorem balanced_of_no_brackets {text : List Char} (h : ∀ c ∈ text, c ≠ '(' ∧ c ≠ ')') :
    Balanced text := by
  intro depth rest
  induction text with
  | nil => simp
  | cons c text ih =>
    obtain ⟨⟨hopen, hclose⟩, htext⟩ := List.forall_mem_cons.mp h
    rw [List.cons_append, readType, if_neg hopen, if_neg hclose, ih htext, prepend, Option.map_map]
    rfl

theorem Balanced.bracketed {text : List Char} (h : Balanced text) :
    Balanced ('(' :: text ++ [')']) := by
  intro depth rest
  have hinside : readType (depth + 1) (text ++ ')' :: rest) =
      (prepend ')' (readType depth rest)).map fun found => (text ++ found.1, found.2) :=
    h (depth + 1) (')' :: rest)
  rw [List.append_assoc, List.cons_append, List.singleton_append, readType, if_pos rfl, hinside,
    prepend, prepend, Option.map_map, Option.map_map]
  simp [Function.comp_def]

theorem readType_of_balanced {text : List Char} (h : Balanced text) (rest : List Char) :
    readType 0 (text ++ ')' :: rest) = some (text, rest) := by
  have hclosing : readType 0 (')' :: rest) = some ([], rest) := rfl
  rw [h, hclosing, Option.map_some, List.append_nil]

theorem balanced_of_isWord {name : String} (h : IsWord name) : Balanced name.toList := by
  refine balanced_of_no_brackets fun c hc => ⟨?_, ?_⟩
  · rintro rfl
    exact h.not_mem (by decide) hc
  · rintro rfl
    exact h.not_mem (by decide) hc

/-! The methods of a class. -/

def accessorType (a : Accessor) : String :=
  match a.arguments with
  | [] => "NSString *"
  | arguments => "NSString *(^)(" ++ commas (arguments.map (typeName ·.type)) ++ ")"

def accessorMethod (a : Accessor) : Method :=
  ⟨false, accessorType a, a.name⟩

def pointerTo (className : String) : String :=
  className ++ " *"

def getterMethod (g : ChildGetter) : Method :=
  ⟨false, pointerTo g.className, g.name⟩

def sharedMethod (className : String) : Method :=
  ⟨true, pointerTo className, "sharedInstance"⟩

def Method.text (m : Method) : String :=
  (if m.ofClass then "+ (" else "- (") ++ m.type ++ ")" ++ m.name

theorem signature_eq (a : Accessor) : signature a = (accessorMethod a).text := by
  unfold signature accessorMethod accessorType Method.text
  cases a.arguments with
  | nil => rfl
  | cons x arguments =>
    have hfront : "- (NSString *(^)(" = "- (" ++ "NSString *(^)(" := by decide
    have hback : "))" = ")" ++ ")" := by decide
    dsimp only
    rw [hfront, hback]
    simp only [String.append_assoc]
    rfl

theorem getterSignature_eq (g : ChildGetter) : getterSignature g = (getterMethod g).text := by
  have hback : " *)" = " *" ++ ")" := by decide
  unfold getterSignature getterMethod pointerTo Method.text
  rw [hback]
  simp only [String.append_assoc]
  rfl

theorem sharedSignature_eq (className : String) :
    sharedSignature className = (sharedMethod className).text := by
  have hback : " *)sharedInstance" = " *" ++ ")" ++ "sharedInstance" := by decide
  unfold sharedSignature sharedMethod pointerTo Method.text
  rw [hback]
  simp only [String.append_assoc]
  rfl

/-- A method that reads as it is written. -/
structure Method.Legible (m : Method) : Prop where
  balanced : Balanced m.type.toList
  oneLine : OneLine m.type
  word : IsWord m.name

theorem no_signs_of_typeName (type : ValueType) :
    ∀ c ∈ (typeName type).toList, c ≠ '(' ∧ c ≠ ')' ∧ c ≠ '\n' ∧ c ≠ '_' := by
  cases type <;> exact Text.forall_mem_of_all (by decide)

theorem no_signs_of_types (a : Accessor) :
    ∀ c ∈ (commas (a.arguments.map (typeName ·.type))).toList,
      c ≠ '(' ∧ c ≠ ')' ∧ c ≠ '\n' ∧ c ≠ '_' := by
  have hnot : ∀ d ∈ ['(', ')', '\n', '_'],
      d ∉ (commas (a.arguments.map (typeName ·.type))).toList := by
    intro d hd
    refine not_mem_commas (fun hmem => ?_) ?_
    · revert d
      exact Text.forall_mem_of_all (by decide)
    · rw [List.forall_mem_map]
      intro x _ hmem
      have hsigns := no_signs_of_typeName x.type d hmem
      simp only [List.mem_cons, List.not_mem_nil, or_false] at hd
      tauto
  intro c hc
  refine ⟨?_, ?_, ?_, ?_⟩ <;>
    · rintro rfl
      exact hnot _ (by decide) hc

theorem legible_accessor {a : Accessor} (h : a.Worded) : (accessorMethod a).Legible where
  balanced := by
    have hplain : Balanced "NSString *".toList := balanced_of_no_brackets (Text.forall_mem_of_all (by decide))
    unfold accessorMethod accessorType
    dsimp only
    split
    · exact hplain
    · have hblock : Balanced ['^'] := balanced_of_no_brackets (Text.forall_mem_of_all (by decide))
      have htypes : Balanced (commas (a.arguments.map (typeName ·.type))).toList :=
        balanced_of_no_brackets fun c hc =>
          ⟨(no_signs_of_types a c hc).1, (no_signs_of_types a c hc).2.1⟩
      have hall := (hplain.append hblock.bracketed).append htypes.bracketed
      simpa using hall
  oneLine := by
    unfold accessorMethod accessorType
    dsimp only
    split
    · decide
    · have htypes : OneLine (commas (a.arguments.map (typeName ·.type))) :=
        fun hmem => (no_signs_of_types a _ hmem).2.2.1 rfl
      exact (OneLine.append (by decide) htypes).append (by decide)
  word := h.name

theorem legible_pointer {className name : String} (ofClass : Bool) (h : IsWord className)
    (hname : IsWord name) : (Method.mk ofClass (pointerTo className) name).Legible where
  balanced := by
    have hstar : Balanced " *".toList := balanced_of_no_brackets (Text.forall_mem_of_all (by decide))
    have hall := (balanced_of_isWord h).append hstar
    rwa [← String.toList_append] at hall
  oneLine := (oneLine_of_isWord h).append (by decide)
  word := hname

/-! The lines in a block. -/

section lines
variable {ending keyword : String}

structure Says (ending text : String) (line : Line) : Prop where
  oneLine : OneLine text
  reads : readLine ending text.toList = some line

theorem pairwise_keywords (ending : String) :
    (keywords ending).Pairwise fun k l => Apart k.1 l.1 := by
  have hkeys : ((keywords ending).map Prod.fst).Pairwise Apart := by
    change ["///", "- (", "+ (", "@end", "@interface", "@implementation"].Pairwise Apart
    decide
  exact List.pairwise_map.mp hkeys

theorem readLine_keyword {text : String} {reader : List Char → Option Line}
    (h : (text, reader) ∈ keywords ending) (rest : List Char) :
    readLine ending (text.toList ++ rest) = reader rest := by
  rw [readLine]
  simp only [keyword?_append (pairwise_keywords ending) h]

theorem heads_of_keywords : ∀ k ∈ keywords ending,
    k.1 ≠ "" ∧ k.1.toList.head? ∈ [some '/', some '-', some '+', some '@'] := by
  have hkeys : ∀ key ∈ (keywords ending).map Prod.fst,
      key ≠ "" ∧ key.toList.head? ∈ [some '/', some '-', some '+', some '@'] := by
    change ∀ key ∈ ["///", "- (", "+ (", "@end", "@interface", "@implementation"], _
    decide
  exact fun k hk => hkeys k.1 (List.mem_map_of_mem hk)

theorem says_silent {text : String} (h : OneLine text)
    (hhead : text.toList.head? ∉ [some '/', some '-', some '+', some '@']) :
    Says ending text .silent where
  oneLine := h
  reads := by
    have hnone : keyword? (keywords ending) text.toList = none := by
      rw [keyword?, List.findSome?_eq_none_iff]
      intro k hk
      obtain ⟨hne, hkey⟩ := heads_of_keywords k hk
      rw [after?_of_head hne fun heq => hhead (heq ▸ hkey)]
      rfl
    simp only [readLine, hnone]

theorem says_comment (a : Accessor) : Says ending (comment a) .silent where
  oneLine := oneLine_comment a
  reads := by
    have hmem : ("///", fun _ => some Line.silent) ∈ keywords ending := List.mem_cons_self
    have hslashes : "/// Base translation: " = "///" ++ " Base translation: " := by decide
    unfold comment
    rw [hslashes, String.append_assoc, String.toList_append, readLine_keyword hmem]

theorem says_indented {text : String} (h : OneLine text) (level : Nat) :
    Says ending (indent (level + 1) text) .silent := by
  have hhead : (indent (level + 1) text).toList.head? = some ' ' := by
    rw [toList_indent, Nat.mul_add]
    rfl
  refine says_silent (oneLine_indent _ h) ?_
  rw [hhead]
  decide

theorem says_method {m : Method} (h : m.Legible) (honeLine : OneLine ending)
    (hending : ending.toList.head?.any (!isWordChar ·)) :
    Says ending (m.text ++ ending) (.method m) where
  oneLine := by
    have hfront : OneLine (if m.ofClass then "+ (" else "- (") := by
      cases m.ofClass <;> decide
    exact (((hfront.append h.oneLine).append (by decide)).append (oneLine_of_isWord h.word)).append
      honeLine
  reads := by
    have hmethod : readMethod ending m.ofClass
        (m.type.toList ++ ')' :: (m.name.toList ++ ending.toList)) = some (.method m) := by
      have hname := readName_before h.word ending hending []
      rw [List.append_nil] at hname
      simp only [readMethod, readType_of_balanced h.balanced, hname, Option.bind_eq_bind,
        Option.bind_some, if_true, String.ofList_toList]
    have hlist : (m.text ++ ending).toList = (if m.ofClass then "+ (" else "- (").toList ++
        (m.type.toList ++ ')' :: (m.name.toList ++ ending.toList)) := by
      simp [Method.text]
    have hmem : (if m.ofClass then "+ (" else "- (", readMethod ending m.ofClass) ∈
        keywords ending := by
      cases m.ofClass <;> simp [keywords]
    rw [hlist, readLine_keyword hmem, hmethod]

end lines

end LocaleAccessors.Source.ObjectiveC
