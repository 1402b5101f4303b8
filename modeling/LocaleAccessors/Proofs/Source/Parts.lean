import LocaleAccessors.Proofs.Result
import LocaleAccessors.Proofs.Source.Layout

/-!
The parts of a line of code, read from its front: fixed texts, names and lists between commas.
-/

namespace LocaleAccessors.Source
open Text (IsWord isWordChar takeWhile_run dropWhile_run)

def after? (text : String) (cs : List Char) : Option (List Char) :=
  cs.dropPrefix? text.toList

theorem after?_append (text : String) (rest : List Char) :
    after? text (text.toList ++ rest) = some rest :=
  List.dropPrefix?_append_of_beq rest (beq_self_eq_true _)

def Apart (text other : String) : Prop :=
  ¬ text.toList <+: other.toList ∧ ¬ other.toList <+: text.toList

instance (text other : String) : Decidable (Apart text other) :=
  inferInstanceAs (Decidable (_ ∧ _))

theorem after?_of_not_prefix {text : String} {cs : List Char} (h : ¬ text.toList <+: cs) :
    after? text cs = none := by
  rw [after?, Option.eq_none_iff_forall_ne_some]
  intro found hfound
  obtain ⟨start, heq, hstart⟩ := List.dropPrefix?_eq_some_iff.mp hfound
  rw [eq_of_beq hstart] at heq
  exact h ⟨found, heq.symm⟩

theorem after?_of_apart {text other : String} (h : Apart text other) (rest : List Char) :
    after? text (other.toList ++ rest) = none := by
  refine after?_of_not_prefix fun htext => ?_
  have hother : other.toList <+: other.toList ++ rest := List.prefix_append _ rest
  cases List.prefix_or_prefix_of_prefix htext hother with
  | inl hprefix => exact h.1 hprefix
  | inr hprefix => exact h.2 hprefix

theorem after?_of_head {text : String} {cs : List Char} (hne : text ≠ "")
    (h : text.toList.head? ≠ cs.head?) : after? text cs = none := by
  refine after?_of_not_prefix fun htext => ?_
  cases hcs : text.toList with
  | nil => exact hne (String.toList_eq_nil_iff.mp hcs)
  | cons c rest =>
    rw [hcs] at h htext
    obtain ⟨more, rfl⟩ := htext
    exact h rfl

/-- The first of some keywords at the front, by what it stands for, and what follows it. -/
def keyword? {α : Type} (keywords : List (String × α)) (cs : List Char) : Option (α × List Char) :=
  keywords.findSome? fun k => (after? k.1 cs).map (k.2, ·)

theorem keyword?_append {α : Type} {keywords : List (String × α)}
    (h : keywords.Pairwise fun k l => Apart k.1 l.1) {text : String} {a : α}
    (hmem : (text, a) ∈ keywords) (rest : List Char) :
    keyword? keywords (text.toList ++ rest) = some (a, rest) := by
  rw [keyword?]
  induction keywords with
  | nil => cases hmem
  | cons k keywords ih =>
    obtain ⟨hk, hkeywords⟩ := List.pairwise_cons.mp h
    cases List.mem_cons.mp hmem with
    | inl heq => rw [← heq, List.findSome?_cons, after?_append]; rfl
    | inr hmem =>
      rw [List.findSome?_cons, after?_of_apart (hk _ hmem)]
      exact ih hkeywords hmem

def prepend (c : Char) (found : Option (List Char × List Char)) : Option (List Char × List Char) :=
  found.map fun (text, rest) => (c :: text, rest)

def readName (cs : List Char) : Option (String × List Char) :=
  match cs.takeWhile isWordChar with
  | [] => none
  | name => some (String.ofList name, cs.dropWhile isWordChar)

theorem readName_append {name : String} (h : IsWord name) {rest : List Char}
    (hrest : ∀ c ∈ rest.head?, ¬ isWordChar c) :
    readName (name.toList ++ rest) = some (name, rest) := by
  have hne : name.toList ≠ [] := fun hnil => h.not_empty (String.toList_eq_nil_iff.mp hnil)
  rw [readName, takeWhile_run h.chars hrest, dropWhile_run h.chars hrest]
  split
  · next hnil => exact absurd hnil hne
  · rw [String.ofList_toList]

theorem readName_before {name : String} (h : IsWord name) (text : String)
    (htext : text.toList.head?.any (!isWordChar ·)) (rest : List Char) :
    readName (name.toList ++ (text.toList ++ rest)) = some (name, text.toList ++ rest) := by
  refine readName_append h ?_
  intro d hd
  cases htoList : text.toList with
  | nil =>
    rw [htoList] at htext
    cases htext
  | cons c cs =>
    rw [htoList, List.head?_cons] at htext
    rw [htoList, List.cons_append, List.head?_cons, Option.mem_some] at hd
    rw [← hd]
    simpa using htext

def readItems {α : Type} (item : List Char → Option α) (cs : List Char) : Option (List α) :=
  (cs.splitOn ',').mapM fun piece => item (piece.dropWhile (· == ' '))

section items
variable {α : Type} {item : List Char → Option α} {spelling : α → String}

theorem readItems_blank (cs : List Char) : readItems item (' ' :: cs) = readItems item cs := by
  rw [readItems, readItems, List.splitOn_cons_eq_if_modifyHead, if_neg (by decide)]
  cases cs.splitOn ',' with
  | nil => rfl
  | cons piece pieces => rw [List.modifyHead_cons, List.mapM_cons, List.mapM_cons]; rfl

/-- An item is found where it has no comma and no blank in front. -/
structure Readable (item : List Char → Option α) (spelling : α → String) (a : α) : Prop where
  reads : item (spelling a).toList = some a
  no_comma : ',' ∉ (spelling a).toList
  no_blank : (spelling a).toList.head? ≠ some ' '

theorem Readable.reads_piece {a : α} (h : Readable item spelling a) :
    item ((spelling a).toList.dropWhile (· == ' ')) = some a := by
  rw [← h.reads]
  congr 1
  cases hcs : (spelling a).toList with
  | nil => rfl
  | cons c cs =>
    have hblank : ¬ (c == ' ') := by
      intro hc
      refine h.no_blank ?_
      rw [hcs, List.head?_cons, eq_of_beq hc]
    simp [hblank]

theorem toList_commas_cons_cons (first second : String) (others : List String) :
    (commas (first :: second :: others)).toList =
      first.toList ++ ',' :: ' ' :: (commas (second :: others)).toList := by
  simp [commas]

theorem readItems_commas {items : List α} (hne : items ≠ [])
    (h : ∀ a ∈ items, Readable item spelling a) :
    readItems item (commas (items.map spelling)).toList = some items := by
  induction items with
  | nil => exact absurd rfl hne
  | cons a items ih =>
    obtain ⟨ha, hitems⟩ := List.forall_mem_cons.mp h
    cases items with
    | nil =>
      rw [List.map_singleton, commas, String.intercalate_singleton, readItems,
        List.splitOn_eq_singleton ha.no_comma, List.mapM_cons, ha.reads_piece]
      rfl
    | cons b items =>
      have hothers := ih (List.cons_ne_nil b items) hitems
      rw [List.map_cons, List.map_cons, toList_commas_cons_cons, ← List.map_cons, readItems,
        List.splitOn_append_cons_self_of_not_mem ha.no_comma, List.mapM_cons, ha.reads_piece]
      change (readItems item _).bind _ = _
      rw [readItems_blank, hothers]
      rfl

def readList (item : List Char → Option α) (ending : String) (cs : List Char) : Option (List α) :=
  if cs.dropWhile (· != ')') = ending.toList then readItems item (cs.takeWhile (· != ')')) else none

theorem readList_commas {items : List α} {ending : String} (hne : items ≠ [])
    (h : ∀ a ∈ items, Readable item spelling a ∧ ')' ∉ (spelling a).toList)
    (hending : ending.toList.head? = some ')') :
    readList item ending ((commas (items.map spelling)).toList ++ ending.toList) = some items := by
  have hinside : ∀ c ∈ (commas (items.map spelling)).toList, c != ')' := by
    have hnot : ')' ∉ (commas (items.map spelling)).toList := by
      refine not_mem_commas (by decide) ?_
      rw [List.forall_mem_map]
      exact fun a ha => (h a ha).2
    exact fun c hc => bne_iff_ne.mpr (ne_of_mem_of_not_mem hc hnot)
  have hstop : ∀ c ∈ ending.toList.head?, ¬ (c != ')') := by
    intro c hc
    rw [hending, Option.mem_some] at hc
    simp [← hc]
  rw [readList, dropWhile_run hinside hstop, takeWhile_run hinside hstop, if_pos rfl]
  exact readItems_commas hne fun a ha => (h a ha).1

end items

end LocaleAccessors.Source
