import LocaleAccessors.Text.Separated
import Mathlib.Data.List.Infix

/-!
Where a text is cut at a separator. Every cut is at the leftmost place that is left, so the pieces that
are not empty, joined again, are cut where they were.
-/

namespace LocaleAccessors.Text
variable {d : Separator}

namespace Separator

theorem ofString?_eq_some {s : String} (h : s ≠ "") :
    ∃ d, ofString? s = some d ∧ s.toList = d.chars := by
  unfold ofString?
  split
  · next hnil => exact absurd (String.toList_eq_nil_iff.mp hnil) h
  · next c cs hcs => exact ⟨⟨c, cs⟩, rfl, hcs⟩

def Clear (d : Separator) (text : List Char) : Prop :=
  ¬ d.chars <:+: text ++ d.chars.dropLast

/-- No front of the separator, but the whole of it, is also its end. -/
def Unbordered (d : Separator) : Prop :=
  ∀ border, border ≠ [] → border <+: d.chars → border <:+ d.chars → border = d.chars

instance (d : Separator) : Decidable d.Unbordered :=
  decidable_of_iff
    (∀ border ∈ d.chars.inits, border ≠ [] → border <:+ d.chars → border = d.chars) <| by
      simp only [Unbordered, List.mem_inits]
      exact ⟨fun h border hne hprefix => h border hprefix hne,
        fun h border hprefix hne => h border hne hprefix⟩

theorem prefix_cons_iff {c : Char} {rest : List Char} :
    d.chars <+: c :: rest ↔ c = d.first ∧ d.others.isPrefixOf rest := by
  rw [chars, List.cons_prefix_cons, List.isPrefixOf_iff_prefix, eq_comm]

theorem length_dropLast_chars : d.chars.dropLast.length < d.chars.length := by
  simp [chars]

theorem clear_nil : d.Clear [] := fun h =>
  Nat.not_le.mpr length_dropLast_chars h.length_le

theorem Clear.no_separator {text : List Char} (h : d.Clear text) : ¬ d.chars <:+: text :=
  fun hinfix => h (List.infix_append_of_infix_left hinfix)

theorem Clear.cons_iff {c : Char} {text : List Char} (rest : List Char) :
    d.Clear (c :: text) ↔ ¬ d.chars <+: c :: (text ++ d.chars ++ rest) ∧ d.Clear text := by
  have hprefix : d.chars <+: c :: (text ++ d.chars.dropLast) ↔
      d.chars <+: c :: (text ++ d.chars ++ rest) := by
    have hfront : c :: (text ++ d.chars.dropLast) <+: c :: (text ++ d.chars ++ rest) := by
      rw [List.append_assoc, List.cons_prefix_cons, List.prefix_append_right_inj]
      exact ⟨rfl, (List.dropLast_prefix _).trans (List.prefix_append _ _)⟩
    refine ⟨fun h => h.trans hfront, fun h => List.prefix_of_prefix_length_le h hfront ?_⟩
    simp only [chars, List.length_cons, List.length_append, List.length_dropLast]
    omega
  rw [Clear, Clear, List.cons_append, List.infix_cons_iff, hprefix, not_or]

end Separator

/-- The pieces of a text. No separator begins in a piece before the one that ends it, and none stands
in the last piece. -/
inductive Cuts (d : Separator) : List Char → List (List Char) → Prop where
  | last {text : List Char} : ¬ d.chars <:+: text → Cuts d text [text]
  | next {piece rest : List Char} {more : List (List Char)} : d.Clear piece → Cuts d rest more →
      Cuts d (piece ++ d.chars ++ rest) (piece :: more)

theorem Cuts.ne_nil {text : List Char} {found : List (List Char)} (h : Cuts d text found) :
    found ≠ [] := by
  cases h <;> exact List.cons_ne_nil _ _

theorem Cuts.cons {c : Char} {text piece : List Char} {more : List (List Char)}
    (hc : ¬ d.chars <+: c :: text) (h : Cuts d text (piece :: more)) :
    Cuts d (c :: text) ((c :: piece) :: more) := by
  cases h with
  | last hnone => exact .last fun hinfix => (List.infix_cons_iff.mp hinfix).elim hc hnone
  | next hclear hrest => exact .next ((Separator.Clear.cons_iff _).mpr ⟨hc, hclear⟩) hrest

theorem cuts_pieces (d : Separator) (text : List Char) : Cuts d text (pieces d text) := by
  fun_induction pieces d text with
  | case1 => exact .last (by simp [Separator.chars])
  | case2 c rest h ih =>
    obtain ⟨rfl, hothers⟩ := h
    obtain ⟨more, rfl⟩ := List.isPrefixOf_iff_prefix.mp hothers
    have hcut : Cuts d ([] ++ d.chars ++ more) ([] :: pieces d more) := by
      refine .next Separator.clear_nil ?_
      rwa [List.drop_left] at ih
    rwa [List.drop_left]
  | case3 c rest _ hnil ih => exact absurd hnil ih.ne_nil
  | case4 c rest h piece more hpieces ih =>
    rw [hpieces] at ih
    exact ih.cons fun hprefix => h (Separator.prefix_cons_iff.mp hprefix)

theorem pieces_cons {c : Char} {text piece : List Char} {more : List (List Char)}
    (hc : ¬ d.chars <+: c :: text) (h : pieces d text = piece :: more) :
    pieces d (c :: text) = (c :: piece) :: more := by
  rw [pieces, if_neg fun hfirst => hc (Separator.prefix_cons_iff.mpr hfirst), h]

theorem pieces_of_not_infix {text : List Char} (h : ¬ d.chars <:+: text) : pieces d text = [text] := by
  induction text with
  | nil => rw [pieces]
  | cons c text ih =>
    rw [List.infix_cons_iff, not_or] at h
    exact pieces_cons h.1 (ih h.2)

theorem pieces_append {piece : List Char} (h : d.Clear piece) (rest : List Char) :
    pieces d (piece ++ d.chars ++ rest) = piece :: pieces d rest := by
  induction piece with
  | nil =>
    have hfirst : d.first = d.first ∧ d.others.isPrefixOf (d.others ++ rest) :=
      ⟨rfl, List.isPrefixOf_iff_prefix.mpr (List.prefix_append _ _)⟩
    rw [List.nil_append, Separator.chars, List.cons_append, pieces, if_pos hfirst, List.drop_left]
  | cons c piece ih =>
    obtain ⟨hc, hclear⟩ := (Separator.Clear.cons_iff rest).mp h
    exact pieces_cons hc (ih hclear)

theorem pieces_eq_iff {text : List Char} {found : List (List Char)} :
    pieces d text = found ↔ Cuts d text found := by
  constructor
  · rintro rfl
    exact cuts_pieces d text
  · intro h
    induction h with
    | last hnone => exact pieces_of_not_infix hnone
    | next hclear _ ih => rw [pieces_append hclear, ih]

theorem Cuts.no_separator {text piece : List Char} {found : List (List Char)} (h : Cuts d text found)
    (hpiece : piece ∈ found) : ¬ d.chars <:+: piece := by
  induction h with
  | last hnone => rwa [List.mem_singleton.mp hpiece]
  | next hclear _ ih =>
    cases List.mem_cons.mp hpiece with
    | inl h => exact h ▸ hclear.no_separator
    | inr h => exact ih h

theorem Cuts.joined {text : List Char} {found : List (List Char)} (h : Cuts d text found) :
    let kept := found.filter (· ≠ [])
    kept ≠ [] → Cuts d (d.chars.intercalate kept) kept := by
  induction h with
  | @last text hnone =>
    intro kept hkept
    have htext : kept = [text] := by
      by_cases hempty : text = [] <;> simp_all [kept]
    rw [htext, List.intercalate_singleton]
    exact .last hnone
  | @next piece rest more hclear _ ih =>
    intro kept hkept
    by_cases hempty : piece = []
    · have hsame : kept = more.filter (· ≠ []) := by simp [kept, hempty]
      rw [hsame] at hkept ⊢
      exact ih hkept
    · have hcons : kept = piece :: more.filter (· ≠ []) := by simp [kept, hempty]
      rw [hcons]
      cases hmore : more.filter (· ≠ []) with
      | nil =>
        rw [List.intercalate_singleton]
        exact .last hclear.no_separator
      | cons second others =>
        rw [hmore] at ih
        rw [List.intercalate_cons_cons]
        exact .next hclear (ih (List.cons_ne_nil _ _))

theorem Separator.unbordered_of_single (h : d.others = []) : d.Unbordered := by
  intro border hne hprefix _
  have hlength : border.length ≤ 1 := by simpa [chars, h] using hprefix.length_le
  have hpos := List.length_pos_of_ne_nil hne
  exact hprefix.eq_of_length (by simp [chars, h]; omega)

theorem Separator.Unbordered.clear {text : List Char} (hd : d.Unbordered)
    (h : ¬ d.chars <:+: text) : d.Clear text := by
  intro hinfix
  obtain hleft | hright | ⟨front, back, hchars, hfront, hback⟩ := List.infix_append_iff.mp hinfix
  · exact h hleft
  · exact Nat.not_le.mpr length_dropLast_chars hright.length_le
  · have hshort : back.length < d.chars.length := hback.length_le.trans_lt length_dropLast_chars
    by_cases hempty : back = []
    · rw [hempty, List.append_nil] at hchars
      exact h (hchars ▸ hfront.isInfix)
    · have hborder := hd back hempty (hback.trans (List.dropLast_prefix _)) ⟨front, hchars.symm⟩
      rw [hborder] at hshort
      exact lt_irrefl _ hshort

theorem Separator.Unbordered.pieces_append (hd : d.Unbordered) (a b : List Char) :
    pieces d (a ++ d.chars ++ b) = pieces d a ++ pieces d b := by
  have hcuts := cuts_pieces d a
  generalize pieces d a = found at hcuts ⊢
  rw [pieces_eq_iff]
  induction hcuts with
  | last hnone => exact .next (hd.clear hnone) (cuts_pieces d b)
  | @next piece rest more hclear _ ih =>
    rw [List.append_assoc, List.append_assoc, ← List.append_assoc rest]
    exact .next hclear ih

end LocaleAccessors.Text
