import LocaleAccessors.Proofs.Format.Fields

/-!
A text begins with at most one specifier, and the spelling of it is unique up to the zeros in front
of a width.
-/

namespace LocaleAccessors.Format
open Text (not_of_head?_dropWhile)

namespace Spelling
variable {s t : Spelling}

theorem eq_of_chars_append (hs : s.Valid) (hsn : s.Normal) (ht : t.Valid) (htn : t.Normal)
    {rest other : List Char} (h : s.chars ++ rest = t.chars ++ other) : s = t ∧ rest = other := by
  -- One reader finds both spellings.
  have hread := readSpelling_chars hs hsn rest
  rw [h, readSpelling_chars ht htn, Option.some.injEq, Prod.mk.injEq] at hread
  exact ⟨hread.1.symm, hread.2.symm⟩

theorem widthChars_widthOf (ds : List Char) : widthChars (widthOf ds) = ds := by
  cases ds <;> rfl

theorem of_mem_widthOf {ds : List Char} {e : Extent} (h : e ∈ widthOf ds) :
    e = .digits ds ∧ ds ≠ [] := by
  cases ds <;> cases h
  exact ⟨rfl, List.cons_ne_nil _ _⟩

theorem chars_normal (s : Spelling) : s.normal.chars = s.chars := by
  unfold normal
  split
  · rename_i ds hw
    simp only [chars, hw, widthChars_widthOf, List.append_assoc]
    simp only [← List.append_assoc (ds.takeWhile _), List.takeWhile_append_dropWhile, widthChars,
      Extent.chars]
  · rfl

theorem normal_normal (s : Spelling) : s.normal.Normal := by
  intro es h
  unfold normal at h
  split at h
  · rename_i ds hw
    obtain ⟨heq, -⟩ := of_mem_widthOf h
    intro hzero
    rw [Extent.digits.inj heq] at hzero
    simpa using not_of_head?_dropWhile ds '0' hzero
  · rename_i hw
    exact absurd h (hw es)

theorem Valid.normal (h : s.Valid) : s.normal.Valid := by
  unfold Spelling.normal
  split
  · rename_i ds hw
    have hds : ∀ d ∈ ds, d.isDigit := (h.width _ hw).1
    refine ⟨h.position, ?_, ?_, h.precision⟩
    · intro c hc
      rcases List.mem_append.mp hc with hc | hc
      · exact h.flags c hc
      · have hzero : c = '0' := by simpa using List.mem_takeWhile_imp hc
        rw [hzero]
        decide
    · intro e he
      obtain ⟨rfl, hne⟩ := of_mem_widthOf he
      refine ⟨fun d hd => hds d ((List.dropWhile_sublist _).subset hd), fun heq => ?_⟩
      exact hne (Extent.digits.inj heq)
  · exact h

/-- Two spellings at the same place have the same characters and differ at most in which zeros they
count to the width. -/
theorem unambiguous (hs : s.Valid) (ht : t.Valid) {rest other : List Char}
    (h : s.chars ++ rest = t.chars ++ other) : s.chars = t.chars ∧ s.normal = t.normal := by
  rw [← chars_normal s, ← chars_normal t] at h ⊢
  obtain ⟨heq, -⟩ :=
    eq_of_chars_append hs.normal (normal_normal s) ht.normal (normal_normal t) h
  exact ⟨congrArg chars heq, heq⟩

theorem readSpelling_of_valid (hs : s.Valid) (rest : List Char) :
    readSpelling (s.chars ++ rest) = some (s.normal, rest) := by
  rw [← chars_normal s]
  exact readSpelling_chars hs.normal (normal_normal s) rest

end Spelling

end LocaleAccessors.Format
