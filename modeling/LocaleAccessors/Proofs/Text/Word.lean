import LocaleAccessors.Proofs.Text.Digit
import LocaleAccessors.Proofs.Text.Run
import LocaleAccessors.Text.Identifier
import LocaleAccessors.Text.Number
import LocaleAccessors.Text.Uppercase

/-!
Words: what a reader of code takes as one name. Of ASCII only letters, digits and the underscore
belong to words, and so no word holds a blank, a bracket, a quote or another sign of the code.
-/

namespace LocaleAccessors.Text

def isWordChar (c : Char) : Bool :=
  c.isAlphanum || c == '_' || 0x80 ≤ c.toNat

structure IsWord (s : String) : Prop where
  not_empty : s ≠ ""
  chars : ∀ c ∈ s.toList, isWordChar c

instance (s : String) : Decidable (IsWord s) :=
  decidable_of_iff (s ≠ "" ∧ s.toList.all isWordChar)
    ⟨fun h => ⟨h.1, List.all_eq_true.mp h.2⟩, fun h => ⟨h.not_empty, List.all_eq_true.mpr h.chars⟩⟩

theorem IsWord.not_mem {s : String} {c : Char} (h : IsWord s) (hc : ¬ isWordChar c) :
    c ∉ s.toList :=
  fun hmem => hc (h.chars c hmem)

theorem isWordChar_of_ascii {p : Nat → Bool} (h : ∀ n < 0x80, p n → isWordChar (Char.ofNat n))
    {c : Char} (hc : p c.toNat) : isWordChar c := by
  by_cases hlt : c.toNat < 0x80
  · have hword := h c.toNat hlt hc
    rwa [Char.ofNat_toNat] at hword
  · have hle : 0x80 ≤ c.toNat := Nat.le_of_not_lt hlt
    simp [isWordChar, hle]

theorem isWordChar_of_isAlphanumeric {c : Char} (h : isAlphanumeric c) : isWordChar c := by
  let p (n : Nat) : Bool := inRanges letterRanges n ||
    (inRanges decimalDigitRanges n || inRanges specialDigitRanges n) || inRanges numeralRanges n
  have hascii : ∀ n < 0x80, p n → isWordChar (Char.ofNat n) := by decide +kernel
  exact isWordChar_of_ascii hascii h

theorem isWordChar_of_continuesIdentifier {c : Char} (h : continuesIdentifier c) :
    isWordChar c := by
  let p (n : Nat) : Bool :=
    (inRanges letterRanges n && !inRanges nonStartingLetterRanges n) ||
      inRanges startingNonLetterRanges n || inRanges continuingRanges n
  have hascii : ∀ n < 0x80, p n → isWordChar (Char.ofNat n) := by decide +kernel
  exact isWordChar_of_ascii hascii h

theorem isWordChar_of_mem_toString (n : Nat) : ∀ c ∈ (toString n).toList, isWordChar c := by
  intro c hc
  rw [Nat.toString_eq_ofList_toDigits, String.toList_ofList] at hc
  have hdigit : c.isDigit := Nat.isDigit_of_mem_toDigits (by decide) (by decide) hc
  simp [isWordChar, Char.isAlphanum, hdigit]

/-! Upper case. A run of letters has its upper case in the capital letters of ASCII or beyond ASCII
on one side of the surrogates. -/

theorem targets_of_caseRuns : ∀ r ∈ caseRuns,
    (0x41 ≤ r.first + r.shift ∧ r.last + r.shift ≤ 0x5A) ∨
      (0x80 ≤ r.first + r.shift ∧ r.last + r.shift < 0xD800) ∨
      (0xDFFF < r.first + r.shift ∧ r.last + r.shift < 0x110000) := by
  decide +kernel

theorem mem_caseExpansions {n : Nat} {codes : List Nat} (h : caseExpansions.lookup n = some codes) :
    (n, codes) ∈ caseExpansions := by
  obtain ⟨before, after, heq, -⟩ := List.lookup_eq_some_iff.mp h
  rw [heq]
  exact List.mem_append_right before List.mem_cons_self

theorem isWordChar_of_caseExpansions :
    ∀ e ∈ caseExpansions, ∀ n ∈ e.2, isWordChar (Char.ofNat n) := by
  decide +kernel

theorem isWordChar_ofNat_of_le {n : Nat} (hvalid : n.isValidChar) (h : 0x80 ≤ n) :
    isWordChar (Char.ofNat n) := by
  simp [isWordChar, toNat_ofNat_of_valid hvalid, h]

theorem isWordChar_of_covers {r : CaseRun} (hr : r ∈ caseRuns) {n : Nat} (hn : r.covers n) :
    isWordChar (Char.ofNat ((n : Int) + r.shift).toNat) := by
  simp only [CaseRun.covers, Bool.and_eq_true, decide_eq_true_eq] at hn
  obtain ⟨⟨hfirst, hlast⟩, -⟩ := hn
  obtain hcapital | hlow | hhigh := targets_of_caseRuns r hr
  · have hcapitals : ∀ m < 0x5B, 0x41 ≤ m → isWordChar (Char.ofNat m) := by decide
    exact hcapitals _ (by omega) (by omega)
  · exact isWordChar_ofNat_of_le (.inl (by omega)) (by omega)
  · exact isWordChar_ofNat_of_le (.inr ⟨by omega, by omega⟩) (by omega)

theorem isWordChar_of_mem_uppercase {c d : Char} (hc : isWordChar c) (hd : d ∈ uppercase c) :
    isWordChar d := by
  unfold uppercase at hd
  split at hd
  · next codes hcodes =>
    obtain ⟨n, hn, rfl⟩ := List.mem_map.mp hd
    exact isWordChar_of_caseExpansions _ (mem_caseExpansions hcodes) n hn
  · split at hd
    · next r hr =>
      have hcovers := List.find?_some hr
      rw [List.mem_singleton.mp hd]
      exact isWordChar_of_covers (List.mem_of_find?_eq_some hr) hcovers
    · rwa [List.mem_singleton.mp hd]

theorem IsWord.append {s t : String} (hs : IsWord s) (ht : ∀ c ∈ t.toList, isWordChar c) :
    IsWord (s ++ t) where
  not_empty := by
    intro h
    have hlist := congrArg String.toList h
    rw [String.toList_append] at hlist
    exact hs.not_empty (String.toList_eq_nil_iff.mp (List.append_eq_nil_iff.mp hlist).1)
  chars := by
    intro c hc
    rw [String.toList_append, List.mem_append] at hc
    exact hc.elim (hs.chars c) (ht c)

theorem isWord_of_isIdentifier {s : String} (h : isIdentifier s) : IsWord s := by
  unfold isIdentifier at h
  split at h
  · cases h
  · next c rest heq =>
    rw [Bool.and_eq_true, List.all_eq_true] at h
    refine ⟨fun hempty => ?_, ?_⟩
    · rw [hempty] at heq
      cases heq
    · rw [heq, List.forall_mem_cons]
      refine ⟨isWordChar_of_continuesIdentifier ?_, fun d hd => ?_⟩
      · rw [continuesIdentifier, h.1, Bool.true_or]
      · exact isWordChar_of_continuesIdentifier (h.2 d hd)

end LocaleAccessors.Text
