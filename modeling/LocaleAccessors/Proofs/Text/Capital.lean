import LocaleAccessors.Proofs.Text.Word
import Mathlib.Data.List.Chain

/-!
Capital letters. The upper case of a letter or digit begins with a letter or digit that is its own upper
case. What follows it need be neither: some letters with marks have their upper case in two or three
characters, a letter and its marks.
-/

namespace LocaleAccessors.Text

/-! The code points that a run covers are told apart from those of another run by where they lie and, for
runs of every second code point, by their parity. A run of capitals is given by its ends alone. -/

def CaseRun.capitals (r : CaseRun) : CaseRun :=
  ⟨(r.first + r.shift).toNat, (r.last + r.shift).toNat, r.stride, 0⟩

def CaseRun.single (n : Nat) : CaseRun :=
  ⟨n, n, 1, 0⟩

def expandedRuns : List CaseRun :=
  caseExpansions.map fun e => .single e.1

def CaseRun.misses (r s : CaseRun) : Bool :=
  Nat.blt s.last r.first ||
    ((r.stride == 2 || r.first == r.last) && s.stride == 2 && (r.first + s.first) % 2 == 1)

def CaseRun.missesAll (r : CaseRun) : List CaseRun → Bool
  | [] => true
  | s :: rest => Nat.blt r.last s.first || (r.misses s && r.missesAll rest)

def CaseRun.isFixed (r : CaseRun) : Bool :=
  r.missesAll caseRuns && r.missesAll expandedRuns

theorem CaseRun.covers_iff {r : CaseRun} {n : Nat} :
    r.covers n ↔ r.first ≤ n ∧ n ≤ r.last ∧ (n - r.first) % r.stride = 0 := by
  simp [covers, and_assoc]

theorem CaseRun.covers_single (n : Nat) : (single n).covers n := by
  simp [covers, single]

theorem CaseRun.not_covers_of_misses {r s : CaseRun} {n : Nat} (h : r.misses s) (hr : r.covers n) :
    ¬ s.covers n := by
  rw [covers_iff] at hr ⊢
  obtain ⟨hfirst, hlast, hstride⟩ := hr
  rintro ⟨hfirst', hlast', hstride'⟩
  simp only [misses, Bool.or_eq_true, Bool.and_eq_true, beq_iff_eq, Nat.blt_eq] at h
  rcases h with h | ⟨⟨h, htwo⟩, hodd⟩
  · omega
  · rw [htwo] at hstride'
    rcases h with h | h
    · rw [h] at hstride
      omega
    · omega

theorem CaseRun.not_covers_of_missesAll {r s : CaseRun} {runs : List CaseRun} {n : Nat}
    (hruns : runs.Pairwise fun a b => a.first ≤ b.first) (h : r.missesAll runs) (hr : r.covers n)
    (hs : s ∈ runs) : ¬ s.covers n := by
  induction hruns with
  | nil => cases hs
  | @cons t runs ht _ ih =>
    rw [missesAll, Bool.or_eq_true, Bool.and_eq_true, Nat.blt_eq] at h
    rcases h with hlast | ⟨hmisses, hrest⟩
    · -- This run begins behind the code point, and so do those after it.
      have hle : t.first ≤ s.first := by
        rcases List.mem_cons.mp hs with rfl | hs
        · exact Nat.le_refl _
        · exact ht s hs
      rw [covers_iff] at hr ⊢
      omega
    · rcases List.mem_cons.mp hs with rfl | hs
      · exact not_covers_of_misses hmisses hr
      · exact ih hrest hs

theorem ascending_caseRuns : caseRuns.Pairwise fun a b => a.first ≤ b.first := by
  have hchain : (caseRuns.map CaseRun.first).IsChain (· ≤ ·) := by decide +kernel
  exact List.pairwise_map.mp hchain.pairwise

theorem ascending_expandedRuns : expandedRuns.Pairwise fun a b => a.first ≤ b.first := by
  have hchain : (expandedRuns.map CaseRun.first).IsChain (· ≤ ·) := by decide +kernel
  exact List.pairwise_map.mp hchain.pairwise

theorem uppercase_of_isFixed {r : CaseRun} {c : Char} (h : r.isFixed) (hc : r.covers c.toNat) :
    uppercase c = [c] := by
  rw [CaseRun.isFixed, Bool.and_eq_true] at h
  have hlookup : caseExpansions.lookup c.toNat = none := by
    rw [List.lookup_eq_none_iff]
    intro e he
    rw [bne_iff_ne]
    intro heq
    refine CaseRun.not_covers_of_missesAll ascending_expandedRuns h.2 hc (List.mem_map_of_mem he) ?_
    rw [heq]
    exact CaseRun.covers_single e.1
  have hfind : caseRuns.find? (·.covers c.toNat) = none := by
    rw [List.find?_eq_none]
    exact fun s hs => CaseRun.not_covers_of_missesAll ascending_caseRuns h.1 hc hs
  rw [uppercase, hlookup, hfind]

theorem isFixed_capitals : ∀ r ∈ caseRuns, r.capitals.isFixed := by
  decide +kernel

/-! Letters and digits. The capitals of a run lie in one range of letters or numerals; three short runs
have theirs looked at one by one. -/

def inOneRange : List (Nat × Nat) → Nat → Nat → Bool
  | [], _, _ => false
  | (first, last) :: rest, m, n =>
    bif Nat.ble m last then Nat.ble first m && Nat.ble n last else inOneRange rest m n

theorem inRanges_of_inOneRange {ranges : List (Nat × Nat)} {l m n : Nat}
    (h : inOneRange ranges l n) (hl : l ≤ m) (hm : m ≤ n) : inRanges ranges m := by
  induction ranges with
  | nil => cases h
  | cons range rest ih =>
    obtain ⟨first, last⟩ := range
    rw [inOneRange, cond_eq_ite] at h
    rw [inRanges]
    split_ifs at h with hle
    · simp only [Bool.and_eq_true, Nat.ble_eq] at h hle
      rw [if_pos (by omega)]
      simp only [decide_eq_true_eq]
      omega
    · rw [Nat.ble_eq] at hle
      rw [if_neg (by omega)]
      exact ih h

theorem isAlphanumeric_of_inOneRange {ranges : List (Nat × Nat)} {l n : Nat} {c : Char}
    (hranges : ranges = letterRanges ∨ ranges = numeralRanges) (h : inOneRange ranges l n)
    (hl : l ≤ c.toNat) (hn : c.toNat ≤ n) : isAlphanumeric c := by
  have hc := inRanges_of_inOneRange h hl hn
  rcases hranges with rfl | rfl
  · simp [isAlphanumeric, isLetter, hc]
  · simp [isAlphanumeric, hc]

def CaseRun.keepsLetters (r : CaseRun) : Bool :=
  inOneRange letterRanges r.capitals.first r.capitals.last ||
    inOneRange numeralRanges r.capitals.first r.capitals.last ||
    (Nat.ble r.last (r.first + 25) && (List.range 26).all fun k =>
      !r.covers (r.first + k) || !isAlphanumeric (Char.ofNat (r.first + k)) ||
        isAlphanumeric (Char.ofNat ((r.first + k : Nat) + r.shift).toNat))

theorem keepsLetters_caseRuns : ∀ r ∈ caseRuns, r.keepsLetters := by
  decide +kernel

theorem head_caseExpansions : ∀ e ∈ caseExpansions, e.2.head?.any fun n =>
    Nat.blt n 0xD800 && inOneRange letterRanges n n && (CaseRun.single n).isFixed := by
  decide +kernel

theorem valid_capital {r : CaseRun} (hr : r ∈ caseRuns) {n : Nat} (hn : r.covers n) :
    ((n : Int) + r.shift).toNat.isValidChar ∧ r.capitals.covers ((n : Int) + r.shift).toNat := by
  obtain ⟨hfirst, hlast, hstride⟩ := CaseRun.covers_iff.mp hn
  have htargets := targets_of_caseRuns r hr
  have hsame : ((n : Int) + r.shift).toNat - (r.first + r.shift).toNat = n - r.first := by omega
  constructor
  · unfold Nat.isValidChar
    omega
  · exact CaseRun.covers_iff.mpr ⟨Int.toNat_le_toNat (by omega), Int.toNat_le_toNat (by omega),
      hsame ▸ hstride⟩

theorem isAlphanumeric_capital {r : CaseRun} (hr : r ∈ caseRuns) {c : Char} (hc : r.covers c.toNat)
    (h : isAlphanumeric c) : isAlphanumeric (Char.ofNat ((c.toNat : Int) + r.shift).toNat) := by
  obtain ⟨hvalid, hcapital⟩ := valid_capital hr hc
  obtain ⟨hfirst, hlast, -⟩ := CaseRun.covers_iff.mp hcapital
  rw [← toNat_ofNat_of_valid hvalid] at hfirst hlast
  have hkeeps := keepsLetters_caseRuns r hr
  rw [CaseRun.keepsLetters, Bool.or_eq_true, Bool.or_eq_true] at hkeeps
  rcases hkeeps with (hletters | hnumerals) | hshort
  · exact isAlphanumeric_of_inOneRange (.inl rfl) hletters hfirst hlast
  · exact isAlphanumeric_of_inOneRange (.inr rfl) hnumerals hfirst hlast
  · obtain ⟨hstart, hend, -⟩ := CaseRun.covers_iff.mp hc
    rw [Bool.and_eq_true, Nat.ble_eq, List.all_eq_true] at hshort
    have hplace := hshort.2 (c.toNat - r.first) (List.mem_range.mpr (by omega))
    rw [Nat.add_sub_cancel' hstart, Char.ofNat_toNat, hc, h] at hplace
    simpa using hplace

theorem exists_uppercase {c : Char} (h : isAlphanumeric c) :
    ∃ d marks, uppercase c = d :: marks ∧ isAlphanumeric d ∧ uppercase d = [d] := by
  cases hlookup : caseExpansions.lookup c.toNat with
  | some codes =>
    have hhead := head_caseExpansions _ (mem_caseExpansions hlookup)
    cases codes with
    | nil => cases hhead
    | cons n codes =>
      simp only [List.head?_cons, Option.any_some, Bool.and_eq_true, Nat.blt_eq] at hhead
      obtain ⟨⟨hvalid, hletter⟩, hfixed⟩ := hhead
      have hn : (Char.ofNat n).toNat = n := toNat_ofNat_of_valid (.inl hvalid)
      refine ⟨Char.ofNat n, codes.map Char.ofNat, ?_, ?_, ?_⟩
      · rw [uppercase, hlookup]
        rfl
      · exact isAlphanumeric_of_inOneRange (.inl rfl) hletter hn.ge hn.le
      · exact uppercase_of_isFixed hfixed (hn.symm ▸ CaseRun.covers_single n)
  | none =>
    cases hfind : caseRuns.find? (·.covers c.toNat) with
    | none =>
      have hself : uppercase c = [c] := by rw [uppercase, hlookup, hfind]
      exact ⟨c, [], hself, h, hself⟩
    | some r =>
      have hr := List.mem_of_find?_eq_some hfind
      have hcovers : r.covers c.toNat := by simpa using List.find?_some hfind
      obtain ⟨hvalid, hcapital⟩ := valid_capital hr hcovers
      have hd := toNat_ofNat_of_valid hvalid
      refine ⟨Char.ofNat ((c.toNat : Int) + r.shift).toNat, [], ?_, ?_, ?_⟩
      · rw [uppercase, hlookup, hfind]
      · exact isAlphanumeric_capital hr hcovers h
      · exact uppercase_of_isFixed (isFixed_capitals r hr) (hd.symm ▸ hcapital)

end LocaleAccessors.Text
