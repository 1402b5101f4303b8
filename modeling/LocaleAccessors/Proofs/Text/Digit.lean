import LocaleAccessors.Proofs.Result
import LocaleAccessors.Text.Numeral
import Mathlib.Tactic.IntervalCases
import Mathlib.Tactic.SplitIfs

/-!
Digits as characters: a digit of a small base is read exactly where it is written.
-/

namespace LocaleAccessors.Text

def HexDigit (c : Char) (d : Nat) : Prop :=
  d < 16 ∧ (c = d.digitChar ∨ c = d.digitChar.toUpper)

def OctalDigit (c : Char) (d : Nat) : Prop :=
  d < 8 ∧ c = d.digitChar

theorem eq_ofNat_of_between {a b c : Char} (h : a ≤ c ∧ c ≤ b) :
    ∃ n, a.toNat ≤ n ∧ n ≤ b.toNat ∧ c = Char.ofNat n :=
  ⟨c.toNat, h.1, h.2, (Char.ofNat_toNat c).symm⟩

theorem hexValue?_eq_some_iff {c : Char} {d : Nat} : hexValue? c = some d ↔ HexDigit c d := by
  constructor
  · intro h
    unfold hexValue? at h
    split_ifs at h with hc hc hc
    all_goals
      obtain ⟨n, hlow, hhigh, rfl⟩ := eq_ofNat_of_between hc
      simp only [Char.reduceToNat] at hlow hhigh
      cases h
      interval_cases n <;> exact ⟨by decide, by decide⟩
  · rintro ⟨hd, rfl | rfl⟩
    · interval_cases d <;> rfl
    · interval_cases d <;> rfl

theorem mapM_hexValue?_eq_some_iff {digits : List Char} {values : List Nat} :
    digits.mapM hexValue? = some values ↔ List.Forall₂ HexDigit digits values := by
  simp only [mapM_eq_some_iff, hexValue?_eq_some_iff]

theorem octalValue?_eq_some_iff {c : Char} {d : Nat} : octalValue? c = some d ↔ OctalDigit c d := by
  constructor
  · intro h
    unfold octalValue? at h
    split_ifs at h with hc
    obtain ⟨n, hlow, hhigh, rfl⟩ := eq_ofNat_of_between hc
    simp only [Char.reduceToNat] at hlow hhigh
    cases h
    interval_cases n <;> exact ⟨by decide, by decide⟩
  · rintro ⟨hd, rfl⟩
    interval_cases d <;> rfl

theorem octalValue?_eq_none_iff {c : Char} : octalValue? c = none ↔ ∀ d, ¬ OctalDigit c d := by
  simp only [← octalValue?_eq_some_iff, Option.eq_none_iff_forall_ne_some, ne_eq]

theorem octal_numeral {n : Nat} (h : n < 0x80) :
    ∃ values, List.Forall₂ OctalDigit (numeral 8 3 n) values ∧ values.length = 3 ∧
      n = numeralValue 8 values := by
  have hdigits : ∀ n < 0x80, (numeral 8 3 n).mapM octalValue? = some [n / 64, n / 8 % 8, n % 8] ∧
      n = numeralValue 8 [n / 64, n / 8 % 8, n % 8] := by decide +kernel
  obtain ⟨hread, hvalue⟩ := hdigits n h
  refine ⟨_, ?_, rfl, hvalue⟩
  simpa only [mapM_eq_some_iff, octalValue?_eq_some_iff] using hread

theorem numeralValue_foldl_lt {base : Nat} {digits : List Nat} (h : ∀ d ∈ digits, d < base)
    (n : Nat) :
    digits.foldl (fun n d => base * n + d) n < base ^ digits.length * (n + 1) := by
  induction digits generalizing n with
  | nil => simp
  | cons d digits ih =>
    have hd : d < base := h d (by simp)
    have hn : base * n + d + 1 ≤ base * (n + 1) := by
      rw [Nat.mul_add_one]
      omega
    calc
      digits.foldl (fun n d => base * n + d) (base * n + d)
          < base ^ digits.length * (base * n + d + 1) :=
            ih (fun e he => h e (List.mem_cons_of_mem d he)) _
      _ ≤ base ^ digits.length * (base * (n + 1)) := Nat.mul_le_mul_left _ hn
      _ = base ^ (d :: digits).length * (n + 1) := by
            rw [List.length_cons, pow_succ, mul_assoc]

theorem numeralValue_lt {base : Nat} {digits : List Nat} (h : ∀ d ∈ digits, d < base) :
    numeralValue base digits < base ^ digits.length := by
  simpa [numeralValue] using numeralValue_foldl_lt h 0

theorem le_numeralValue_foldl {base : Nat} (hbase : 1 ≤ base) (digits : List Nat) (n : Nat) :
    n ≤ digits.foldl (fun n d => base * n + d) n := by
  induction digits generalizing n with
  | nil => exact Nat.le_refl n
  | cons d digits ih =>
    calc
      n ≤ base * n := Nat.le_mul_of_pos_left n hbase
      _ ≤ base * n + d := Nat.le_add_right _ _
      _ ≤ _ := ih (base * n + d)

theorem foldl_digits_lt {base : Nat} {digits : List Nat} (h : ∀ d ∈ digits, d < base) (start : Nat) :
    digits.foldl (fun n d => base * n + d) start < (start + 1) * base ^ digits.length := by
  induction digits generalizing start with
  | nil => simp
  | cons d digits ih =>
    obtain ⟨hd, hdigits⟩ := List.forall_mem_cons.mp h
    calc digits.foldl (fun n d => base * n + d) (base * start + d)
        < (base * start + d + 1) * base ^ digits.length := ih hdigits _
      _ ≤ ((start + 1) * base) * base ^ digits.length := by
        refine Nat.mul_le_mul_right _ ?_
        rw [Nat.add_mul, Nat.one_mul, Nat.mul_comm start]
        omega
      _ = (start + 1) * base ^ (digits.length + 1) := by rw [Nat.pow_succ', Nat.mul_assoc]

theorem decimalValue_lt {digits : List Char} (h : ∀ d ∈ digits, d.isDigit) :
    decimalValue digits < 10 ^ digits.length := by
  have hvalues : ∀ v ∈ digits.map fun d => d.toNat - '0'.toNat, v < 10 := by
    intro v hv
    obtain ⟨d, hd, rfl⟩ := List.mem_map.mp hv
    have hdigit := h d hd
    simp only [Char.isDigit, Bool.and_eq_true, decide_eq_true_eq] at hdigit
    have hle : d.toNat ≤ 57 := hdigit.2
    have hzero : '0'.toNat = 48 := rfl
    omega
  have hlt := foldl_digits_lt hvalues 0
  rwa [Nat.zero_add, Nat.one_mul, List.length_map] at hlt

theorem one_le_decimalValue {digits : List Char} (hne : digits ≠ []) (hd : ∀ d ∈ digits, d.isDigit)
    (hzero : digits.head? ≠ some '0') : 1 ≤ decimalValue digits := by
  obtain ⟨d, digits, rfl⟩ := List.exists_cons_of_ne_nil hne
  have hdigit : 48 ≤ d.toNat := by
    have := hd d (by simp)
    simp only [Char.isDigit, Bool.and_eq_true, decide_eq_true_eq] at this
    exact this.1
  have hnot : d.toNat ≠ 48 := fun h => hzero (congrArg some (Char.toNat_inj.mp h))
  have hone : 1 ≤ 10 * 0 + (d.toNat - '0'.toNat) := by
    simp only [Char.reduceToNat]
    omega
  exact hone.trans (le_numeralValue_foldl (by decide) _ _)

theorem toNat_ofNat_of_valid {n : Nat} (h : n.isValidChar) : (Char.ofNat n).toNat = n := by
  rw [Char.ofNat, dif_pos h]
  rfl

end LocaleAccessors.Text
