import LocaleAccessors.Proofs.Name.Distinct
import Mathlib.Data.Finset.Card
import Mathlib.Order.Bounds.Defs

/-!
The candidates for a name: the name itself, and then the name with the suffixes from 2 on. They are
all different, so a search that goes past those that are taken ends before it has made as many steps as
there are taken names, and it ends at the first free candidate.
-/

namespace LocaleAccessors.Name
variable {name : String} {taken : List String}

def candidate (name : String) : Nat → String
  | 0 => name
  | i + 1 => suffixed name (i + 2)

theorem suffixed_ne_self (name : String) (k : Nat) : suffixed name k ≠ name := by
  intro h
  have hlength := congrArg String.length h
  simp only [suffixed, String.length_append] at hlength
  have hunderscore : "_".length = 1 := rfl
  omega

theorem candidate_injective (name : String) : Function.Injective (candidate name) := by
  intro i j h
  cases i with
  | zero =>
    cases j with
    | zero => rfl
    | succ j => exact absurd h.symm (suffixed_ne_self name (j + 2))
  | succ i =>
    cases j with
    | zero => exact absurd h (suffixed_ne_self name (i + 2))
    | succ j => exact Nat.succ.inj (suffixed_injective name h)

theorem candidate_eq_suffixed {k : Nat} (hk : 2 ≤ k) : candidate name (k - 1) = suffixed name k := by
  obtain ⟨i, rfl⟩ := Nat.exists_eq_add_of_le' hk
  rfl

theorem distinctName_candidate (name : String) (taken : List String) :
    ∃ i, distinctName name taken = candidate name i ∧ candidate name i ∉ taken ∧
      ∀ j < i, candidate name j ∈ taken := by
  obtain ⟨hfree, heq⟩ | ⟨htaken, k, hk, heq, hfree, hall⟩ := distinctName_cases name taken
  · exact ⟨0, heq, hfree, fun j hj => absurd hj (Nat.not_lt_zero j)⟩
  · refine ⟨k - 1, ?_, ?_, fun j hj => ?_⟩
    · rw [candidate_eq_suffixed hk, heq]
    · rwa [candidate_eq_suffixed hk]
    · cases j with
      | zero => exact htaken
      | succ j => exact hall (j + 2) (Nat.le_add_left 2 j) (by omega)

theorem distinctName_eq_candidate {i : Nat} (hfree : candidate name i ∉ taken)
    (hall : ∀ j < i, candidate name j ∈ taken) : distinctName name taken = candidate name i := by
  obtain ⟨k, heq, hk, hbefore⟩ := distinctName_candidate name taken
  obtain hlt | rfl | hlt := Nat.lt_trichotomy i k
  · exact absurd (hbefore i hlt) hfree
  · exact heq
  · exact absurd (hall k hlt) hk

theorem distinctName_congr {others : List String} (h : ∀ x, x ∈ taken ↔ x ∈ others) (name : String) :
    distinctName name taken = distinctName name others := by
  obtain ⟨i, heq, hfree, hall⟩ := distinctName_candidate name others
  rw [heq]
  exact distinctName_eq_candidate ((h _).not.mpr hfree) fun j hj => (h _).mpr (hall j hj)

/-! The loop over the suffixes of a name that is taken. -/

/-- After so many steps the loop stands at this suffix. A step goes past a suffix with which the name is
taken. -/
inductive Reaches (name : String) (taken : List String) : Nat → Nat → Prop
  | start : Reaches name taken 0 2
  | step {steps k : Nat} : Reaches name taken steps k → suffixed name k ∈ taken →
      Reaches name taken (steps + 1) (k + 1)

namespace Reaches
variable {steps k : Nat}

theorem suffix_eq (h : Reaches name taken steps k) : k = steps + 2 := by
  induction h with
  | start => rfl
  | step _ _ ih => rw [ih]

theorem passed (h : Reaches name taken steps k) :
    ∀ j, 2 ≤ j → j < k → suffixed name j ∈ taken := by
  induction h with
  | start => exact fun j hj hlt => absurd hlt (by omega)
  | step _ htaken ih =>
    intro j hj hlt
    cases Nat.lt_succ_iff_lt_or_eq.mp hlt with
    | inl hlt => exact ih j hj hlt
    | inr heq => exact heq ▸ htaken

theorem steps_lt (h : Reaches name taken steps k) (hname : name ∈ taken) :
    steps < taken.toFinset.card := by
  have hsub : (Finset.range (steps + 1)).image (candidate name) ⊆ taken.toFinset := by
    intro x hx
    obtain ⟨i, hi, rfl⟩ := Finset.mem_image.mp hx
    have hlt := Finset.mem_range.mp hi
    rw [List.mem_toFinset]
    cases i with
    | zero => exact hname
    | succ i =>
      have hsuffix := h.suffix_eq
      exact h.passed (i + 2) (Nat.le_add_left 2 i) (by omega)
  have hle := Finset.card_le_card hsub
  rwa [Finset.card_image_of_injective _ (candidate_injective name), Finset.card_range] at hle

theorem of_passed {steps : Nat} (h : ∀ j, 2 ≤ j → j < steps + 2 → suffixed name j ∈ taken) :
    Reaches name taken steps (steps + 2) := by
  induction steps with
  | zero => exact .start
  | succ steps ih =>
    have hbefore := ih fun j hj hlt => h j hj (Nat.lt_succ_of_lt hlt)
    exact hbefore.step (h (steps + 2) (Nat.le_add_left 2 steps) (Nat.lt_succ_self _))

end Reaches

/-- A name that is free stays. For one that is taken the loop makes fewer steps than there are taken
names, and it stops at the least suffix with which the name is free. -/
theorem least_free_suffix (name : String) (taken : List String) :
    distinctName name taken ∉ taken ∧
    ((name ∉ taken ∧ distinctName name taken = name) ∨
      (name ∈ taken ∧
        (∀ steps k, Reaches name taken steps k → steps < taken.toFinset.card) ∧
        ∃ steps k, Reaches name taken steps k ∧ distinctName name taken = suffixed name k ∧
          IsLeast {k | 2 ≤ k ∧ suffixed name k ∉ taken} k)) := by
  refine ⟨distinctName_not_mem name taken, ?_⟩
  obtain ⟨hfree, heq⟩ | ⟨htaken, k, hk, heq, hfree, hall⟩ := distinctName_cases name taken
  · exact .inl ⟨hfree, heq⟩
  · refine .inr ⟨htaken, fun steps k h => h.steps_lt htaken, ?_⟩
    obtain ⟨steps, rfl⟩ := Nat.exists_eq_add_of_le' hk
    refine ⟨steps, steps + 2, .of_passed hall, heq, ⟨hk, hfree⟩, ?_⟩
    rintro j ⟨hj, hjfree⟩
    by_contra hlt
    exact hjfree (hall j hj (Nat.lt_of_not_le hlt))

/-- What is taken behind the first free suffix does not matter. -/
example : distinctName "a" ["a_4", "b", "a_2", "a"] = "a_3" := by decide +kernel

end LocaleAccessors.Name
