import LocaleAccessors.Name.Identifier
import LocaleAccessors.Proofs.Lists
import LocaleAccessors.Proofs.Text.Numeral
import LocaleAccessors.Proofs.Text.Run

/-!
The names that a suffix makes distinct. The suffix that is found is the least one with which the
name is free, and there always is one.
-/

namespace LocaleAccessors.Name
open Text (takeWhile_run toString_injective isDigit_of_mem_toString)
variable {name : String} {taken : List String}

theorem suffixed_inj {a b : String} {j k : Nat} (h : suffixed a j = suffixed b k) :
    a = b ∧ j = k := by
  have hlist : (toString j).toList.reverse ++ '_' :: a.toList.reverse =
      (toString k).toList.reverse ++ '_' :: b.toList.reverse := by
    have hreversed := congrArg (List.reverse ∘ String.toList) h
    simpa [suffixed] using hreversed
  have hdigits (n : Nat) : ∀ c ∈ (toString n).toList.reverse, c.isDigit := by
    intro c hc
    exact isDigit_of_mem_toString (List.mem_reverse.mp hc)
  have hunderscore (cs : List Char) : ∀ c ∈ ('_' :: cs).head?, ¬ c.isDigit := by
    simp [Char.isDigit]
  have hrun := congrArg (List.takeWhile Char.isDigit) hlist
  rw [takeWhile_run (hdigits j) (hunderscore _), takeWhile_run (hdigits k) (hunderscore _)] at hrun
  rw [hrun] at hlist
  have hname := (List.cons.inj (List.append_cancel_left hlist)).2
  exact ⟨String.toList_inj.mp (List.reverse_injective hname),
    toString_injective (String.toList_inj.mp (List.reverse_injective hrun))⟩

theorem suffixed_injective (name : String) : Function.Injective (suffixed name) :=
  fun _ _ h => (suffixed_inj h).2

theorem firstFree_of_free {i : Nat} {tries start : Nat} (hi : i ≤ tries)
    (hfree : suffixed name (start + i) ∉ taken) :
    ∃ k, start ≤ k ∧ firstFree name taken tries start = suffixed name k ∧
      suffixed name k ∉ taken ∧ ∀ j, start ≤ j → j < k → suffixed name j ∈ taken := by
  induction tries generalizing start i with
  | zero =>
    obtain rfl := Nat.le_zero.mp hi
    exact ⟨start, Nat.le_refl start, rfl, hfree, fun j hj hlt => absurd hlt (by omega)⟩
  | succ tries ih =>
    by_cases htaken : suffixed name start ∈ taken
    · cases i with
      | zero => exact absurd htaken hfree
      | succ i =>
        have hnext : suffixed name (start + 1 + i) ∉ taken := by
          rwa [Nat.add_assoc, Nat.add_comm 1 i]
        obtain ⟨k, hk, heq, hnot, hall⟩ := ih (Nat.le_of_succ_le_succ hi) hnext
        refine ⟨k, by omega, ?_, hnot, fun j hj hlt => ?_⟩
        · rw [firstFree, if_pos htaken, heq]
        · by_cases hjs : j = start
          · exact hjs ▸ htaken
          · exact hall j (by omega) hlt
    · refine ⟨start, Nat.le_refl start, ?_, htaken, fun j hj hlt => absurd hlt (by omega)⟩
      rw [firstFree, if_neg htaken]

/-- A name that is free stays; one that is taken gets the least suffix from 2 on that is free. -/
theorem distinctName_cases (name : String) (taken : List String) :
    (name ∉ taken ∧ distinctName name taken = name) ∨
    (name ∈ taken ∧ ∃ k, 2 ≤ k ∧ distinctName name taken = suffixed name k ∧
      suffixed name k ∉ taken ∧ ∀ j, 2 ≤ j → j < k → suffixed name j ∈ taken) := by
  by_cases h : name ∈ taken
  · obtain ⟨i, hi, hfree⟩ := exists_not_mem_of_injective (suffixed_injective name) taken 2
    refine .inr ⟨h, ?_⟩
    rw [distinctName, if_pos h]
    exact firstFree_of_free hi hfree
  · refine .inl ⟨h, ?_⟩
    rw [distinctName, if_neg h]

theorem distinctName_not_mem (name : String) (taken : List String) :
    distinctName name taken ∉ taken := by
  obtain ⟨h, heq⟩ | ⟨-, k, -, heq, h, -⟩ := distinctName_cases name taken
  · rwa [heq]
  · rwa [heq]

end LocaleAccessors.Name
