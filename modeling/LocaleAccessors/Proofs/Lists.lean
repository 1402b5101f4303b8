import Mathlib.Data.List.Nodup
import Mathlib.Data.List.Perm.Subperm

/-!
Lists without repetitions: a sequence without them leaves every list within as many steps as the list is
long, and a table without them gives each key the value beside it.
-/

namespace LocaleAccessors
variable {α β : Type*}

theorem exists_not_mem_of_injective {f : Nat → α} (hf : Function.Injective f) (xs : List α)
    (start : Nat) : ∃ i ≤ xs.length, f (start + i) ∉ xs := by
  by_contra hall
  have hmem : ∀ i ≤ xs.length, f (start + i) ∈ xs := by
    intro i hi
    by_contra hnot
    exact hall ⟨i, hi, hnot⟩
  have hnodup : ((List.range (xs.length + 1)).map fun i => f (start + i)).Nodup := by
    refine List.nodup_range.map fun i j hij => ?_
    exact Nat.add_left_cancel (hf hij)
  have hsub : (List.range (xs.length + 1)).map (fun i => f (start + i)) ⊆ xs := by
    intro a ha
    obtain ⟨i, hi, rfl⟩ := List.mem_map.mp ha
    exact hmem i (Nat.lt_succ_iff.mp (List.mem_range.mp hi))
  have hle := (List.subperm_of_subset hnodup hsub).length_le
  rw [List.length_map, List.length_range] at hle
  omega

theorem lookup_of_mem [BEq α] [LawfulBEq α] {table : List (α × β)}
    (hnodup : (table.map Prod.fst).Nodup) {key : α} {value : β} (h : (key, value) ∈ table) :
    table.lookup key = some value := by
  obtain ⟨before, after, rfl⟩ := List.append_of_mem h
  refine List.lookup_eq_some_iff.mpr ⟨before, after, rfl, fun p hp => bne_iff_ne.mpr ?_⟩
  rw [List.map_append, List.nodup_append] at hnodup
  exact (hnodup.2.2 p.1 (List.mem_map_of_mem hp) key List.mem_cons_self).symm

end LocaleAccessors
