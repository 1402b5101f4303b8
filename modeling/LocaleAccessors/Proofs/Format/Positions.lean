import LocaleAccessors.Format.Slot
import LocaleAccessors.Proofs.Result
import LocaleAccessors.Proofs.Table.Dictionary
import Mathlib.Data.List.Sort

/-!
Positions without a gap. An ascending list of positive numbers leaves none out just when its length
is its last number, and then the slots are read from the map in order.
-/

namespace LocaleAccessors.Format

theorem range'_of_ascending {ks : List Nat} {start last : Nat} (h : ks.Pairwise (· < ·))
    (hge : ∀ k ∈ ks, start ≤ k) (hlast : ks.getLast? = some last) :
    start + ks.length ≤ last + 1 ∧
      (start + ks.length = last + 1 → ks = List.range' start ks.length) := by
  induction ks generalizing start with
  | nil => cases hlast
  | cons k ks ih =>
    obtain ⟨hfirst, hks⟩ := List.pairwise_cons.mp h
    have hk : start ≤ k := hge k List.mem_cons_self
    cases hcs : ks with
    | nil =>
      subst hcs
      cases hlast
      refine ⟨by simpa using hk, fun heq => ?_⟩
      have hstart : start = k := by simpa using heq
      rw [hstart]
      rfl
    | cons m rest =>
      rw [← hcs]
      have hlast' : ks.getLast? = some last := by
        rw [hcs] at hlast ⊢
        rwa [List.getLast?_cons_cons] at hlast
      obtain ⟨hle, hrange⟩ := ih hks (fun m hm => hfirst m hm) hlast'
      rw [List.length_cons]
      refine ⟨by omega, fun heq => ?_⟩
      have hstart : start = k := by omega
      rw [hstart, List.range'_succ, ← hrange (by omega)]

theorem length_eq_last_iff {ks : List Nat} (h : ks.Pairwise (· < ·)) (hpos : ∀ k ∈ ks, 1 ≤ k) :
    ks.length = ks.getLast?.getD 0 ↔ ks = List.range' 1 ks.length := by
  cases hlast : ks.getLast? with
  | none =>
    rw [List.getLast?_eq_none_iff] at hlast
    simp [hlast]
  | some last =>
    rw [Option.getD_some]
    constructor
    · intro heq
      exact (range'_of_ascending h hpos hlast).2 (by omega)
    · intro heq
      rw [heq, List.getLast?_range'] at hlast
      split_ifs at hlast with hzero
      cases hlast
      omega

theorem le_last_of_ascending {ks : List Nat} {last : Nat} (h : ks.Pairwise (· < ·))
    (hlast : ks.getLast? = some last) : last ∈ ks ∧ ∀ k ∈ ks, k ≤ last := by
  obtain ⟨front, rfl⟩ := List.getLast?_eq_some_iff.mp hlast
  obtain ⟨-, -, hfront⟩ := List.pairwise_append.mp h
  refine ⟨by simp, fun k hk => ?_⟩
  cases List.mem_append.mp hk with
  | inl hk => exact (hfront k hk last List.mem_cons_self).le
  | inr hk => exact (List.mem_singleton.mp hk).le

theorem exists_lt_of_mem_firstGaps {limit expected m : Nat} {ks : List Nat}
    (h : m ∈ firstGaps limit expected ks) : ∃ k ∈ ks, m < k := by
  induction ks generalizing limit expected with
  | nil => cases h
  | cons k ks ih =>
    cases List.mem_append.mp h with
    | inl hhere =>
      rw [List.mem_range'_1] at hhere
      exact ⟨k, List.mem_cons_self, by omega⟩
    | inr hmore =>
      obtain ⟨j, hj, hlt⟩ := ih hmore
      exact ⟨j, List.mem_cons_of_mem k hj, hlt⟩

theorem SlotMap.dense_cases {slots : SlotMap} (h : (slots.map Prod.fst).Pairwise (· < ·))
    (hpos : ∀ p ∈ slots.map Prod.fst, 1 ≤ p) :
    (slots.map Prod.fst = List.range' 1 slots.length ∧ slots.dense = .ok (slots.map Prod.snd)) ∨
    (slots.map Prod.fst ≠ List.range' 1 slots.length ∧
      slots.dense = .error (.sparse (firstGaps Fault.maxListed 1 (slots.map Prod.fst))
        ((slots.map Prod.fst).getLast?.getD 0 - slots.length))) := by
  have hiff := length_eq_last_iff h hpos
  rw [List.length_map] at hiff
  by_cases hlength : slots.length = (slots.map Prod.fst).getLast?.getD 0
  · have hrange := hiff.mp hlength
    refine .inl ⟨hrange, ?_⟩
    unfold dense
    simp only
    rw [if_pos hlength, ← hlength, ← hrange]
    refine mapM_map_eq_ok slots fun e he => ?_
    have hlookup : slots.lookup e.1 = some e.2 :=
      lookup_of_mem (h.imp Nat.ne_of_lt) he
    rw [hlookup]
  · refine .inr ⟨fun hrange => hlength (hiff.mpr hrange), ?_⟩
    unfold dense
    simp only
    rw [if_neg hlength]

theorem positions_eq_range'_iff {ks : List Nat} (h : ks.Pairwise (· < ·)) {n : Nat} :
    ks = List.range' 1 n ↔ ∀ p, p ∈ ks ↔ 1 ≤ p ∧ p ≤ n := by
  constructor
  · rintro rfl p
    rw [List.mem_range'_1]
    omega
  · intro hmem
    refine h.eq_of_mem_iff (List.pairwise_lt_range' 1) fun p => ?_
    rw [hmem, List.mem_range'_1]
    omega

end LocaleAccessors.Format
