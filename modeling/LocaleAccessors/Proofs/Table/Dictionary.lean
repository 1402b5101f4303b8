import LocaleAccessors.Proofs.Lists
import LocaleAccessors.Table.Entry
import Mathlib.Data.List.Induction

/-!
Assigning rows to an ordered dictionary keeps every key once, where it first came, with the value
that it was given last.
-/

namespace LocaleAccessors.Table
variable {α β : Type} [DecidableEq α]

/-- What the ordered dictionary of some rows is, said without assigning anything. -/
structure Assigned (rows : List (String × String)) (table : List Entry) : Prop where
  keys : table.map Entry.key = (rows.map Prod.fst).eraseDups
  last : ∀ e ∈ table, rows.reverse.lookup e.key = some e.value

theorem lookup_cons_ite (key k : α) (value : β) (table : List (α × β)) :
    ((key, value) :: table).lookup k = if k = key then some value else table.lookup k := by
  rw [List.lookup_cons]
  by_cases h : k = key
  · simp [h]
  · rw [beq_false_of_ne h, if_neg h]

theorem eraseDups_concat {α : Type} [BEq α] [LawfulBEq α] (as : List α) (a : α) :
    (as ++ [a]).eraseDups = if a ∈ as then as.eraseDups else as.eraseDups ++ [a] := by
  rw [List.eraseDups_append]
  by_cases h : a ∈ as <;> simp [List.removeAll, h, List.eraseDups_cons]

theorem nodup_eraseDups {α : Type} [BEq α] [LawfulBEq α] (as : List α) : as.eraseDups.Nodup := by
  induction as using List.reverseRecOn with
  | nil => exact List.nodup_nil
  | append_singleton as a ih =>
    rw [eraseDups_concat]
    split_ifs with h
    · exact ih
    · simpa [List.nodup_append, ih] using fun b hb => (ne_of_mem_of_not_mem hb h)

theorem keys_assign (key : α) (value : β) (table : List (α × β)) :
    (assign key value table).map Prod.fst =
      if key ∈ table.map Prod.fst then table.map Prod.fst else table.map Prod.fst ++ [key] := by
  induction table with
  | nil => rfl
  | cons row table ih =>
    obtain ⟨k, v⟩ := row
    by_cases h : k = key
    · simp [assign, h]
    · have hk : key ≠ k := Ne.symm h
      simp only [assign, if_neg h, List.map_cons, ih, List.mem_cons, hk, false_or]
      split_ifs <;> rfl

theorem lookup_assign (key k : α) (value : β) (table : List (α × β)) :
    (assign key value table).lookup k = if k = key then some value else table.lookup k := by
  induction table with
  | nil => simp [assign, lookup_cons_ite]
  | cons row table ih =>
    obtain ⟨l, v⟩ := row
    by_cases h : l = key
    · subst l
      simp only [assign, if_pos, lookup_cons_ite]
      split_ifs <;> rfl
    · simp only [assign, if_neg h, lookup_cons_ite, ih]
      by_cases hk : k = l
      · simp [hk, h]
      · simp [hk]

theorem assignAll_concat (rows : List (α × β)) (key : α) (value : β) :
    assignAll (rows ++ [(key, value)]) = assign key value (assignAll rows) := by
  simp [assignAll]

theorem keys_assignAll (rows : List (α × β)) :
    (assignAll rows).map Prod.fst = (rows.map Prod.fst).eraseDups := by
  induction rows using List.reverseRecOn with
  | nil => rfl
  | append_singleton rows row ih =>
    obtain ⟨key, value⟩ := row
    rw [assignAll_concat, keys_assign, ih, List.map_append, List.map_singleton, eraseDups_concat]
    simp only [List.mem_eraseDups]

theorem lookup_assignAll (rows : List (α × β)) (key : α) :
    (assignAll rows).lookup key = rows.reverse.lookup key := by
  induction rows using List.reverseRecOn with
  | nil => rfl
  | append_singleton rows row ih =>
    obtain ⟨k, value⟩ := row
    rw [assignAll_concat, lookup_assign, ih, List.reverse_concat, lookup_cons_ite]

section relabelling
variable {γ δ : Type} [DecidableEq γ]

theorem assign_map {f : α → γ} (hf : Function.Injective f) (g : β → δ) (key : α) (value : β)
    (table : List (α × β)) :
    assign (f key) (g value) (table.map (Prod.map f g)) =
      (assign key value table).map (Prod.map f g) := by
  induction table with
  | nil => rfl
  | cons row table ih =>
    obtain ⟨k, v⟩ := row
    simp only [List.map_cons, Prod.map_apply, assign, hf.eq_iff, ih]
    split_ifs <;> rfl

theorem assignAll_map {f : α → γ} (hf : Function.Injective f) (g : β → δ) (rows : List (α × β)) :
    assignAll (rows.map (Prod.map f g)) = (assignAll rows).map (Prod.map f g) := by
  induction rows using List.reverseRecOn with
  | nil => rfl
  | append_singleton rows row ih =>
    obtain ⟨key, value⟩ := row
    rw [List.map_append, List.map_singleton, Prod.map_apply, assignAll_concat, assignAll_concat, ih,
      assign_map hf]

end relabelling

theorem assigned_entries (rows : List (String × String)) : Assigned rows (entries rows) where
  keys := by
    rw [entries, List.map_map, ← keys_assignAll]
    rfl
  last := by
    intro e he
    obtain ⟨⟨key, value⟩, hmem, rfl⟩ := List.mem_map.mp he
    rw [← lookup_assignAll]
    refine lookup_of_mem ?_ hmem
    rw [keys_assignAll]
    exact nodup_eraseDups _

theorem Assigned.eq_map {rows : List (String × String)} {table : List Entry}
    (h : Assigned rows table) :
    table = (rows.map Prod.fst).eraseDups.map fun key =>
      ⟨key, (rows.reverse.lookup key).getD key⟩ := by
  rw [← h.keys, List.map_map]
  refine (List.map_id table).symm.trans (List.map_congr_left fun e he => ?_)
  simp [h.last e he]

theorem assigned_iff {rows : List (String × String)} {table : List Entry} :
    Assigned rows table ↔ table = entries rows :=
  ⟨fun h => h.eq_map.trans (assigned_entries rows).eq_map.symm, fun h => h ▸ assigned_entries rows⟩

end LocaleAccessors.Table
