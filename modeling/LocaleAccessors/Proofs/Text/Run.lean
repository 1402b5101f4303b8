import Mathlib.Data.List.TakeWhile

/-!
Runs of characters: what `takeWhile` and `dropWhile` find is the one way to cut a text behind the
longest run of a class.
-/

namespace LocaleAccessors.Text
variable {α : Type*} {p : α → Bool}

theorem takeWhile_run {run rest : List α} (hrun : ∀ c ∈ run, p c) (hrest : ∀ c ∈ rest.head?, ¬ p c) :
    (run ++ rest).takeWhile p = run := by
  rw [List.takeWhile_append_of_pos hrun]
  cases rest with
  | nil => simp
  | cons c rest => simp [hrest c (by simp)]

theorem dropWhile_run {run rest : List α} (hrun : ∀ c ∈ run, p c) (hrest : ∀ c ∈ rest.head?, ¬ p c) :
    (run ++ rest).dropWhile p = rest := by
  rw [List.dropWhile_append_of_pos hrun]
  cases rest with
  | nil => rfl
  | cons c rest => simp [hrest c (by simp)]

theorem forall_mem_of_all {P : α → Prop} [DecidablePred P] {cs : List α}
    (h : cs.all fun c => decide (P c)) : ∀ c ∈ cs, P c := by
  simpa using h

theorem not_of_head?_dropWhile (cs : List α) : ∀ c ∈ (cs.dropWhile p).head?, ¬ p c := by
  intro c hc
  have h := List.head?_dropWhile_not p cs
  rw [Option.mem_def.mp hc] at h
  simpa using h

end LocaleAccessors.Text
