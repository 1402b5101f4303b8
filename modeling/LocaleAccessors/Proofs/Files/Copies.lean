import LocaleAccessors.Proofs.Files.Aside

/-!
The copies of the targets. A target that is there has a copy with its bytes; where nothing is, there
is no copy, and the target is to be removed again.
-/

namespace LocaleAccessors.Files.Store
variable {targets : List Path} {s s' t : Store} {l m : Location}
  {added : List (Location × List UInt8)} {target : Path} {kept : Option Location}

/-- No place that may be tried for a file put aside is that of a target. -/
def Apart (s : Store) (targets : List Path) : Prop :=
  ∀ target ∈ targets, ¬ s.Tried targets (target.place s.working)

theorem Apart.of_keeps (h : s.Apart targets) (hs : Keeps s s') : s'.Apart targets := by
  intro target htarget htried
  rw [hs.working, hs.tried_iff] at htried
  exact h target htarget htried

theorem Apart.not_tried (h : s.Apart targets) (htarget : target ∈ targets)
    (hm : s.locate target = .ok m) : ¬ s.Tried targets m := by
  rw [place_of_locate hm]
  exact h target htarget

def Undoes (original s : Store) (target : Path) (kept : Option Location) : Prop :=
  ∀ m, original.locate target = .ok m → kept.bind s.file? = original.file? m

theorem copy_cases (s : Store) (source goal : Location) :
    (∃ bytes, s.file? source = some bytes ∧
      s.copy source goal = (s.put goal (.file bytes), none)) ∨
    ∃ t fault, s.copy source goal = (t, some fault) ∧
      (t = s ∨ ∃ part, t = s.put goal (.file part)) ∧
      ((s.file? source).isSome → s.refused? (.copy source goal) ≠ none) := by
  unfold copy
  split
  · next hnode => exact .inr ⟨s, _, rfl, .inl rfl, by simp [file?, hnode]⟩
  · next hnode => exact .inr ⟨s, _, rfl, .inl rfl, by simp [file?, hnode]⟩
  · next hnode _ => exact .inl ⟨_, file?_eq_some_iff.mpr hnode, rfl⟩
  · next hrefuses => exact .inr ⟨s, _, rfl, .inl rfl, by simp [refused?, hrefuses]⟩
  · next hrefuses => exact .inr ⟨_, _, rfl, .inr ⟨_, rfl⟩, by simp [refused?, hrefuses]⟩

theorem Aside.discard_copy (hl : s.node? l = none) (htried : s.Tried targets l)
    (ht : t = s.put l (.file []) ∨ ∃ part, t = (s.put l (.file [])).put l (.file part)) :
    Aside targets s (t.discard l) [] ∧ SameDirectories s (t.discard l) := by
  obtain rfl | ⟨part, rfl⟩ := ht
  · exact ⟨.discard_put hl htried, .discard_put hl⟩
  · rw [put_put]
    exact ⟨.discard_put hl htried, .discard_put hl⟩

/-- A target that is not there has no copy, and one that is a file gets one; otherwise nothing is left
of the attempt. -/
theorem keep_cases (htarget : target ∈ targets) (s : Store) :
    (s.keep target = (s, .ok none) ∧ ∀ m, s.locate target = .ok m → s.node? m = none) ∨
    (∃ l m bytes, s.keep target = (s.put l (.file bytes), .ok (some l)) ∧
      s.locate target = .ok m ∧ s.file? m = some bytes ∧ s.node? l = none ∧ s.Tried targets l) ∨
    ∃ t fault, s.keep target = (t, .error fault) ∧ Aside targets s t [] ∧ SameDirectories s t := by
  unfold keep
  cases hlook : s.look target with
  | error fault => exact .inr (.inr ⟨s, fault, rfl, .refl targets s, .refl s⟩)
  | ok found =>
    cases found with
    | none => exact .inl ⟨rfl, fun m hm => node?_of_look_none hlook hm⟩
    | some found =>
      obtain ⟨m, node⟩ := found
      obtain ⟨-, hm, hnode⟩ := look_eq_ok_some_iff.mp hlook
      cases hcreate : s.create target keptEnding with
      | error fault => exact .inr (.inr ⟨s, fault, rfl, .refl targets s, .refl s⟩)
      | ok result =>
        obtain ⟨u, l⟩ := result
        obtain ⟨rfl, hfree, htried⟩ := create_eq_ok htarget (by simp) hcreate
        dsimp only
        have hput : SameDirectories s (s.put l (.file [])) := .put_file (not_directory_of_free hfree)
        cases hclose : (s.put l (.file [])).refused? (.close l) with
        | some fault =>
          have hheld : s.Held l := .inl (by simp [← hput.keeps.refused?, hclose])
          exact .inr (.inr ⟨_, fault, rfl, .put_held hfree htried hheld, hput⟩)
        | none =>
          have hml : m ≠ l := by
            rintro rfl
            rw [hfree] at hnode
            cases hnode
          obtain ⟨bytes, hbytes, hcopy⟩ | ⟨t, fault, hcopy, ht, -⟩ :=
            copy_cases (s.put l (.file [])) m l
          · rw [file?_put (ne_nil_of_free hfree), if_neg hml] at hbytes
            rw [put_put] at hcopy
            simp only [hcopy]
            exact .inr (.inl ⟨l, m, bytes, rfl, hm, hbytes, hfree, htried⟩)
          · simp only [hcopy]
            obtain ⟨haside, hsame⟩ := Aside.discard_copy hfree htried ht
            exact .inr (.inr ⟨_, fault, rfl, haside, hsame⟩)

/-- What the copies of some targets are. Only they come to a store, and no directory. -/
structure Copied (targets : List Path) (s : Store) (chosen : List Path)
    (progress : Progress (Option Location)) : Prop where
  aside : ∃ added, Aside targets s progress.store added ∧
    added.map Prod.fst = progress.done.filterMap id
  same : SameDirectories s progress.store
  undoes : s.Apart targets → ∀ e ∈ chosen.zip progress.done, Undoes s progress.store e.1 e.2
  length : progress.fault = none → progress.done.length = chosen.length

theorem copied_keepAll {chosen : List Path} (hchosen : ∀ target ∈ chosen, target ∈ targets) (s : Store) :
    Copied targets s chosen (s.keepAll chosen) := by
  induction chosen generalizing s with
  | nil => exact ⟨⟨[], .refl targets s, rfl⟩, .refl s, fun _ => nofun, fun _ => rfl⟩
  | cons target chosen ih =>
    obtain ⟨htarget, hchosen⟩ := List.forall_mem_cons.mp hchosen
    obtain ⟨hkeep, hnone⟩ | ⟨l, m, bytes, hkeep, hm, hfile, hfree, htried⟩ |
      ⟨t, fault, hkeep, haside, hsame⟩ := keep_cases htarget s
    · have hrest := ih hchosen s
      simp only [keepAll, hkeep]
      refine ⟨?_, hrest.same, fun hapart => ?_, fun h => congrArg Nat.succ (hrest.length h)⟩
      · obtain ⟨added, haside, hplaces⟩ := hrest.aside
        exact ⟨added, haside, hplaces⟩
      · rw [List.zip_cons_cons, List.forall_mem_cons]
        refine ⟨fun m hm => ?_, hrest.undoes hapart⟩
        rw [file?_of_node?_none (hnone m hm)]
        rfl
    · have hrest := ih hchosen (s.put l (.file bytes))
      have hone : Aside targets s (s.put l (.file bytes)) [(l, bytes)] := .put_file hfree htried
      simp only [keepAll, hkeep]
      obtain ⟨added, haside, hplaces⟩ := hrest.aside
      have hboth := hone.trans haside
      refine ⟨⟨(l, bytes) :: added, hboth, ?_⟩,
        (SameDirectories.put_file (not_directory_of_free hfree)).trans hrest.same,
        fun hapart => ?_, fun h => congrArg Nat.succ (hrest.length h)⟩
      · simp [hplaces]
      · rw [List.zip_cons_cons, List.forall_mem_cons]
        refine ⟨fun m' hm' => ?_, fun e he m' hm' => ?_⟩
        · rw [hm] at hm'
          cases hm'
          rw [hfile]
          exact hboth.holds (l, bytes) List.mem_cons_self
        · have hne : m' ≠ l := by
            rintro rfl
            exact hapart.not_tried (hchosen e.1 (List.of_mem_zip he).1) hm' htried
          rw [hrest.undoes (hapart.of_keeps hone.keeps) e he m' (hone.keeps.locate hm'),
            file?_put (ne_nil_of_free hfree), if_neg hne]
    · simp only [keepAll, hkeep]
      exact ⟨⟨[], haside, rfl⟩, hsame, fun _ e he => by simp at he, nofun⟩

theorem keepSeveral_spec {chosen : List Path} (hchosen : ∀ target ∈ chosen, target ∈ targets)
    (s : Store) :
    (∃ added, Aside targets s (s.keepSeveral chosen).store added ∧
      added.map Prod.fst = (s.keepSeveral chosen).done.filterMap id) ∧
    SameDirectories s (s.keepSeveral chosen).store ∧
    (1 < chosen.length → s.Apart targets → ∀ e ∈ chosen.zip (s.keepSeveral chosen).done,
      Undoes s (s.keepSeveral chosen).store e.1 e.2) ∧
    ((s.keepSeveral chosen).fault = none →
      (s.keepSeveral chosen).done.length = chosen.length) := by
  unfold keepSeveral
  by_cases hseveral : 1 < chosen.length
  · rw [if_pos hseveral]
    have hcopied := copied_keepAll hchosen s
    exact ⟨hcopied.aside, hcopied.same, fun _ => hcopied.undoes, hcopied.length⟩
  · rw [if_neg hseveral]
    have hplaces : (chosen.map fun _ => (none : Option Location)).filterMap id = [] := by simp
    exact ⟨⟨[], .refl targets s, hplaces.symm⟩, .refl s, fun h => absurd h hseveral,
      fun _ => by simp⟩

end LocaleAccessors.Files.Store
