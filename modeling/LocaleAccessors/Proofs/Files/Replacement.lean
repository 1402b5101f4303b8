import LocaleAccessors.Proofs.Files.Copies

/-!
Staged files that take the places of their targets. If all of them do, every target holds the text
listed last for it; if one does not, the copies bring back what was replaced before it, as far as the
system lets them.
-/

namespace LocaleAccessors.Files.Store
variable {s s' t original : Store} {l m : Location} {target : Path} {staged : Location}
  {kept : Option Location} {bytes : List UInt8} {fault : PathFault}
  {aside : List Location} {move : Path × Location × Option Location}
  {moves : List (Path × Location × Option Location)}

theorem replace_eq_ok (hstaged : s.file? staged = some bytes)
    (h : s.replace target staged = .ok s') :
    ∃ m, s.locate target = .ok m ∧ s.node? m ≠ some .directory ∧ SameDirectories s s' ∧
      ∀ l, s'.file? l = if l = m then some bytes else if l = staged then none else s.file? l := by
  obtain ⟨m, hm, h⟩ := bind_eq_ok_iff.mp h
  rw [file?_eq_some_iff.mp hstaged] at h
  have hstill : s.node? staged ≠ some .directory := not_directory_of_file? hstaged
  have hremoved : SameDirectories s (s.remove staged) := .remove hstill
  split at h
  · cases h
  · cases h
  · cases h
  · next heq _ hdirectory =>
    cases heq
    cases h
    have hm' : (s.remove staged).node? m ≠ some .directory := by
      rw [Ne, hremoved.directory_iff]
      exact hdirectory
    refine ⟨m, hm, hdirectory, hremoved.trans (.put_file hm'), fun l => ?_⟩
    rw [file?_put (ne_nil_of_not_directory hdirectory),
      file?_remove (ne_nil_of_not_directory hstill)]

/-- The place of a target that the system refuses to bring back. -/
structure Unrestored (s : Store) (targets : List Path) (l : Location) : Prop where
  target : ∃ target ∈ targets, l = target.place s.working
  refused : s.refused? (.remove l) ≠ none ∨ ∃ kept, s.refused? (.copy kept l) ≠ none

theorem Unrestored.mono {targets more : List Path} (h : s.Unrestored targets l)
    (hmore : ∀ target ∈ targets, target ∈ more) : s.Unrestored more l := by
  obtain ⟨⟨target, htarget, hl⟩, hrefused⟩ := h
  exact ⟨⟨target, hmore target htarget, hl⟩, hrefused⟩

theorem Keeps.unrestored {targets : List Path} (h : Keeps s s') (hl : s'.Unrestored targets l) :
    s.Unrestored targets l where
  target := h.working ▸ hl.target
  refused := by
    obtain ⟨-, hrefused⟩ := hl
    simpa only [h.refused?] using hrefused

theorem restore_spec (hm : s.locate target = .ok m) (hdirectory : s.node? m ≠ some .directory)
    (hkept : ∀ p ∈ kept, (s.file? p).isSome) :
    SameDirectories s (s.restore target kept).1 ∧
      (∀ l ≠ m, (s.restore target kept).1.file? l = s.file? l) ∧
      ((s.restore target kept).1.file? m = kept.bind s.file? ∨ s.Unrestored [target] m) := by
  have hne := ne_nil_of_not_directory hdirectory
  have hplace : ∃ t ∈ [target], m = t.place s.working :=
    ⟨target, List.mem_singleton_self target, place_of_locate hm⟩
  unfold restore
  rw [hm]
  cases kept with
  | none =>
    cases hrefused : s.refused? (.remove m) with
    | some fault =>
      simp only [hrefused]
      exact ⟨.refl s, fun _ _ => trivial, .inr ⟨hplace, .inl (by simp [hrefused])⟩⟩
    | none =>
      simp only [hrefused]
      refine ⟨.remove hdirectory, fun l hl => ?_, .inl ?_⟩
      · rw [file?_remove hne, if_neg hl]
      · rw [file?_remove hne, if_pos rfl]
        rfl
  | some p =>
    obtain ⟨bytes, hbytes, hcopy⟩ | ⟨t, fault, hcopy, ht, hrefused⟩ := copy_cases s p m
    · simp only [hcopy]
      refine ⟨.put_file hdirectory, fun l hl => ?_, .inl ?_⟩
      · rw [file?_put hne, if_neg hl]
      · rw [file?_put hne, if_pos rfl]
        exact hbytes.symm
    · simp only [hcopy]
      have hnot : s.Unrestored [target] m := ⟨hplace, .inr ⟨p, hrefused (hkept p rfl)⟩⟩
      obtain rfl | ⟨part, rfl⟩ := ht
      · exact ⟨.refl t, fun _ _ => rfl, .inr hnot⟩
      · refine ⟨.put_file hdirectory, fun l hl => ?_, .inr hnot⟩
        rw [file?_put hne, if_neg hl]

/-- Files that are staged and copies, all at places of their own, away from the targets. -/
structure Ready (aside : List Location) (s : Store)
    (moves : List (Path × Location × Option Location)) : Prop where
  apart : ∀ move ∈ moves, ∀ m, s.locate move.1 = .ok m → m ∉ aside
  staged : ∀ move ∈ moves, move.2.1 ∈ aside ∧ (s.file? move.2.1).isSome
  kept : ∀ move ∈ moves, ∀ p ∈ move.2.2, p ∈ aside ∧ (s.file? p).isSome
  distinct : (moves.map (·.2.1)).Nodup
  disjoint : ∀ move ∈ moves, ∀ other ∈ moves, ∀ p ∈ other.2.2, move.2.1 ≠ p

namespace Ready

theorem replace_head (h : Ready aside s (move :: moves))
    (hreplaced : s.replace move.1 move.2.1 = .ok s') :
    ∃ m, s.locate move.1 = .ok m ∧ s.node? m ≠ some .directory ∧ m ∉ aside ∧
      SameDirectories s s' ∧ s'.file? m = s.file? move.2.1 ∧
      ∀ l, l ≠ move.2.1 → l ≠ m → s'.file? l = s.file? l := by
  obtain ⟨hplace, hsome⟩ := h.staged move List.mem_cons_self
  obtain ⟨bytes, hbytes⟩ := Option.isSome_iff_exists.mp hsome
  obtain ⟨m, hm, hdirectory, hsame, hfile⟩ := replace_eq_ok hbytes hreplaced
  have hapart : m ∉ aside := h.apart move List.mem_cons_self m hm
  refine ⟨m, hm, hdirectory, hapart, hsame, ?_, fun l hl hlm => ?_⟩
  · rw [hfile, if_pos rfl, hbytes]
  · rw [hfile, if_neg hlm, if_neg hl]

theorem staged_ne (h : Ready aside s (move :: moves)) :
    ∀ other ∈ moves, other.2.1 ≠ move.2.1 := by
  intro other hother heq
  have hmem : other.2.1 ∈ moves.map (·.2.1) := List.mem_map_of_mem hother
  rw [heq] at hmem
  exact (List.nodup_cons.mp h.distinct).1 hmem

theorem file?_staged (h : Ready aside s (move :: moves))
    (hreplaced : s.replace move.1 move.2.1 = .ok s') :
    ∀ other ∈ moves, s'.file? other.2.1 = s.file? other.2.1 := by
  obtain ⟨m, -, -, hm, -, -, hfile⟩ := h.replace_head hreplaced
  intro other hother
  have hplace := (h.staged other (List.mem_cons_of_mem move hother)).1
  exact hfile _ (h.staged_ne other hother) (ne_of_mem_of_not_mem hplace hm)

theorem file?_kept (h : Ready aside s (move :: moves))
    (hreplaced : s.replace move.1 move.2.1 = .ok s') :
    ∀ other ∈ move :: moves, ∀ p ∈ other.2.2, s'.file? p = s.file? p := by
  obtain ⟨m, -, -, hm, -, -, hfile⟩ := h.replace_head hreplaced
  intro other hother p hp
  have hne := h.disjoint move List.mem_cons_self other hother p hp
  exact hfile p hne.symm (ne_of_mem_of_not_mem (h.kept other hother p hp).1 hm)

theorem tail (h : Ready aside s (move :: moves)) (hreplaced : s.replace move.1 move.2.1 = .ok s') :
    Ready aside s' moves := by
  obtain ⟨m, -, -, -, hsame, -, -⟩ := h.replace_head hreplaced
  refine ⟨?_, ?_, ?_, ?_, ?_⟩
  · intro other hother l hl
    exact h.apart other (List.mem_cons_of_mem move hother) l (hsame.locate_iff.mp hl)
  · intro other hother
    rw [h.file?_staged hreplaced other hother]
    exact h.staged other (List.mem_cons_of_mem move hother)
  · intro other hother p hp
    have hmem := List.mem_cons_of_mem move hother
    rw [h.file?_kept hreplaced other hmem p hp]
    exact h.kept other hmem p hp
  · exact (List.nodup_cons.mp h.distinct).2
  · intro e he other hother
    exact h.disjoint e (List.mem_cons_of_mem move he) other (List.mem_cons_of_mem move hother)

end Ready

/-- From `s` to `s'` everything that was as in `original` is so again, unless the system refuses it, and
of what was put aside only the staged files of the moves may be missing. -/
structure BroughtBack (aside : List Location) (original s s' : Store)
    (moves : List (Path × Location × Option Location)) : Prop where
  same : SameDirectories s s'
  back : ∀ l ∉ aside, s.file? l = original.file? l →
    s'.file? l = original.file? l ∨ original.Unrestored (moves.map Prod.fst) l
  others : ∀ p ∈ aside, p ∉ moves.map (·.2.1) → s'.file? p = s.file? p

theorem BroughtBack.refl (aside : List Location) (original s : Store)
    (moves : List (Path × Location × Option Location)) : BroughtBack aside original s s moves :=
  ⟨.refl s, fun _ _ hl => .inl hl, fun _ _ _ => rfl⟩

namespace Ready

/-- When the moves after a replacement have been brought back, its own copy is still there, and to
restore the target from it brings back the rest. -/
theorem restore_head {u : Store} (h : Ready aside s (move :: moves))
    (hsame : SameDirectories original s) (hundo : Undoes original s move.1 move.2.2)
    (hreplaced : s.replace move.1 move.2.1 = .ok t) (hback : BroughtBack aside original t u moves) :
    BroughtBack aside original s (u.restore move.1 move.2.2).1 (move :: moves) := by
  obtain ⟨m, hm, hdirectory, hapart, hst, -, hfile⟩ := h.replace_head hreplaced
  have hsu := hst.trans hback.same
  have hcopy : ∀ p ∈ move.2.2, u.file? p = s.file? p := by
    intro p hp
    -- Later moves took only what was staged for them, and that is no copy.
    rw [← h.file?_kept hreplaced move List.mem_cons_self p hp]
    refine hback.others p (h.kept move List.mem_cons_self p hp).1 fun hmem => ?_
    obtain ⟨other, hother, heq⟩ := List.mem_map.mp hmem
    exact h.disjoint other (List.mem_cons_of_mem _ hother) move List.mem_cons_self p hp heq
  have hsome : ∀ p ∈ move.2.2, (u.file? p).isSome := by
    intro p hp
    rw [hcopy p hp]
    exact (h.kept move List.mem_cons_self p hp).2
  have hudirectory : u.node? m ≠ some .directory := by rwa [Ne, hsu.directory_iff]
  obtain ⟨hrestored, hothers, htarget⟩ := restore_spec (hsu.locate_iff.mpr hm) hudirectory hsome
  refine ⟨hsu.trans hrestored, fun l hl hlo => ?_, fun p hp hnot => ?_⟩
  · by_cases hlm : l = m
    · subst hlm
      rw [Option.bind_congr hcopy, hundo l (hsame.locate_iff.mp hm)] at htarget
      refine htarget.imp_right fun hrefused => ?_
      exact ((hsame.trans hsu).keeps.unrestored hrefused).mono (by simp)
    · have hls : l ≠ move.2.1 :=
        (ne_of_mem_of_not_mem (h.staged move List.mem_cons_self).1 hl).symm
      rw [hothers l hlm]
      have hbefore := hback.back l hl (by rw [hfile l hls hlm, hlo])
      exact hbefore.imp_right (·.mono fun _ hmem => List.mem_cons_of_mem _ hmem)
  · rw [List.map_cons, List.mem_cons, not_or] at hnot
    have hpm : p ≠ m := ne_of_mem_of_not_mem hp hapart
    rw [hothers p hpm, hback.others p hp hnot.2, hfile p hnot.1 hpm]

end Ready

theorem replaceAll_of_error (hreplaced : s.replace move.1 move.2.1 = .error fault) :
    s.replaceAll (move :: moves) = ⟨s, 0, [], some fault⟩ := by
  obtain ⟨target, staged, kept⟩ := move
  simp only [replaceAll, hreplaced]

theorem replaceAll_of_ok (hreplaced : s.replace move.1 move.2.1 = .ok t)
    (moves : List (Path × Location × Option Location)) :
    (s.replaceAll (move :: moves)).fault = (t.replaceAll moves).fault ∧
      (s.replaceAll (move :: moves)).replaced = (t.replaceAll moves).replaced + 1 ∧
      (s.replaceAll (move :: moves)).store =
        if (t.replaceAll moves).fault = none then (t.replaceAll moves).store
        else ((t.replaceAll moves).store.restore move.1 move.2.2).1 := by
  obtain ⟨target, staged, kept⟩ := move
  simp only [replaceAll, hreplaced]
  cases (t.replaceAll moves).fault <;> simp

theorem store_replaceAll (h : (s.replaceAll moves).replaced = 0) :
    (s.replaceAll moves).store = s := by
  cases moves with
  | nil => rfl
  | cons move moves =>
    cases hreplaced : s.replace move.1 move.2.1 with
    | error fault => rw [replaceAll_of_error hreplaced]
    | ok t =>
      rw [(replaceAll_of_ok hreplaced moves).2.1] at h
      cases h

theorem replaced_lt_of_fault (h : (s.replaceAll moves).fault ≠ none) :
    (s.replaceAll moves).replaced < moves.length := by
  induction moves generalizing s with
  | nil => exact absurd rfl h
  | cons move moves ih =>
    cases hreplaced : s.replace move.1 move.2.1 with
    | error fault =>
      rw [replaceAll_of_error hreplaced]
      exact Nat.zero_lt_succ _
    | ok t =>
      obtain ⟨hfault, hcount, -⟩ := replaceAll_of_ok hreplaced moves
      rw [hcount]
      exact Nat.succ_lt_succ (ih (hfault ▸ h))

theorem Ready.of_error (h : Ready aside s moves) (hsame : SameDirectories original s)
    (hundo : ∀ move ∈ moves, Undoes original s move.1 move.2.2)
    (hrun : (s.replaceAll moves).fault ≠ none) :
    BroughtBack aside original s (s.replaceAll moves).store moves := by
  induction moves generalizing s with
  | nil => exact absurd rfl hrun
  | cons move moves ih =>
    cases hreplaced : s.replace move.1 move.2.1 with
    | error fault =>
      rw [replaceAll_of_error hreplaced]
      exact .refl aside original s _
    | ok t =>
      obtain ⟨hfault, -, hstore⟩ := replaceAll_of_ok hreplaced moves
      rw [hfault] at hrun
      rw [hstore, if_neg hrun]
      obtain ⟨hundohead, hundotail⟩ := List.forall_mem_cons.mp hundo
      have hst : SameDirectories s t := by
        obtain ⟨m, -, -, -, hst, -, -⟩ := h.replace_head hreplaced
        exact hst
      have hundot : ∀ other ∈ moves, Undoes original t other.1 other.2.2 := by
        intro other hother l hl
        rw [← hundotail other hother l hl]
        exact Option.bind_congr (h.file?_kept hreplaced other (List.mem_cons_of_mem _ hother))
      -- The later moves have undone themselves by then.
      exact h.restore_head hsame hundohead hreplaced
        (ih (h.tail hreplaced) (hsame.trans hst) hundot hrun)

/-- The text listed last for a place. -/
def lastText (s : Store) : List (Path × String) → Location → Option String
  | [], _ => none
  | (target, text) :: rest, l =>
    (s.lastText rest l).or (if s.locate target = .ok l then some text else none)

theorem lastText_eq_none {files : List (Path × String)} (h : ∀ f ∈ files, s.locate f.1 ≠ .ok l) :
    s.lastText files l = none := by
  induction files with
  | nil => rfl
  | cons f files ih =>
    obtain ⟨hf, hfiles⟩ := List.forall_mem_cons.mp h
    rw [lastText, ih hfiles, if_neg hf]
    rfl

theorem exists_lastText {files : List (Path × String)} {f : Path × String} (hf : f ∈ files)
    (hl : s.locate f.1 = .ok l) : ∃ text, s.lastText files l = some text := by
  induction files with
  | nil => cases hf
  | cons first files ih =>
    rw [lastText]
    cases hrest : s.lastText files l with
    | some text => exact ⟨text, rfl⟩
    | none =>
      rcases List.mem_cons.mp hf with rfl | hf
      · exact ⟨f.2, by rw [if_pos hl, Option.none_or]⟩
      · obtain ⟨text, htext⟩ := ih hf
        cases hrest.symm.trans htext

theorem SameDirectories.lastText_eq (h : SameDirectories s s') (files : List (Path × String))
    (l : Location) : s'.lastText files l = s.lastText files l := by
  induction files with
  | nil => rfl
  | cons f files ih =>
    rw [lastText, lastText, ih]
    simp only [h.locate_iff]

theorem Ready.of_ok {files : List (Path × String)} (h : Ready aside s moves)
    (htargets : moves.map Prod.fst = files.map Prod.fst)
    (htexts : (moves.map fun move => s.file? move.2.1) =
      files.map fun f => some (Text.Utf8.encode f.2))
    (hrun : (s.replaceAll moves).fault = none) :
    SameDirectories s (s.replaceAll moves).store ∧
      (∀ f ∈ files, ∃ m, (s.replaceAll moves).store.locate f.1 = .ok m ∧ m ∉ aside) ∧
      ∀ l ∉ aside, (s.replaceAll moves).store.file? l =
        (((s.replaceAll moves).store.lastText files l).map Text.Utf8.encode).or (s.file? l) := by
  induction moves generalizing s files with
  | nil =>
    obtain rfl := List.map_eq_nil_iff.mp htargets.symm
    exact ⟨.refl _, nofun, fun l _ => rfl⟩
  | cons move moves ih =>
    obtain ⟨f, files, rfl⟩ := List.exists_cons_of_ne_nil fun hnil : files = [] => by
      simp [hnil] at htargets
    obtain ⟨hf, htargets⟩ := List.cons.inj htargets
    obtain ⟨hbytes, htexts⟩ := List.cons.inj htexts
    cases hreplaced : s.replace move.1 move.2.1 with
    | error fault =>
      rw [replaceAll_of_error hreplaced] at hrun
      cases hrun
    | ok t =>
      obtain ⟨hfault, -, hstore⟩ := replaceAll_of_ok hreplaced moves
      rw [hfault] at hrun
      rw [hstore, if_pos hrun]
      obtain ⟨m, hm, -, hapart, hst, hnew, hfile⟩ := h.replace_head hreplaced
      have hnew : t.file? m = some (Text.Utf8.encode f.2) := hnew.trans hbytes
      have htextst : (moves.map fun move => t.file? move.2.1) =
          files.map fun f => some (Text.Utf8.encode f.2) := by
        rw [← htexts]
        exact List.map_congr_left (h.file?_staged hreplaced)
      obtain ⟨hts, hall, hfiles⟩ := ih (h.tail hreplaced) htargets htextst hrun
      generalize (t.replaceAll moves).store = s' at hts hall hfiles ⊢
      have hsame := hst.trans hts
      have hlocated : s'.locate f.1 = .ok m := by
        rw [← hf]
        exact hsame.locate_iff.mpr hm
      refine ⟨hsame, List.forall_mem_cons.mpr ⟨⟨m, hlocated, hapart⟩, hall⟩, fun l hl => ?_⟩
      rw [hfiles l hl, lastText, hlocated, Option.map_or, Option.or_assoc]
      congr 1
      by_cases hlm : m = l
      · subst hlm
        rw [hnew]
        simp
      · have hls : l ≠ move.2.1 :=
          (ne_of_mem_of_not_mem (h.staged _ List.mem_cons_self).1 hl).symm
        rw [hfile l hls (Ne.symm hlm)]
        simp [hlm]

end LocaleAccessors.Files.Store
