import LocaleAccessors.Proofs.Files.Replacement

/-!
Files that are put aside for a run of replacements. Once the run has ended and they are discarded,
either every target holds the text listed last for it or no regular file differs, but for what the
system does not let be removed or restored.
-/

namespace LocaleAccessors.Files.Store
variable {targets : List Path} {s s' t u : Store} {l m : Location}
  {added : List (Location × List UInt8)} {places : List Location}
  {files : List (Path × String)}

theorem mem_zip_of_mem_zip {α β γ : Type} {as : List α} {bs : List β} {cs : List γ} {a : α} {b : β}
    {c : γ} (h : (a, b, c) ∈ as.zip (bs.zip cs)) : (a, c) ∈ as.zip cs := by
  induction as generalizing bs cs with
  | nil => cases h
  | cons first as ih =>
    cases bs with
    | nil => cases h
    | cons _ bs =>
      cases cs with
      | nil => cases h
      | cons _ cs =>
        rw [List.zip_cons_cons, List.zip_cons_cons] at h
        cases h with
        | head => exact List.mem_cons_self
        | tail _ h => exact List.mem_cons_of_mem _ (ih h)

theorem held_discard : (s.discard l).Held m ↔ s.Held m := by
  obtain heq | ⟨heq, -⟩ := s.discard_cases l
  · rw [heq]
    rfl
  · rw [heq]

theorem file?_discardAll_of_not_mem (hne : ∀ l ∈ places, l ≠ []) (hm : m ∉ places) :
    (s.discardAll places).file? m = s.file? m := by
  induction places generalizing s with
  | nil => rfl
  | cons l places ih =>
    obtain ⟨hl, hplaces⟩ := List.forall_mem_cons.mp hne
    rw [List.mem_cons, not_or] at hm
    rw [discardAll, List.foldl_cons, ← discardAll, ih hplaces hm.2, file?_discard_of_ne hl hm.1]

theorem file?_discardAll_of_mem (hne : ∀ l ∈ places, l ≠ []) (hm : m ∈ places) :
    (s.discardAll places).file? m = none ∨ s.Held m := by
  induction places generalizing s with
  | nil => cases hm
  | cons l places ih =>
    obtain ⟨hl, hplaces⟩ := List.forall_mem_cons.mp hne
    rw [discardAll, List.foldl_cons, ← discardAll]
    by_cases hrest : m ∈ places
    · exact (ih hplaces hrest).imp_right held_discard.mp
    · obtain rfl := (List.mem_cons.mp hm).resolve_right hrest
      rw [file?_discardAll_of_not_mem hplaces hrest]
      exact file?_discard hl

theorem SameDirectories.discardAll (h : ∀ l ∈ places, s.node? l ≠ some .directory) :
    SameDirectories s (s.discardAll places) := by
  induction places generalizing s with
  | nil => exact .refl s
  | cons l places ih =>
    obtain ⟨hl, hplaces⟩ := List.forall_mem_cons.mp h
    have hone : SameDirectories s (s.discard l) := .discard hl
    rw [Store.discardAll, List.foldl_cons, ← Store.discardAll]
    refine hone.trans (ih fun m hm => ?_)
    rw [Ne, hone.directory_iff]
    exact hplaces m hm

theorem Aside.ne_nil (h : Aside targets s s' added) (hl : l ∈ added.map Prod.fst) : l ≠ [] :=
  ne_nil_of_free (h.free l hl)

theorem Aside.not_directory (h : Aside targets s s' added) (hl : l ∈ added.map Prod.fst) :
    s'.node? l ≠ some .directory := by
  obtain ⟨bytes, hbytes⟩ := h.exists_file hl
  exact not_directory_of_file? hbytes

/-- All regular files are as they were, but for those left behind. -/
def SameFiles (targets : List Path) (s s' : Store) : Prop :=
  ∀ l, s'.file? l = s.file? l ∨ s.Left targets l

theorem SameFiles.refl (targets : List Path) (s : Store) : SameFiles targets s s :=
  fun _ => .inl rfl

theorem Aside.discarded (h : Aside targets s s' added) (hs : Keeps s' t) (l : Location) :
    (t.discardAll (added.map Prod.fst)).file? l = s.file? l ∨ s.Left targets l ∨
      l ∉ added.map Prod.fst ∧ s'.file? l = s.file? l ∧
        (t.discardAll (added.map Prod.fst)).file? l = t.file? l := by
  have hne : ∀ l ∈ added.map Prod.fst, l ≠ [] := fun _ hl => h.ne_nil hl
  by_cases hl : l ∈ added.map Prod.fst
  · rw [file?_of_node?_none (h.free l hl)]
    obtain hnone | hheld := file?_discardAll_of_mem (s := t) hne hl
    · exact .inl hnone
    · have hkeeps := h.keeps.trans hs
      exact .inr (.inl ⟨h.free l hl, h.tried l hl, hkeeps.held_iff.mp hheld⟩)
  · obtain hsame | hleft := h.others l hl
    · exact .inr (.inr ⟨hl, hsame, file?_discardAll_of_not_mem hne hl⟩)
    · exact .inr (.inl hleft)

theorem Aside.sameFiles (h : Aside targets s s' added) :
    SameFiles targets s (s'.discardAll (added.map Prod.fst)) := by
  intro l
  obtain hsame | hleft | ⟨-, hsame, heq⟩ := h.discarded (.refl s') l
  · exact .inl hsame
  · exact .inr hleft
  · exact .inl (heq.trans hsame)

/-- Every target holds the text listed last for it; other regular files are as they were, but for those
left behind. -/
structure Holds (s s' : Store) (files : List (Path × String)) : Prop where
  located : ∀ f ∈ files, ∃ l, s'.locate f.1 = .ok l ∧
    s'.file? l = (s'.lastText files l).map Text.Utf8.encode
  others : ∀ l, (∀ f ∈ files, s'.locate f.1 ≠ .ok l) →
    s'.file? l = s.file? l ∨ s.Left (files.map Prod.fst) l

/-- The files put aside for a run, with the moves that they are put aside for. -/
structure Prepared (s t u : Store) (files : List (Path × String)) (staged : List Location)
    (kept : List (Option Location)) : Prop where
  staging : Aside (files.map Prod.fst) s t (staged.zip (files.map fun f => Text.Utf8.encode f.2))
  length_staged : staged.length = files.length
  keeping : ∃ added, Aside (files.map Prod.fst) t u added ∧ added.map Prod.fst = kept.filterMap id
  same : SameDirectories t u
  length_kept : kept.length = files.length
  undoes : 1 < files.length → t.Apart (files.map Prod.fst) →
    ∀ e ∈ (files.map Prod.fst).zip kept, Undoes t u e.1 e.2

namespace Prepared
variable {staged : List Location} {kept : List (Option Location)}

theorem aside (h : Prepared s t u files staged kept) :
    ∃ added, Aside (files.map Prod.fst) s u added ∧
      added.map Prod.fst = staged ++ kept.filterMap id ∧
      ∀ e ∈ staged.zip (files.map fun f => Text.Utf8.encode f.2), u.file? e.1 = some e.2 := by
  obtain ⟨more, hmore, hplaces⟩ := h.keeping
  have hlength : staged.length ≤ (files.map fun f => Text.Utf8.encode f.2).length := by
    simp [h.length_staged]
  refine ⟨_, h.staging.trans hmore, ?_, fun e he => ?_⟩
  · rw [List.map_append, hplaces, List.map_fst_zip hlength]
  · exact (h.staging.trans hmore).holds e (List.mem_append_left _ he)

theorem map_fst_moves (h : Prepared s t u files staged kept) :
    ((files.map Prod.fst).zip (staged.zip kept)).map Prod.fst = files.map Prod.fst := by
  refine List.map_fst_zip ?_
  simp [h.length_staged, h.length_kept]

theorem map_staged_moves (h : Prepared s t u files staged kept) :
    ((files.map Prod.fst).zip (staged.zip kept)).map (·.2.1) = staged := by
  have hlong : (staged.zip kept).length ≤ (files.map Prod.fst).length := by
    simp [h.length_staged, h.length_kept]
  calc
    ((files.map Prod.fst).zip (staged.zip kept)).map (·.2.1)
        = (((files.map Prod.fst).zip (staged.zip kept)).map Prod.snd).map Prod.fst := by
          rw [List.map_map]
          rfl
    _ = (staged.zip kept).map Prod.fst := by rw [List.map_snd_zip hlong]
    _ = staged := List.map_fst_zip (Nat.le_of_eq (h.length_staged.trans h.length_kept.symm))

theorem ready (h : Prepared s t u files staged kept) (hapart : s.Apart (files.map Prod.fst)) :
    Ready (staged ++ kept.filterMap id) u ((files.map Prod.fst).zip (staged.zip kept)) := by
  obtain ⟨added, haside, hplaces, -⟩ := h.aside
  have hnodup : (staged ++ kept.filterMap id).Nodup := hplaces ▸ haside.nodup
  have hsome : ∀ l ∈ staged ++ kept.filterMap id, (u.file? l).isSome := by
    intro l hl
    obtain ⟨bytes, hbytes⟩ := haside.exists_file (hplaces ▸ hl)
    rw [hbytes]
    rfl
  have hstaged : ∀ move ∈ (files.map Prod.fst).zip (staged.zip kept), move.2.1 ∈ staged :=
    fun move hmove => (List.of_mem_zip (List.of_mem_zip hmove).2).1
  have hkept : ∀ move ∈ (files.map Prod.fst).zip (staged.zip kept), ∀ p ∈ move.2.2,
      p ∈ kept.filterMap id := by
    intro move hmove p hp
    have hmem := (List.of_mem_zip (List.of_mem_zip hmove).2).2
    exact List.mem_filterMap.mpr ⟨move.2.2, hmem, hp⟩
  refine ⟨?_, ?_, ?_, ?_, ?_⟩
  · intro move hmove m hm hmem
    rw [← hplaces] at hmem
    have htried := haside.keeps.tried_iff.mpr (haside.tried m hmem)
    exact (hapart.of_keeps haside.keeps).not_tried (List.of_mem_zip hmove).1 hm htried
  · intro move hmove
    have hmem := List.mem_append_left (kept.filterMap id) (hstaged move hmove)
    exact ⟨hmem, hsome _ hmem⟩
  · intro move hmove p hp
    have hmem := List.mem_append_right staged (hkept move hmove p hp)
    exact ⟨hmem, hsome _ hmem⟩
  · rw [h.map_staged_moves]
    exact (List.nodup_append.mp hnodup).1
  · intro move hmove other hother p hp
    exact (List.nodup_append.mp hnodup).2.2 _ (hstaged move hmove) p (hkept other hother p hp)

theorem map_file?_moves (h : Prepared s t u files staged kept) :
    (((files.map Prod.fst).zip (staged.zip kept)).map fun move => u.file? move.2.1) =
      files.map fun f => some (Text.Utf8.encode f.2) := by
  obtain ⟨-, -, -, hbytes⟩ := h.aside
  have hfst : (staged.zip (files.map fun f => Text.Utf8.encode f.2)).map Prod.fst = staged :=
    List.map_fst_zip (by simp [h.length_staged])
  have hsnd : (staged.zip (files.map fun f => Text.Utf8.encode f.2)).map Prod.snd =
      files.map fun f => Text.Utf8.encode f.2 :=
    List.map_snd_zip (by simp [h.length_staged])
  calc
    ((files.map Prod.fst).zip (staged.zip kept)).map (fun move => u.file? move.2.1)
        = (((files.map Prod.fst).zip (staged.zip kept)).map (·.2.1)).map u.file? := by
          rw [List.map_map]
          rfl
    _ = staged.map u.file? := by rw [h.map_staged_moves]
    _ = (staged.zip (files.map fun f => Text.Utf8.encode f.2)).map fun e => u.file? e.1 := by
          conv_lhs => rw [← hfst, List.map_map]
          rfl
    _ = (staged.zip (files.map fun f => Text.Utf8.encode f.2)).map fun e => some e.2 :=
          List.map_congr_left hbytes
    _ = ((staged.zip (files.map fun f => Text.Utf8.encode f.2)).map Prod.snd).map some := by
          rw [List.map_map]
          rfl
    _ = files.map fun f => some (Text.Utf8.encode f.2) := by
          rw [hsnd, List.map_map]
          rfl

theorem holds (h : Prepared s t u files staged kept) (hapart : s.Apart (files.map Prod.fst))
    (hrun : (u.replaceAll ((files.map Prod.fst).zip (staged.zip kept))).fault = none) :
    Holds s ((u.replaceAll ((files.map Prod.fst).zip (staged.zip kept))).store.discardAll
      (staged ++ kept.filterMap id)) files := by
  obtain ⟨added, haside, hplaces, -⟩ := h.aside
  obtain ⟨hus, hlocated, hfiles⟩ :=
    (h.ready hapart).of_ok h.map_fst_moves h.map_file?_moves hrun
  generalize (u.replaceAll ((files.map Prod.fst).zip (staged.zip kept))).store = s'
    at hus hlocated hfiles ⊢
  rw [← hplaces] at hlocated hfiles ⊢
  have hne : ∀ l ∈ added.map Prod.fst, l ≠ [] := fun _ hl => haside.ne_nil hl
  have hdiscarded : SameDirectories s' (s'.discardAll (added.map Prod.fst)) := by
    refine .discardAll fun l hl => ?_
    rw [Ne, hus.directory_iff]
    exact haside.not_directory hl
  refine ⟨fun f hf => ?_, fun l hnowhere => ?_⟩
  · obtain ⟨m, hm, hnot⟩ := hlocated f hf
    refine ⟨m, hdiscarded.locate_iff.mpr hm, ?_⟩
    obtain ⟨text, htext⟩ := exists_lastText hf hm
    rw [hdiscarded.lastText_eq, file?_discardAll_of_not_mem hne hnot, hfiles m hnot, htext]
    rfl
  · obtain hsame | hleft | ⟨hnot, hsame, heq⟩ := haside.discarded hus.keeps l
    · exact .inl hsame
    · exact .inr hleft
    · have hnone : s'.lastText files l = none :=
        lastText_eq_none fun f hf hl => hnowhere f hf (hdiscarded.locate_iff.mpr hl)
      rw [heq, hfiles l hnot, hnone, ← hsame]
      exact .inl rfl

theorem restored (h : Prepared s t u files staged kept) (hapart : s.Apart (files.map Prod.fst))
    (hrun : (u.replaceAll ((files.map Prod.fst).zip (staged.zip kept))).fault ≠ none)
    (l : Location) :
    ((u.replaceAll ((files.map Prod.fst).zip (staged.zip kept))).store.discardAll
        (staged ++ kept.filterMap id)).file? l = s.file? l ∨
      s.Left (files.map Prod.fst) l ∨ s.Unrestored (files.map Prod.fst) l := by
  obtain ⟨added, haside, hplaces, -⟩ := h.aside
  by_cases hfirst :
      (u.replaceAll ((files.map Prod.fst).zip (staged.zip kept))).replaced = 0
  · rw [store_replaceAll hfirst, ← hplaces]
    exact (haside.sameFiles l).imp_right .inl
  -- Something was replaced before the fault, so there are several targets, and they have copies.
  have hseveral : 1 < files.length := by
    have hlt := replaced_lt_of_fault hrun
    simp only [List.length_zip, List.length_map] at hlt
    omega
  have hundo : ∀ move ∈ (files.map Prod.fst).zip (staged.zip kept),
      Undoes t u move.1 move.2.2 := by
    intro move hmove
    exact h.undoes hseveral (hapart.of_keeps h.staging.keeps) (move.1, move.2.2)
      (mem_zip_of_mem_zip hmove)
  have hback := (h.ready hapart).of_error h.same hundo hrun
  obtain hsame | hleft | ⟨hnot, hsame, heq⟩ := haside.discarded hback.same.keeps l
  · rw [← hplaces]
    exact .inl hsame
  · exact .inr (.inl hleft)
  rw [hplaces] at hnot heq
  rw [heq]
  obtain ⟨more, hmore, hcopies⟩ := h.keeping
  have hnotmore : l ∉ more.map Prod.fst := by
    rw [hcopies]
    exact fun hmem => hnot (List.mem_append_right _ hmem)
  obtain hut | hleft := hmore.others l hnotmore
  · obtain hst | hunrestored := hback.back l hnot hut
    · exact .inl (by rw [hst, ← hut, hsame])
    · rw [h.map_fst_moves] at hunrestored
      exact .inr (.inr (h.staging.keeps.unrestored hunrestored))
  · exact .inr (.inl (h.staging.left_before hleft))

end Prepared

end LocaleAccessors.Files.Store
