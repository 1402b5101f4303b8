import LocaleAccessors.Files.Write
import LocaleAccessors.Proofs.Files.Store

/-!
Making directories and putting files aside. Both only add to a store: no regular file changes, and
every file that is put aside is at a place where nothing was. Such a file stays only where the system
does not let it be closed, looked at or removed.
-/

namespace LocaleAccessors.Files.Store
variable {targets : List Path} {s s' t : Store} {l m : Location} {bytes : List UInt8}
  {added more : List (Location × List UInt8)} {target : Path} {ending : String}

/-- The places that are tried for files put aside beside some targets. -/
def Tried (s : Store) (targets : List Path) (l : Location) : Prop :=
  ∃ target ∈ targets, ∃ ending ∈ [stagedEnding, keptEnding], ∃ attempt,
    l = s.machine.asidePlace (target.parent.place s.working) (target.name?.getD "") ending attempt

/-- What is there cannot be closed, looked at or removed. -/
def Held (s : Store) (l : Location) : Prop :=
  s.refused? (.close l) ≠ none ∨ s.refused? (.look l.path) ≠ none ∨ s.refused? (.remove l) ≠ none

/-- A place where a file that was put aside may be left behind. -/
structure Left (s : Store) (targets : List Path) (l : Location) : Prop where
  free : s.node? l = none
  tried : s.Tried targets l
  held : s.Held l

theorem Keeps.tried_iff (h : Keeps s s') : s'.Tried targets l ↔ s.Tried targets l := by
  rw [Tried, Tried, h.working, h.machine]

theorem Keeps.held_iff (h : Keeps s s') : s'.Held l ↔ s.Held l := by
  rw [Held, Held, h.refused?, h.refused?, h.refused?]

/-- What a store has become after directories were made in it and files put aside. -/
structure Aside (targets : List Path) (s s' : Store) (added : List (Location × List UInt8)) :
    Prop where
  keeps : Keeps s s'
  holds : ∀ e ∈ added, s'.file? e.1 = some e.2
  others : ∀ l ∉ added.map Prod.fst, s'.file? l = s.file? l ∨ s.Left targets l
  free : ∀ l ∈ added.map Prod.fst, s.node? l = none
  tried : ∀ l ∈ added.map Prod.fst, s.Tried targets l
  nodup : (added.map Prod.fst).Nodup

namespace Aside

theorem refl (targets : List Path) (s : Store) : Aside targets s s [] where
  keeps := .refl s
  holds := nofun
  others := fun _ _ => .inl rfl
  free := nofun
  tried := nofun
  nodup := List.nodup_nil

theorem exists_file (h : Aside targets s s' added) (hl : l ∈ added.map Prod.fst) :
    ∃ bytes, s'.file? l = some bytes := by
  obtain ⟨e, hmem, rfl⟩ := List.mem_map.mp hl
  exact ⟨e.2, h.holds e hmem⟩

theorem free_before (h : Aside targets s s' added) (hl : s'.node? l = none) : s.node? l = none := by
  have hnone := file?_of_node?_none hl
  have hnot : l ∉ added.map Prod.fst := by
    intro hmem
    obtain ⟨bytes, hbytes⟩ := h.exists_file hmem
    rw [hnone] at hbytes
    cases hbytes
  cases hnode : s.node? l with
  | none => rfl
  | some node =>
    cases node with
    | directory =>
      rw [h.keeps.directory l hnode] at hl
      cases hl
    | file bytes =>
      obtain hsame | hleft := h.others l hnot
      · rw [hnone, file?_eq_some_iff.mpr hnode] at hsame
        cases hsame
      · rw [hleft.free] at hnode
        cases hnode

theorem left_before (h : Aside targets s s' added) (hl : s'.Left targets l) : s.Left targets l :=
  ⟨h.free_before hl.free, h.keeps.tried_iff.mp hl.tried, h.keeps.held_iff.mp hl.held⟩

theorem trans (h : Aside targets s s' added) (h' : Aside targets s' t more) :
    Aside targets s t (added ++ more) where
  keeps := h.keeps.trans h'.keeps
  holds := by
    intro e he
    rcases List.mem_append.mp he with he | he
    · have hfile := h.holds e he
      have hnode : s'.node? e.1 ≠ none := by
        intro hnone
        rw [file?_of_node?_none hnone] at hfile
        cases hfile
      obtain hsame | hleft := h'.others e.1 fun hmem => hnode (h'.free e.1 hmem)
      · rw [hsame, hfile]
      · exact absurd hleft.free hnode
    · exact h'.holds e he
  others := by
    intro l hl
    rw [List.map_append, List.mem_append, not_or] at hl
    obtain hsame' | hleft' := h'.others l hl.2
    · obtain hsame | hleft := h.others l hl.1
      · exact .inl (hsame'.trans hsame)
      · exact .inr hleft
    · exact .inr (h.left_before hleft')
  free := by
    intro l hl
    rw [List.map_append, List.mem_append] at hl
    cases hl with
    | inl hl => exact h.free l hl
    | inr hl => exact h.free_before (h'.free l hl)
  tried := by
    intro l hl
    rw [List.map_append, List.mem_append] at hl
    cases hl with
    | inl hl => exact h.tried l hl
    | inr hl => exact h.keeps.tried_iff.mp (h'.tried l hl)
  nodup := by
    rw [List.map_append, List.nodup_append]
    refine ⟨h.nodup, h'.nodup, fun l hl m hm heq => ?_⟩
    obtain ⟨bytes, hbytes⟩ := h.exists_file hl
    rw [heq, file?_of_node?_none (h'.free m hm)] at hbytes
    cases hbytes

theorem put_directory (hl : s.node? l = none) : Aside targets s (s.put l .directory) [] where
  keeps := by
    refine ⟨rfl, rfl, fun m hm => ?_⟩
    rw [node?_put (ne_nil_of_free hl)]
    split_ifs
    · rfl
    · exact hm
  holds := nofun
  others := by
    intro m _
    refine .inl (Option.ext fun bytes => ?_)
    rw [file?_eq_some_iff, file?_eq_some_iff, node?_put (ne_nil_of_free hl)]
    by_cases hm : m = l
    · simp [hm, hl]
    · simp [hm]
  free := nofun
  tried := nofun
  nodup := List.nodup_nil

end Aside

theorem Keeps.put_file (hl : s.node? l = none) : Keeps s (s.put l (.file bytes)) := by
  refine ⟨rfl, rfl, fun m hm => ?_⟩
  rw [node?_put (ne_nil_of_free hl), if_neg, hm]
  intro heq
  rw [heq, hl] at hm
  cases hm

namespace Aside

theorem put_file (hl : s.node? l = none) (htried : s.Tried targets l) :
    Aside targets s (s.put l (.file bytes)) [(l, bytes)] where
  keeps := .put_file hl
  holds := by
    intro e he
    rw [List.mem_singleton.mp he, file?_put (ne_nil_of_free hl), if_pos rfl]
  others := by
    intro m hm
    rw [List.map_singleton, List.mem_singleton] at hm
    rw [file?_put (ne_nil_of_free hl), if_neg hm]
    exact .inl rfl
  free := by simpa using hl
  tried := by simpa using htried
  nodup := by simp

theorem put_held (hl : s.node? l = none) (htried : s.Tried targets l) (hheld : s.Held l) :
    Aside targets s (s.put l (.file bytes)) [] where
  keeps := .put_file hl
  holds := nofun
  others := by
    intro m _
    rw [file?_put (ne_nil_of_free hl)]
    by_cases hm : m = l
    · rw [hm]
      exact .inr ⟨hl, htried, hheld⟩
    · rw [if_neg hm]
      exact .inl rfl
  free := nofun
  tried := nofun
  nodup := List.nodup_nil

end Aside

/-! A file that is made beside a target. -/

theorem tried_of_freePlace? {directory : Location} {name : String} {tries attempt : Nat}
    (h : s.freePlace? directory name ending tries attempt = some l) :
    s.node? l = none ∧ ∃ i, l = s.machine.asidePlace directory name ending i := by
  induction tries generalizing attempt with
  | zero => cases h
  | succ tries ih =>
    rw [freePlace?] at h
    split at h
    · exact ih h
    · next hfree =>
      cases h
      exact ⟨Option.not_isSome_iff_eq_none.mp hfree, attempt, rfl⟩

theorem create_eq_ok (htarget : target ∈ targets) (hending : ending ∈ [stagedEnding, keptEnding])
    (h : s.create target ending = .ok (s', l)) :
    s' = s.put l (.file []) ∧ s.node? l = none ∧ s.Tried targets l := by
  rw [create, bind_eq_ok_iff] at h
  obtain ⟨directory, hdirectory, h⟩ := h
  dsimp only at h
  split_ifs at h
  split at h
  · cases h
  · next hplace =>
    split_ifs at h
    split at h
    · cases h
    · cases h
      obtain ⟨hfree, attempt, heq⟩ := tried_of_freePlace? hplace
      rw [place_of_locate hdirectory] at heq
      exact ⟨rfl, hfree, target, htarget, ending, hending, attempt, heq⟩

theorem put_put (s : Store) (l : Location) (node node' : Node) :
    (s.put l node).put l node' = s.put l node' := by
  simp [put]

theorem discard_cases (s : Store) (l : Location) :
    s.discard l = s.remove l ∨ s.discard l = s ∧ (s.node? l = none ∨ s.Held l) := by
  unfold discard
  split
  · exact .inl rfl
  · next hnot =>
    refine .inr ⟨rfl, ?_⟩
    by_contra hgone
    rw [not_or, Held, not_or, not_or, not_not, not_not, not_not] at hgone
    obtain ⟨node, hnode⟩ := Option.ne_none_iff_exists'.mp hgone.1
    exact hnot node hnode hgone.2.2.1 hgone.2.2.2

theorem SameDirectories.discard (hl : s.node? l ≠ some .directory) :
    SameDirectories s (s.discard l) := by
  obtain heq | ⟨heq, -⟩ := s.discard_cases l
  · rw [heq]
    exact .remove hl
  · rw [heq]
    exact .refl s

theorem file?_discard_of_ne (hl : l ≠ []) (hm : m ≠ l) : (s.discard l).file? m = s.file? m := by
  obtain heq | ⟨heq, -⟩ := s.discard_cases l
  · rw [heq, file?_remove hl, if_neg hm]
  · rw [heq]

theorem file?_discard (hl : l ≠ []) : (s.discard l).file? l = none ∨ s.Held l := by
  obtain heq | ⟨heq, hnone | hheld⟩ := s.discard_cases l
  · rw [heq, file?_remove hl]
    exact .inl (if_pos rfl)
  · rw [heq]
    exact .inl (file?_of_node?_none hnone)
  · exact .inr hheld

theorem not_directory_of_free (hl : s.node? l = none) : s.node? l ≠ some .directory := by
  rw [hl]
  exact nofun

theorem SameDirectories.discard_put (hl : s.node? l = none) :
    SameDirectories s ((s.put l (.file bytes)).discard l) := by
  have hput : SameDirectories s (s.put l (.file bytes)) := .put_file (not_directory_of_free hl)
  refine hput.trans (.discard ?_)
  rw [Ne, hput.directory_iff]
  exact not_directory_of_free hl

theorem Aside.discard_put (hl : s.node? l = none) (htried : s.Tried targets l) :
    Aside targets s ((s.put l (.file bytes)).discard l) [] := by
  have hne := ne_nil_of_free hl
  refine ⟨(SameDirectories.discard_put hl).keeps, nofun, fun m _ => ?_, nofun, nofun,
    List.nodup_nil⟩
  by_cases hm : m = l
  · obtain hnone | hheld := file?_discard (s := s.put l (.file bytes)) hne
    · rw [hm, hnone, file?_of_node?_none hl]
      exact .inl rfl
    · rw [hm]
      exact .inr ⟨hl, htried, hheld⟩
  · rw [file?_discard_of_ne hne hm, file?_put hne, if_neg hm]
    exact .inl rfl

theorem aside_fill (hl : s.node? l = none) (htried : s.Tried targets l) (bytes : List UInt8) :
    ∃ t found, (s.put l (.file [])).fill l bytes = (t, found) ∧
      (found = none ∧ Aside targets s t [(l, bytes)] ∨ found ≠ none ∧ Aside targets s t []) := by
  unfold fill
  simp only [put_put]
  have hrefused : ∀ call, (s.put l (.file [])).refused? call = s.refused? call := fun _ => rfl
  cases hwrite : (s.put l (.file [])).machine.refuses (.write l) with
  | none =>
    cases hclose : (s.put l (.file [])).refused? (.close l) with
    | none => exact ⟨_, _, rfl, .inl ⟨rfl, .put_file hl htried⟩⟩
    | some fault =>
      rw [hrefused] at hclose
      exact ⟨_, _, rfl, .inr ⟨nofun, .put_held hl htried (.inl (by simp [hclose]))⟩⟩
  | some refusal =>
    cases hclose : (s.put l (.file [])).refused? (.close l) with
    | none => exact ⟨_, _, rfl, .inr ⟨nofun, .discard_put hl htried⟩⟩
    | some fault =>
      rw [hrefused] at hclose
      exact ⟨_, _, rfl, .inr ⟨nofun, .put_held hl htried (.inl (by simp [hclose]))⟩⟩

/-! The directories above a target. -/

theorem makeDirectory_eq_ok {p : Path} (h : s.makeDirectory p = .ok s') :
    Aside targets s s' [] := by
  rw [makeDirectory, bind_eq_ok_iff] at h
  obtain ⟨l, -, h⟩ := h
  split at h
  · cases h
  · cases h
  · next hl _ =>
    cases h
    exact .put_directory hl

theorem aside_ensureParts (targets : List Path) (s : Store) (root : Root) (levels : Nat)
    (parts : List String) : Aside targets s (s.ensureParts root levels parts).1 [] := by
  induction parts generalizing s levels with
  | nil => exact .refl targets s
  | cons part outer ih =>
    rw [ensureParts]
    by_cases hlevels : levels = 0
    · rw [if_pos hlevels]
      exact .refl targets s
    rw [if_neg hlevels]
    have houter := ih s (levels - 1)
    cases hmade : s.makeDirectory ⟨root, (part :: outer).reverse⟩ with
    | ok s' =>
      simp only [hmade]
      exact makeDirectory_eq_ok hmade
    | error fault =>
      cases fault with
      | notFound =>
        cases hensured : s.ensureParts root (levels - 1) outer with
        | mk s' found =>
          rw [hensured] at houter
          cases found with
          | some fault => simpa only [hmade, hensured] using houter
          | none =>
            cases hagain : s'.makeDirectory ⟨root, (part :: outer).reverse⟩ with
            | ok t =>
              have hboth : Aside targets s t [] := houter.trans (makeDirectory_eq_ok hagain)
              simpa only [hmade, hensured, hagain] using hboth
            | error fault => simpa only [hmade, hensured, hagain] using houter
      | _ =>
        simp only [hmade]
        exact .refl targets s

theorem aside_ensureDirectory (targets : List Path) (s : Store) (p : Path) :
    Aside targets s (s.ensureDirectory p).1 [] :=
  aside_ensureParts targets s p.root maxLevels p.parts.reverse

/-! All files of a run. -/

theorem aside_stage (htarget : target ∈ targets) (s : Store) (text : String) :
    (∃ l, (s.stage target text).2 = .ok l ∧
      Aside targets s (s.stage target text).1 [(l, Text.Utf8.encode text)]) ∨
    ∃ fault, (s.stage target text).2 = .error fault ∧
      Aside targets s (s.stage target text).1 [] := by
  have hensured := aside_ensureDirectory targets s target.parent
  unfold stage
  cases hmade : s.ensureDirectory target.parent with
  | mk t found =>
    rw [hmade] at hensured
    cases found with
    | some fault => exact .inr ⟨fault, rfl, hensured⟩
    | none =>
      dsimp only at hensured ⊢
      cases hcreate : t.create target stagedEnding with
      | error fault => exact .inr ⟨fault, rfl, hensured⟩
      | ok result =>
        obtain ⟨u, l⟩ := result
        obtain ⟨rfl, hfree, htried⟩ := create_eq_ok htarget List.mem_cons_self hcreate
        obtain ⟨v, found, hfill, ⟨rfl, haside⟩ | ⟨hfound, haside⟩⟩ :=
          aside_fill hfree htried (Text.Utf8.encode text)
        · simp only [hfill]
          exact .inl ⟨l, rfl, hensured.trans haside⟩
        · obtain ⟨fault, rfl⟩ := Option.ne_none_iff_exists'.mp hfound
          simp only [hfill]
          exact .inr ⟨fault, rfl, hensured.trans haside⟩

theorem aside_stageAll {files : List (Path × String)} (htargets : ∀ f ∈ files, f.1 ∈ targets)
    (s : Store) :
    Aside targets s (s.stageAll files).store
      ((s.stageAll files).done.zip (files.map fun f => Text.Utf8.encode f.2)) ∧
    (s.stageAll files).done.length ≤ files.length ∧
    ((s.stageAll files).fault = none → (s.stageAll files).done.length = files.length) := by
  induction files generalizing s with
  | nil => exact ⟨.refl targets s, Nat.le_refl 0, fun _ => rfl⟩
  | cons f files ih =>
    obtain ⟨target, text⟩ := f
    obtain ⟨htarget, htargets⟩ := List.forall_mem_cons.mp htargets
    obtain ⟨l, hresult, haside⟩ | ⟨fault, hresult, haside⟩ := aside_stage htarget s text
    · obtain ⟨hrest, hle, hall⟩ := ih htargets (s.stage target text).1
      cases hstage : s.stage target text with
      | mk t result =>
        rw [hstage] at hresult haside hrest hle hall
        subst hresult
        simp only [stageAll, hstage]
        refine ⟨haside.trans hrest, Nat.succ_le_succ hle, fun hnone => ?_⟩
        exact congrArg Nat.succ (hall hnone)
    · cases hstage : s.stage target text with
      | mk t result =>
        rw [hstage] at hresult haside
        subst hresult
        simp only [stageAll, hstage]
        exact ⟨haside, Nat.zero_le _, nofun⟩

end LocaleAccessors.Files.Store
