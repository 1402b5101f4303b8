import LocaleAccessors.Output
import LocaleAccessors.Proofs.Files.Pair

/-!
The faults that paths meet. A name is too long only where the path holds a long one, and on paths
without null characters or halves of surrogate pairs and of moderate depth every fault of a write is one
that is reported.
-/

namespace LocaleAccessors.Files

theorem Machine.isName_iff {machine : Machine} {text : String} :
    machine.isName text = true ↔
      ∀ entry ∈ machine.standIns, entry.2 = .byte ∨ entry.1 ∉ text.toList := by
  simp [isName]

/-- A fault of the files, which a write reports. The others come from the paths themselves. -/
def PathFault.Reported : PathFault → Prop
  | .nullCharacter | .unencodable | .tooDeep => False
  | _ => True

/-- A path of names without null characters, through no more directories than can be made at once. -/
structure Path.Moderate (machine : Machine) (p : Path) : Prop where
  names : ∀ part ∈ p.parts, machine.isName part
  no_null : ∀ part ∈ p.parts, '\x00' ∉ part.toList
  depth : p.parts.length ≤ maxLevels

theorem Path.exists_mem_of_mem_text {p : Path} {c : Char} (h : c ∈ p.text.toList) (hdot : c ≠ '.')
    (hslash : c ≠ '/') : ∃ part ∈ p.parts, c ∈ part.toList := by
  unfold Path.text at h
  split at h
  · simp [hdot] at h
  · rw [String.toList_append, List.mem_append, String.toList_intercalate] at h
    rcases h with h | h
    · cases hroot : p.root <;> simp [hroot, Root.text, hslash] at h
    · rcases Text.mem_of_mem_intercalate h with h | ⟨part, hpart, h⟩
      · simp [hslash] at h
      · obtain ⟨part, hmem, rfl⟩ := List.mem_map.mp hpart
        exact ⟨part, hmem, h⟩

theorem Machine.isName_text {machine : Machine} {p : Path}
    (h : ∀ part ∈ p.parts, machine.isName part) : machine.isName p.text := by
  refine isName_iff.mpr fun entry hentry => or_iff_not_imp_right.mpr fun hmem => ?_
  have hforeign := machine.foreign entry hentry
  have hplain : ∀ c : Char, c.toNat ≤ 0x7F → entry.1 ≠ c := by
    rintro c hc rfl
    omega
  obtain ⟨part, hpart, hin⟩ := p.exists_mem_of_mem_text (not_not.mp hmem) (hplain '.' (by decide))
    (hplain '/' (by decide))
  exact (isName_iff.mp (h part hpart) entry hentry).resolve_right (not_not.mpr hin)

namespace Store
variable {s t : Store} {p target : Path} {l : Location} {fault : PathFault}

theorem follow_eq_error {part : String} (h : s.follow l part = .error fault) :
    fault = .notFound ∨ fault = .notDirectory ∨
      fault = .nameTooLong ∧ maxName < s.machine.size part := by
  unfold follow at h
  split at h
  · cases h
    exact .inl rfl
  · cases h
    exact .inr (.inl rfl)
  · split_ifs at h with hup hlong
    cases h
    exact .inr (.inr ⟨rfl, hlong⟩)

theorem followAll_eq_error {parts : List String} (h : parts.foldlM s.follow l = .error fault) :
    fault = .notFound ∨ fault = .notDirectory ∨
      fault = .nameTooLong ∧ ∃ part ∈ parts, maxName < s.machine.size part := by
  induction parts generalizing l with
  | nil => cases h
  | cons part parts ih =>
    rw [List.foldlM_cons, bind_eq_error_iff] at h
    obtain h | ⟨next, -, h⟩ := h
    · obtain rfl | rfl | ⟨rfl, hlong⟩ := follow_eq_error h
      · exact .inl rfl
      · exact .inr (.inl rfl)
      · exact .inr (.inr ⟨rfl, part, List.mem_cons_self, hlong⟩)
    · obtain rfl | rfl | ⟨rfl, long, hmem, hlong⟩ := ih h
      · exact .inl rfl
      · exact .inr (.inl rfl)
      · exact .inr (.inr ⟨rfl, long, List.mem_cons_of_mem part hmem, hlong⟩)

theorem locate_eq_error (h : s.locate p = .error fault) :
    fault = .notFound ∨ fault = .notDirectory ∨
      fault = .unencodable ∧ (¬ ∀ part ∈ p.parts, s.machine.isName part) ∨
      fault = .nullCharacter ∧ (∃ part ∈ p.parts, '\x00' ∈ part.toList) ∨
      fault = .nameTooLong ∧ (maxPath < s.machine.size p.text ∨
        ∃ part ∈ p.parts, maxName < s.machine.size part) := by
  unfold locate at h
  by_cases hname : s.machine.isName p.text
  · rw [if_neg (not_not.mpr hname)] at h
    split_ifs at h with hnull hlong
    · cases h
      have hpart := p.exists_mem_of_mem_text hnull (by decide) (by decide)
      exact .inr (.inr (.inr (.inl ⟨rfl, hpart⟩)))
    · cases h
      exact .inr (.inr (.inr (.inr ⟨rfl, .inl hlong⟩)))
    · obtain rfl | rfl | ⟨rfl, hparts⟩ := followAll_eq_error h
      · exact .inl rfl
      · exact .inr (.inl rfl)
      · exact .inr (.inr (.inr (.inr ⟨rfl, .inr hparts⟩)))
  · rw [if_pos hname] at h
    cases h
    exact .inr (.inr (.inl ⟨rfl, fun hnames => hname (Machine.isName_text hnames)⟩))

theorem look_eq_error (h : s.look p = .error fault) :
    s.refused? (.look p) = some fault ∨ fault = .nameTooLong ∧ s.locate p = .error .nameTooLong := by
  unfold look at h
  cases hlocate : s.locate p with
  | error found => cases found <;> cases hrefused : s.refused? (.look p) <;> simp_all
  | ok l => cases hrefused : s.refused? (.look p) <;> simp_all

/-- A file with a short path and short names that may be looked at is found, or it is not there. -/
theorem look_ne_error (hp : s.machine.size p.text ≤ maxPath)
    (hparts : ∀ part ∈ p.parts, s.machine.size part ≤ maxName)
    (hseen : s.machine.refuses (.look p) = none) : s.look p ≠ .error fault := by
  intro h
  obtain hrefused | ⟨-, hlocate⟩ := look_eq_error h
  · simp [refused?, hseen] at hrefused
  · obtain h | h | ⟨h, -⟩ | ⟨h, -⟩ | ⟨-, hlong | ⟨part, hpart, hlong⟩⟩ := locate_eq_error hlocate
    · cases h
    · cases h
    · cases h
    · cases h
    · omega
    · have hle := hparts part hpart
      omega

/-! Faults of a write. -/

theorem reported_refused {call : Call} (h : s.refused? call = some fault) : fault.Reported := by
  obtain ⟨refusal, -, rfl⟩ := Option.map_eq_some_iff.mp h
  trivial

theorem reported_look (h : s.look p = .error fault) : fault.Reported := by
  obtain hrefused | ⟨rfl, -⟩ := look_eq_error h
  · exact reported_refused hrefused
  · trivial

theorem reported_unlessDirectory {found : PathFault} (h : s.unlessDirectory p fault = some found)
    (hfault : fault.Reported) : found.Reported := by
  unfold unlessDirectory at h
  split at h
  · cases h
  · cases h
    exact hfault
  · next hlook =>
    cases h
    exact reported_look hlook

section paths
variable (hnames : ∀ part ∈ p.parts, s.machine.isName part)
  (hnull : ∀ part ∈ p.parts, '\x00' ∉ part.toList)
include hnames hnull

theorem reported_locate (h : s.locate p = .error fault) : fault.Reported := by
  obtain rfl | rfl | ⟨-, hnot⟩ | ⟨-, part, hpart, hmem⟩ | ⟨rfl, -⟩ := locate_eq_error h
  · trivial
  · trivial
  · exact absurd hnames hnot
  · exact absurd hmem (hnull part hpart)
  · trivial

theorem reported_makeDirectory (h : s.makeDirectory p = .error fault) : fault.Reported := by
  obtain h | ⟨l, -, h⟩ := bind_eq_error_iff.mp h
  · exact reported_locate hnames hnull h
  · split at h
    · cases h
      trivial
    · next hrefused =>
      cases h
      exact reported_refused hrefused
    · cases h

end paths

theorem reported_ensureParts {root : Root} {levels : Nat} {parts : List String}
    (hnames : ∀ part ∈ parts, s.machine.isName part)
    (hnull : ∀ part ∈ parts, '\x00' ∉ part.toList) (hlevels : parts.length ≤ levels)
    (h : (s.ensureParts root levels parts).2 = some fault) : fault.Reported := by
  induction parts generalizing s levels with
  | nil => cases h
  | cons part outer ih =>
    rw [List.length_cons] at hlevels
    have hpositive : levels ≠ 0 := by omega
    have hrest : outer.length ≤ levels - 1 := by omega
    have hpath {t : Store} (ht : t.machine = s.machine) :
        (∀ p ∈ (⟨root, (part :: outer).reverse⟩ : Path).parts, t.machine.isName p) ∧
          ∀ p ∈ (⟨root, (part :: outer).reverse⟩ : Path).parts, '\x00' ∉ p.toList :=
      ⟨fun p hp => ht ▸ hnames p (List.mem_reverse.mp hp), fun p hp => hnull p (List.mem_reverse.mp hp)⟩
    rw [ensureParts, if_neg hpositive] at h
    dsimp only at h
    split at h
    · cases h
    · split at h
      · next hensured =>
        cases h
        exact ih (List.forall_mem_cons.mp hnames).2 (List.forall_mem_cons.mp hnull).2 hrest
          (congrArg Prod.snd hensured)
      · next hensured =>
        split at h
        · cases h
        · next hagain =>
          have hmachine := (aside_ensureParts [] s root (levels - 1) outer).keeps.machine
          rw [hensured] at hmachine
          obtain ⟨hnames, hnull⟩ := hpath hmachine
          exact reported_unlessDirectory h (reported_makeDirectory hnames hnull hagain)
    · next hmade =>
      obtain ⟨hnames, hnull⟩ := hpath (t := s) rfl
      exact reported_unlessDirectory h (reported_makeDirectory hnames hnull hmade)

section targets
variable (h : target.Moderate s.machine)
include h

theorem moderate_parent : target.parent.Moderate s.machine where
  names part hpart := h.names part ((List.dropLast_sublist _).subset hpart)
  no_null part hpart := h.no_null part ((List.dropLast_sublist _).subset hpart)
  depth := by
    have hdepth := h.depth
    rw [Path.parent, List.length_dropLast]
    omega

theorem reported_ensureParent (hensured : (s.ensureDirectory target.parent).2 = some fault) :
    fault.Reported := by
  have hparent := moderate_parent h
  refine reported_ensureParts (fun part hpart => ?_) (fun part hpart => ?_) ?_ hensured
  · exact hparent.names part (List.mem_reverse.mp hpart)
  · exact hparent.no_null part (List.mem_reverse.mp hpart)
  · rw [List.length_reverse]
    exact hparent.depth

theorem reported_create {ending : String} (hcreate : s.create target ending = .error fault) :
    fault.Reported := by
  have hname : s.machine.isName (target.name?.getD "") ∧ '\x00' ∉ (target.name?.getD "").toList := by
    cases hname : target.name? with
    | none => simp [Machine.isName_iff]
    | some name =>
      have hmem := List.mem_of_getLast? hname
      exact ⟨h.names name hmem, h.no_null name hmem⟩
  obtain hcreate | ⟨directory, -, hcreate⟩ := bind_eq_error_iff.mp hcreate
  · have hparent := moderate_parent h
    exact reported_locate hparent.names hparent.no_null hcreate
  · dsimp only at hcreate
    rw [if_neg (not_not.mpr hname.1), if_neg hname.2] at hcreate
    split at hcreate
    · cases hcreate
      trivial
    · split_ifs at hcreate
      · cases hcreate
        trivial
      · cases hcreate
        trivial
      · split at hcreate
        · next hrefused =>
          cases hcreate
          exact reported_refused hrefused
        · cases hcreate

end targets

theorem reported_fill {bytes : List UInt8} (h : (s.fill l bytes).2 = some fault) :
    fault.Reported := by
  unfold fill at h
  split at h
  · exact reported_refused h
  · next hclose =>
    cases h
    exact reported_refused hclose
  · cases h
    trivial

theorem reported_copy {goal : Location} (h : (s.copy l goal).2 = some fault) : fault.Reported := by
  unfold copy at h
  split at h <;> cases h <;> trivial

theorem machine_replace {staged : Location} (h : s.replace target staged = .ok t) :
    t.machine = s.machine := by
  obtain ⟨l, -, h⟩ := bind_eq_ok_iff.mp h
  split at h <;> cases h
  rfl

section targets
variable (h : target.Moderate s.machine)
include h

theorem reported_stage {text : String} (hstage : (s.stage target text).2 = .error fault) :
    fault.Reported := by
  have hmachine := (aside_ensureDirectory [] s target.parent).keeps.machine
  unfold stage at hstage
  split at hstage
  · next hensured =>
    cases hstage
    exact reported_ensureParent h (congrArg Prod.snd hensured)
  · next hensured =>
    rw [hensured] at hmachine
    split at hstage
    · next hcreate =>
      cases hstage
      exact reported_create (hmachine.symm ▸ h) hcreate
    · split at hstage
      · next hfill =>
        cases hstage
        exact reported_fill (congrArg Prod.snd hfill)
      · cases hstage

theorem reported_keep (hkeep : (s.keep target).2 = .error fault) : fault.Reported := by
  unfold keep at hkeep
  split at hkeep
  · next hlook =>
    cases hkeep
    exact reported_look hlook
  · cases hkeep
  · split at hkeep
    · next hcreate =>
      cases hkeep
      exact reported_create h hcreate
    · split at hkeep
      · next hclose =>
        cases hkeep
        exact reported_refused hclose
      · split at hkeep
        · next hcopy =>
          cases hkeep
          exact reported_copy (congrArg Prod.snd hcopy)
        · cases hkeep

theorem reported_replace {staged : Location} (hreplace : s.replace target staged = .error fault) :
    fault.Reported := by
  obtain hreplace | ⟨l, -, hreplace⟩ := bind_eq_error_iff.mp hreplace
  · exact reported_locate h.names h.no_null hreplace
  · split at hreplace
    · cases hreplace
      trivial
    · cases hreplace
      trivial
    · next hrefused _ =>
      cases hreplace
      exact reported_refused hrefused
    · cases hreplace

end targets

theorem machine_stage (s : Store) (target : Path) (text : String) :
    (s.stage target text).1.machine = s.machine := by
  obtain ⟨_, -, haside⟩ | ⟨_, -, haside⟩ := aside_stage (List.mem_singleton_self target) s text
  · exact haside.keeps.machine
  · exact haside.keeps.machine

theorem machine_keep (s : Store) (target : Path) : (s.keep target).1.machine = s.machine := by
  obtain ⟨heq, -⟩ | ⟨_, _, _, heq, -⟩ | ⟨_, _, heq, haside, -⟩ :=
    keep_cases (List.mem_singleton_self target) s
  · rw [heq]
  · rw [heq]
    rfl
  · rw [heq]
    exact haside.keeps.machine

theorem reported_stageAll {files : List (Path × String)} (h : ∀ f ∈ files, f.1.Moderate s.machine)
    (hstaged : (s.stageAll files).fault = some fault) : fault.Reported := by
  induction files generalizing s with
  | nil => cases hstaged
  | cons f files ih =>
    obtain ⟨target, text⟩ := f
    obtain ⟨htarget, hfiles⟩ := List.forall_mem_cons.mp h
    have hmachine := machine_stage s target text
    unfold stageAll at hstaged
    split at hstaged
    · next hstage =>
      cases hstaged
      exact reported_stage htarget (congrArg Prod.snd hstage)
    · next hstage =>
      rw [hstage] at hmachine
      exact ih (hmachine.symm ▸ hfiles) hstaged

theorem reported_keepAll {targets : List Path} (h : ∀ target ∈ targets, target.Moderate s.machine)
    (hkept : (s.keepAll targets).fault = some fault) : fault.Reported := by
  induction targets generalizing s with
  | nil => cases hkept
  | cons target targets ih =>
    obtain ⟨htarget, htargets⟩ := List.forall_mem_cons.mp h
    have hmachine := machine_keep s target
    unfold keepAll at hkept
    split at hkept
    · next hkeep =>
      cases hkept
      exact reported_keep htarget (congrArg Prod.snd hkeep)
    · next hkeep =>
      rw [hkeep] at hmachine
      exact ih (hmachine.symm ▸ htargets) hkept

theorem reported_keepSeveral {targets : List Path} (h : ∀ target ∈ targets, target.Moderate s.machine)
    (hkept : (s.keepSeveral targets).fault = some fault) : fault.Reported := by
  unfold keepSeveral at hkept
  split_ifs at hkept
  exact reported_keepAll h hkept

theorem reported_replaceAll {moves : List (Path × Location × Option Location)}
    (h : ∀ move ∈ moves, move.1.Moderate s.machine)
    (hreplaced : (s.replaceAll moves).fault = some fault) : fault.Reported := by
  induction moves generalizing s with
  | nil => cases hreplaced
  | cons move moves ih =>
    obtain ⟨htarget, hmoves⟩ := List.forall_mem_cons.mp h
    cases hreplace : s.replace move.1 move.2.1 with
    | error found =>
      rw [replaceAll_of_error hreplace] at hreplaced
      cases hreplaced
      exact reported_replace htarget hreplace
    | ok t =>
      rw [(replaceAll_of_ok hreplace moves).1] at hreplaced
      exact ih (machine_replace hreplace ▸ hmoves) hreplaced

theorem reported_write {files : List (Path × String)} (h : ∀ f ∈ files, f.1.Moderate s.machine)
    (hwrite : (s.write files).fault = some fault) : fault.Reported := by
  have htargets : ∀ target ∈ files.map Prod.fst, target.Moderate s.machine :=
    List.forall_mem_map.mpr fun f hf => h f hf
  have hmem : ∀ f ∈ files, f.1 ∈ files.map Prod.fst := fun f hf => List.mem_map_of_mem hf
  have hself : ∀ target ∈ files.map Prod.fst, target ∈ files.map Prod.fst := fun _ hp => hp
  obtain ⟨hstaging, -⟩ := aside_stageAll hmem s
  obtain ⟨⟨added, hkeeping, -⟩, -⟩ := keepSeveral_spec hself (s.stageAll files).store
  unfold write at hwrite
  dsimp only at hwrite
  split at hwrite
  · next hstaged =>
    cases hwrite
    exact reported_stageAll h hstaged
  · split at hwrite
    · next hkept =>
      cases hwrite
      exact reported_keepSeveral (hstaging.keeps.machine.symm ▸ htargets) hkept
    · refine reported_replaceAll (fun move hmove => ?_) hwrite
      rw [hkeeping.keeps.machine, hstaging.keeps.machine]
      exact htargets move.1 (List.of_mem_zip hmove).1

end Store

theorem Path.Moderate.headerPath {machine : Machine} {output header : Path}
    (h : output.Moderate machine) (hheader : headerPath output = some header) :
    header.Moderate machine := by
  obtain ⟨name, hname, rfl⟩ := Option.map_eq_some_iff.mp hheader
  have hparts := Path.parts_of_name? hname
  have hmem := List.mem_of_getLast? hname
  have hstem := congrArg String.toList (Path.stem_append_suffix hname)
  have hchar : ∀ c ∈ (output.stem ++ ".h").toList, c ∈ name.toList ∨ c = '.' ∨ c = 'h' := by
    intro c hc
    rw [String.toList_append, List.mem_append] at hc
    rw [← hstem, String.toList_append, List.mem_append]
    rcases hc with hc | hc
    · exact .inl (.inl hc)
    · exact .inr (by simpa using hc)
  constructor
  · intro part hpart
    rcases List.mem_append.mp hpart with hpart | hpart
    · exact h.names part ((List.dropLast_sublist _).subset hpart)
    · rw [List.mem_singleton.mp hpart]
      refine Machine.isName_iff.mpr fun entry hentry => or_iff_not_imp_left.mpr fun hbyte hin => ?_
      have hforeign := machine.foreign entry hentry
      have hname := (Machine.isName_iff.mp (h.names name hmem) entry hentry).resolve_left hbyte
      obtain hin | hin | hin := hchar _ hin
      · exact hname hin
      · simp [hin] at hforeign
      · simp [hin] at hforeign
  · intro part hpart
    rcases List.mem_append.mp hpart with hpart | hpart
    · exact h.no_null part ((List.dropLast_sublist _).subset hpart)
    · rw [List.mem_singleton.mp hpart]
      intro hin
      exact h.no_null name hmem ((hchar _ hin).resolve_right (by decide))
  · have hlength := congrArg List.length hparts
    simp only [List.length_append, List.length_singleton] at hlength ⊢
    exact hlength ▸ h.depth

end LocaleAccessors.Files

namespace LocaleAccessors
open Files (Path Store PathFault)
open Source (Rendered)

/-- A fault of the output, which is reported. The others come from the path of the output itself. -/
def OutputFault.Reported : OutputFault → Prop
  | .unencodable _ | .failed _ _ | .stream _ => True
  | _ => False

/-- The faults that come from a path that is not moderate. -/
def OutputFault.OfPath (fault : OutputFault) : Prop :=
  fault = .nullCharacter ∨ fault = .unencodableName ∨ fault = .tooDeep

theorem not_reported_of_ofPath {fault : OutputFault} (h : fault.OfPath) : ¬ fault.Reported := by
  rcases h with rfl | rfl | rfl <;> exact id

theorem outputFault_cases (paths : List Path) (reason : PathFault) :
    (outputFault paths reason).Reported ∨
      ¬ reason.Reported ∧ (outputFault paths reason).OfPath := by
  cases reason <;> simp [outputFault, OutputFault.Reported, OutputFault.OfPath, PathFault.Reported]

theorem writeFiles_eq_error {s : Store} {files : List (Path × String)} {fault : OutputFault}
    (h : (writeFiles s files).paths = .error fault) :
    fault.Reported ∨ fault.OfPath ∧ ¬ ∀ f ∈ files, f.1.Moderate s.machine := by
  unfold writeFiles at h
  dsimp only at h
  split_ifs at h
  · cases hwrite : (s.write files).fault with
    | none =>
      simp only [hwrite] at h
      cases h
    | some reason =>
      simp only [hwrite] at h
      cases h
      refine (outputFault_cases _ reason).imp_right fun ⟨hnot, hpath⟩ => ⟨hpath, fun hmoderate => ?_⟩
      exact hnot (Store.reported_write hmoderate hwrite)
  · cases h
    exact .inl trivial

theorem moderate_files? {s : Store} {source : Rendered} {output : Path}
    {files : List (Path × String)} (hfiles : source.files? output none = some files)
    (h : output.Moderate s.machine) : ∀ f ∈ files, f.1.Moderate s.machine := by
  unfold Rendered.files? at hfiles
  split at hfiles
  · cases hfiles
    simpa using h
  · obtain ⟨header, hheader, rfl⟩ := Option.map_eq_some_iff.mp hfiles
    intro f hf
    rcases List.mem_pair.mp hf with rfl | rfl
    · exact h.headerPath hheader
    · exact h

theorem reported_writeStream {s : Store} {texts : List String} {fault : OutputFault}
    (h : (writeStream s texts).paths = .error fault) : fault.Reported := by
  unfold writeStream at h
  dsimp only at h
  split_ifs at h
  cases h
  trivial

/-- A source is refused for its path where its header has none, and else where the path is not
moderate. -/
theorem writeRendered_eq_error {s : Store} {source : Rendered} {output : Path} {fault : OutputFault}
    (h : (writeRendered s source (some output) none).paths = .error fault) :
    fault.Reported ∨ source.header ≠ none ∧ output.name? = none ∧ fault = .emptyName output ∨
      fault.OfPath ∧ ¬ output.Moderate s.machine := by
  cases hfiles : source.files? output none with
  | none =>
    rw [writeRendered_of_no_files? hfiles] at h
    obtain ⟨hheader, hname⟩ := files?_eq_none_iff.mp hfiles
    cases h
    exact .inr (.inl ⟨hheader, hname, rfl⟩)
  | some files =>
    rw [writeRendered_of_files? hfiles] at h
    refine (writeFiles_eq_error h).imp_right fun ⟨hpath, hnot⟩ => .inr ⟨hpath, fun hmoderate => ?_⟩
    exact hnot (moderate_files? hfiles hmoderate)

end LocaleAccessors
