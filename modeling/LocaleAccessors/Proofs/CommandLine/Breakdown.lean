import LocaleAccessors.Proofs.CommandLine.ExitCode
import LocaleAccessors.Proofs.Files.Faults
import LocaleAccessors.Proofs.Key.Depth
import LocaleAccessors.Proofs.Key.Survivors
import LocaleAccessors.Proofs.Text.Separated

/-!
Runs without an exit code. Some faults of arguments, of the input, of keys and translations and of the
output's path are none that the program reports; they end it on the way. Moderate arguments, tables and
paths meet none of them.
-/

namespace LocaleAccessors.CommandLine
open Files (Path Store maxName maxPath)
open Key (Tree)
open Source (Rendered)
open Table (FormatReason)
open Text (Separator)

structure Renders (s : Store) (a : Arguments) (d : Separator) (source : Rendered) : Prop where
  start : a.startFault? = none
  options : a.options.fault? = none
  source_eq : ∃ entries, Table.load s a.input = .ok entries ∧
    ¬ TooDeep s.machine a.request (Tree.build d entries).1 ∧
    failures (Tree.build d entries).1 = [] ∧ source = a.request.source (Tree.build d entries).1

/-- What ends a run on the way: a list where a text is needed, an input whose name is too long, which
may not be looked at or which its reader gives up, keys with more segments than the stack has room for,
a translation with a number that is too long, and an output whose path has no name for a header or
cannot be followed. -/
inductive BreaksDown (s : Store) (a : Arguments) (d : Separator) : Breakdown → Prop
  | listAtStart {fault : ListFault} :
      a.startFault? = some fault → BreaksDown s a d (.list fault)
  | inputName :
      a.startFault? = none → Table.load s a.input = .error .nameTooLong →
        BreaksDown s a d (.generation (.load a.input .nameTooLong))
  | inputRefused {words : String} :
      a.startFault? = none → Table.load s a.input = .error (.refused words) →
        BreaksDown s a d (.generation (.load a.input (.refused words)))
  | inputLimit {reason : FormatReason} :
      a.startFault? = none → Table.load s a.input = .error (.format reason) → reason.isLimit →
        BreaksDown s a d (.generation (.load a.input (.format reason)))
  | deepKeys {entries : List Table.Entry} :
      a.startFault? = none → Table.load s a.input = .ok entries →
        TooDeep s.machine a.request (Tree.build d entries).1 →
          BreaksDown s a d (.generation .tooDeep)
  | listAsOption {entries : List Table.Entry} {fault : OptionFault} {list : ListFault} :
      a.startFault? = none → Table.load s a.input = .ok entries →
        ¬ TooDeep s.machine a.request (Tree.build d entries).1 → a.options.fault? = some fault →
          a.optionFault? fault = some list → BreaksDown s a d (.list list)
  | longNumber {entries : List Table.Entry} {fault : Format.Fault} :
      a.startFault? = none → Table.load s a.input = .ok entries →
        ¬ TooDeep s.machine a.request (Tree.build d entries).1 → a.options.fault? = none →
        Failure.breakdown? (failures (Tree.build d entries).1) = some fault →
          BreaksDown s a d (.generation (.breakdown fault))
  | outputName {source : Rendered} {output : Path} :
      Renders s a d source → a.options.language = .objectiveC → a.output = some output →
        output.name? = none → BreaksDown s a d (.generation (.output (.emptyName output)))
  | outputPath {source : Rendered} {fault : OutputFault} :
      Renders s a d source → (writeRendered s source a.output none).paths = .error fault →
        fault.OfPath → BreaksDown s a d (.generation (.output fault))

/-- Arguments without lists, an input with short names that may be looked at and that its reader can
take in, keys with few segments, translations with short numbers, and an output with a moderate path and
a name for a header. -/
structure Moderate (s : Store) (a : Arguments) : Prop where
  lists : a.lists = []
  inputPath : s.machine.size a.input.text ≤ maxPath
  inputNames : ∀ part ∈ a.input.parts, s.machine.size part ≤ maxName
  inputSeen : s.machine.refuses (.look a.input) = none
  inputLimit : ∀ reason, Table.load s a.input = .error (.format reason) → reason.isLimit = false
  keys : ∀ entries, Table.load s a.input = .ok entries → ∀ entry ∈ entries, ∀ d,
    Separator.ofString? a.delimiter = some d →
      ∀ walk, (Key.path d entry.key).length ≤ s.machine.levels walk
  numbers : ∀ entries, Table.load s a.input = .ok entries → ∀ entry ∈ entries, Legible entry
  output : ∀ output, a.output = some output → output.Moderate s.machine
  outputName : ∀ output, a.output = some output → a.options.language = .objectiveC →
    output.name? ≠ none

theorem header_source_ne_none_iff (r : Request) (tree : Tree) :
    (r.source tree).header ≠ none ↔ r.options.language = .objectiveC := by
  rw [Request.source, Source.sourceOf, resolved_language]
  cases r.options.language <;> simp

theorem exit_eq_error_iff {a : Arguments} {fault : GenerationFault} {b : Breakdown} :
    a.exit fault = .error b ↔
      (∃ option list, fault = .options option ∧ a.optionFault? option = some list ∧ b = .list list) ∨
        fault.exit? = none ∧ b = .generation fault := by
  unfold Arguments.exit
  cases fault with
  | options option =>
    cases hlist : a.optionFault? option <;> simp [GenerationFault.exit?, hlist, eq_comm]
  | load p fault =>
    cases (GenerationFault.load p fault).exit? <;> simp [eq_comm]
  | emptyDelimiter => simp [GenerationFault.exit?, eq_comm]
  | tooDeep => simp [GenerationFault.exit?, eq_comm]
  | breakdown fault => simp [GenerationFault.exit?, eq_comm]
  | translations first others => simp [GenerationFault.exit?]
  | output fault =>
    cases (GenerationFault.output fault).exit? <;> simp [eq_comm]

theorem outcome_exit (a : Arguments) (r : Run) :
    (outcome a r).exit = match r.result with
      | .ok _ => .ok .success
      | .error fault => a.exit fault := by
  unfold outcome
  cases r.result with
  | ok summary => rfl
  | error fault => cases hexit : a.exit fault <;> simp [hexit]

section breakdown
variable {s : Store} {a : Arguments} {d : Separator} {b : Breakdown}

theorem exit_of_result {r : Run} {fault : GenerationFault} (hr : r.result = .error fault)
    (hb : a.exit fault = .error b) : (outcome a r).exit = .error b := by
  rw [outcome_exit, hr]
  exact hb

theorem exit_of_no_code {r : Run} {fault : GenerationFault} (hr : r.result = .error fault)
    (hcode : fault.exit? = none) : (outcome a r).exit = .error (.generation fault) :=
  exit_of_result hr (exit_eq_error_iff.mpr (.inr ⟨hcode, rfl⟩))

theorem breaksDown_of_load {fault : Table.LoadFault} (hstart : a.startFault? = none)
    (hload : Table.load s a.input = .error fault) (h : a.exit (.load a.input fault) = .error b) :
    BreaksDown s a d b := by
  obtain ⟨_, _, hne, -⟩ | ⟨hcode, rfl⟩ := exit_eq_error_iff.mp h
  · cases hne
  · cases fault with
    | notFound => cases hcode
    | nameTooLong => exact .inputName hstart hload
    | refused words => exact .inputRefused hstart hload
    | unreadable words => cases hcode
    | format reason =>
      rw [GenerationFault.exit?] at hcode
      split_ifs at hcode with hlimit
      exact .inputLimit hstart hload hlimit

theorem exit?_of_reported {fault : OutputFault} (h : fault.Reported) :
    (GenerationFault.output fault).exit? = some .inputOutput := by
  cases fault <;> first | rfl | cases h

theorem exit?_of_ofPath {fault : OutputFault} (h : fault.OfPath) :
    (GenerationFault.output fault).exit? = none := by
  rcases h with rfl | rfl | rfl <;> rfl

theorem breaksDown_of_output {tree : Tree} {fault : OutputFault}
    (hrenders : Renders s a d (a.request.source tree))
    (hpaths : (writeRendered s (a.request.source tree) a.output none).paths = .error fault)
    (h : a.exit (.output fault) = .error b) : BreaksDown s a d b := by
  obtain ⟨_, _, hne, -⟩ | ⟨hcode, rfl⟩ := exit_eq_error_iff.mp h
  · cases hne
  have hreported : ¬ fault.Reported := by
    intro hreported
    cases hcode.symm.trans (exit?_of_reported hreported)
  cases houtput : a.output with
  | none =>
    rw [houtput] at hpaths
    exact absurd (reported_writeStream hpaths) hreported
  | some output =>
    have hrefused := hpaths
    rw [houtput] at hrefused
    obtain hwritten | ⟨hheader, hname, rfl⟩ | ⟨hfault, -⟩ := writeRendered_eq_error hrefused
    · exact absurd hwritten hreported
    · exact .outputName hrenders ((header_source_ne_none_iff _ _).mp hheader) houtput hname
    · exact .outputPath hrenders hpaths hfault

theorem breaksDown_of_course {r : Run} (hstart : a.startFault? = none)
    (hcourse : Course s a.request d r) (h : (outcome a r).exit = .error b) : BreaksDown s a d b := by
  rw [outcome_exit] at h
  cases hcourse with
  | unread hload => exact breaksDown_of_load hstart hload h
  | tooDeep hload hdeep =>
    obtain ⟨_, _, hne, -⟩ | ⟨-, rfl⟩ := exit_eq_error_iff.mp h
    · cases hne
    · exact .deepKeys hstart hload hdeep
  | misconfigured hload hdeep hoptions =>
    obtain ⟨_, list, heq, hlist, rfl⟩ | ⟨hcode, -⟩ := exit_eq_error_iff.mp h
    · cases heq
      exact .listAsOption hstart hload hdeep hoptions hlist
    · cases hcode
  | illegible hload hdeep hoptions hbreakdown =>
    obtain ⟨_, _, hne, -⟩ | ⟨-, rfl⟩ := exit_eq_error_iff.mp h
    · cases hne
    · exact .longNumber hstart hload hdeep hoptions hbreakdown
  | untranslated hload hdeep hoptions hfailures =>
    obtain ⟨_, _, hne, -⟩ | ⟨hcode, -⟩ := exit_eq_error_iff.mp h
    · cases hne
    · cases hcode
  | @rendered entries records hload hdeep hoptions hfailures =>
    have hrenders : Renders s a d (a.request.source (Tree.build d entries).1) :=
      ⟨hstart, hoptions, entries, hload, hdeep, hfailures, rfl⟩
    obtain ⟨fault, hpaths, hresult⟩ | ⟨paths, summary, -, hresult⟩ := result_finish s a.request entries
      (Tree.build d entries).1 (a.request.source (Tree.build d entries).1) records
    · rw [hresult] at h
      exact breaksDown_of_output hrenders hpaths h
    · rw [hresult] at h
      cases h

theorem exit_of_output {source : Rendered} {fault : OutputFault}
    (hd : Separator.ofString? a.delimiter = some d) (hrenders : Renders s a d source)
    (hpaths : (writeRendered s source a.output none).paths = .error fault)
    (hcode : (GenerationFault.output fault).exit? = none) :
    (outcome a (generate s a.request)).exit = .error (.generation (.output fault)) := by
  obtain ⟨-, hoptions, entries, hload, hdeep, hfailures, rfl⟩ := hrenders
  obtain ⟨records, heq⟩ := generate_of_rendered (r := a.request) hd hload hdeep hoptions hfailures
  rw [heq]
  exact exit_of_no_code (result_finish_of_error hpaths) hcode

theorem exit_of_unread {fault : Table.LoadFault} (hload : Table.load s a.input = .error fault)
    (hcode : (GenerationFault.load a.input fault).exit? = none) :
    (outcome a (generate s a.request)).exit = .error (.generation (.load a.input fault)) := by
  obtain ⟨records, heq⟩ := generate_of_unread (r := a.request) hload
  rw [heq]
  exact exit_of_no_code rfl hcode

theorem exit_of_breaksDown (hd : Separator.ofString? a.delimiter = some d)
    (hstart : a.startFault? = none) (h : BreaksDown s a d b) :
    (outcome a (generate s a.request)).exit = .error b := by
  cases h with
  | listAtStart hfault => cases hstart.symm.trans hfault
  | inputName _ hload => exact exit_of_unread hload rfl
  | inputRefused _ hload => exact exit_of_unread hload rfl
  | inputLimit _ hload hlimit => exact exit_of_unread hload (if_pos hlimit)
  | deepKeys _ hload hdeep =>
    obtain ⟨records, heq⟩ :=
      generate_of_unrendered (r := a.request) hd hload (renderWithin_tooDeep hdeep)
    rw [heq]
    exact exit_of_no_code rfl rfl
  | listAsOption _ hload hdeep hoptions hlist =>
    obtain ⟨records, heq⟩ := generate_of_unrendered (r := a.request) hd hload
      (renderWithin_misconfigured hdeep hoptions)
    rw [heq]
    exact exit_of_result rfl (exit_eq_error_iff.mpr (.inl ⟨_, _, rfl, hlist, rfl⟩))
  | longNumber _ hload hdeep hoptions hbreakdown =>
    cases hfailures : failures (Tree.build d _).1 with
    | nil =>
      rw [hfailures] at hbreakdown
      cases hbreakdown
    | cons first others =>
      rw [hfailures] at hbreakdown
      obtain ⟨records, heq⟩ := generate_of_unrendered (r := a.request) hd hload
        (renderWithin_illegible hdeep hoptions hfailures hbreakdown)
      rw [heq]
      exact exit_of_no_code rfl rfl
  | outputName hrenders hlanguage houtput hname =>
    refine exit_of_output hd hrenders ?_ rfl
    obtain ⟨-, -, entries, -, -, -, rfl⟩ := hrenders
    rw [houtput]
    exact writeRendered_nameless ((header_source_ne_none_iff _ _).mpr hlanguage) hname
  | outputPath hrenders hpaths hfault =>
    exact exit_of_output hd hrenders hpaths (exit?_of_ofPath hfault)

theorem BreaksDown.eq_of_start {fault : ListFault} (h : BreaksDown s a d b)
    (hstart : a.startFault? = some fault) : b = .list fault := by
  cases h with
  | listAtStart hfault =>
    cases hstart.symm.trans hfault
    rfl
  | inputName hnone _ | inputRefused hnone _ | inputLimit hnone _ _ | deepKeys hnone _ _
  | listAsOption hnone _ _ _ _ | longNumber hnone _ _ _ _ =>
    cases hstart.symm.trans hnone
  | outputName hrenders _ _ _ | outputPath hrenders _ _ => cases hstart.symm.trans hrenders.start

theorem breakdown?_build_of_legible {entries : List Table.Entry}
    (h : ∀ entry ∈ entries, Legible entry) :
    Failure.breakdown? (failures (Tree.build d entries).1) = none := by
  have hlegible : ∀ entry ∈ (Tree.build d entries).1.inOrder, Legible entry := by
    intro entry hentry
    have hmem := (Tree.build d entries).1.inOrder_perm.mem_iff.mp hentry
    obtain ⟨leaf, hleaf, rfl⟩ := List.mem_map.mp hmem
    exact h leaf.2 (Key.mem_of_mem_leaves_build hleaf)
  rw [failures_eq]
  exact breakdown?_eq_none (not_breaks_of_legible hlegible)

theorem load_eq_error {p : Path} {fault : Table.LoadFault} (hp : s.machine.size p.text ≤ maxPath)
    (hnames : ∀ part ∈ p.parts, s.machine.size part ≤ maxName)
    (hseen : s.machine.refuses (.look p) = none) (h : Table.load s p = .error fault) :
    fault = .notFound ∨ (∃ words, fault = .unreadable words) ∨ ∃ reason, fault = .format reason := by
  obtain h | ⟨bytes, -, h⟩ := bind_eq_error_iff.mp h
  · unfold Table.inputBytes at h
    split at h
    · next hlook => exact absurd hlook (Store.look_ne_error hp hnames hseen)
    · next hlook => exact absurd hlook (Store.look_ne_error hp hnames hseen)
    · cases h
    · cases h
      exact .inr (.inl ⟨_, rfl⟩)
    · cases h
      exact .inl rfl
  · cases hread : Table.read p.suffix bytes with
    | error reason =>
      rw [hread] at h
      cases h
      exact .inr (.inr ⟨reason, rfl⟩)
    | ok entries =>
      rw [hread] at h
      cases h

theorem Moderate.not_tooDeep {entries : List Table.Entry} (h : Moderate s a)
    (hd : Separator.ofString? a.delimiter = some d) (hload : Table.load s a.input = .ok entries) :
    ¬ TooDeep s.machine a.request (Tree.build d entries).1 :=
  not_tooDeep_of_le fun walk =>
    Tree.depth_build_le fun entry hentry => h.keys entries hload entry hentry d hd walk

theorem Moderate.not_breaksDown (h : Moderate s a) (hd : Separator.ofString? a.delimiter = some d) :
    ¬ BreaksDown s a d b := by
  intro hbreaks
  cases hbreaks with
  | listAtStart hfault => simp [Arguments.startFault?, h.lists] at hfault
  | inputName _ hload =>
    obtain hfault | ⟨_, hfault⟩ | ⟨_, hfault⟩ :=
      load_eq_error h.inputPath h.inputNames h.inputSeen hload <;> cases hfault
  | inputRefused _ hload =>
    obtain hfault | ⟨_, hfault⟩ | ⟨_, hfault⟩ :=
      load_eq_error h.inputPath h.inputNames h.inputSeen hload <;> cases hfault
  | deepKeys _ hload hdeep => exact h.not_tooDeep hd hload hdeep
  | inputLimit _ hload hlimit =>
    rw [h.inputLimit _ hload] at hlimit
    cases hlimit
  | listAsOption _ _ _ _ hlist =>
    unfold Arguments.optionFault? at hlist
    split at hlist <;> simp [h.lists] at hlist
  | longNumber _ hload _ _ hbreakdown =>
    rw [breakdown?_build_of_legible (h.numbers _ hload)] at hbreakdown
    cases hbreakdown
  | outputName _ hlanguage houtput hname => exact h.outputName _ houtput hlanguage hname
  | outputPath _ hpaths hfault =>
    cases houtput : a.output with
    | none =>
      rw [houtput] at hpaths
      exact not_reported_of_ofPath hfault (reported_writeStream hpaths)
    | some output =>
      rw [houtput] at hpaths
      obtain hreported | ⟨-, -, rfl⟩ | ⟨-, hnot⟩ := writeRendered_eq_error hpaths
      · exact not_reported_of_ofPath hfault hreported
      · rcases hfault with hfault | hfault | hfault <;> cases hfault
      · exact hnot (h.output output houtput)

theorem exit_eq_error_iff_breaksDown {words : List String} :
    (run s words).exit = .error b ↔ ∃ a d, arguments words = .ok a ∧
      Separator.ofString? a.delimiter = some d ∧ BreaksDown s a d b := by
  constructor
  · intro h
    unfold run at h
    split at h
    · cases h
    · cases h
    · next a ha =>
      split_ifs at h with hempty
      obtain ⟨d, hd, -⟩ := Separator.ofString?_eq_some hempty
      refine ⟨a, d, ha, hd, ?_⟩
      cases hstart : a.startFault? with
      | some fault =>
        rw [hstart] at h
        cases h
        exact .listAtStart hstart
      | none =>
        rw [hstart] at h
        exact breaksDown_of_course hstart (generate_course s hd) h
  · rintro ⟨a, d, ha, hd, hbreaks⟩
    rw [run_of_arguments ha hd]
    cases hstart : a.startFault? with
    | some fault => rw [hbreaks.eq_of_start hstart]
    | none => exact exit_of_breaksDown hd hstart hbreaks

end breakdown

/-- A run ends with one of the exit codes unless something breaks it down, which ends it with no other
outcome and which no run with moderate arguments meets. -/
theorem exit_code_unless_breaksDown (s : Store) (words : List String) :
    ((∃ code, (run s words).exit = .ok code ∧ code.number ∈ [0, 64, 65, 74]) ↔
      ¬ ∃ a d b, arguments words = .ok a ∧ Separator.ofString? a.delimiter = some d ∧
        BreaksDown s a d b) ∧
    (∀ b, (run s words).exit = .error b ↔ ∃ a d, arguments words = .ok a ∧
      Separator.ofString? a.delimiter = some d ∧ BreaksDown s a d b) ∧
    ((∀ a, arguments words = .ok a → Moderate s a) →
      ∃ code, (run s words).exit = .ok code ∧ code.number ∈ [0, 64, 65, 74]) := by
  have hcode : (∃ code, (run s words).exit = .ok code ∧ code.number ∈ [0, 64, 65, 74]) ↔
      ¬ ∃ a d b, arguments words = .ok a ∧ Separator.ofString? a.delimiter = some d ∧
        BreaksDown s a d b := by
    constructor
    · rintro ⟨code, hexit, -⟩ ⟨a, d, b, ha, hd, hbreaks⟩
      cases hexit.symm.trans (exit_eq_error_iff_breaksDown.mpr ⟨a, d, ha, hd, hbreaks⟩)
    · intro hnone
      cases hexit : (run s words).exit with
      | ok code => exact ⟨code, rfl, by cases code <;> decide⟩
      | error b =>
        obtain ⟨a, d, ha, hd, hbreaks⟩ := exit_eq_error_iff_breaksDown.mp hexit
        exact absurd ⟨a, d, b, ha, hd, hbreaks⟩ hnone
  refine ⟨hcode, fun b => exit_eq_error_iff_breaksDown, fun hmoderate => hcode.mpr ?_⟩
  rintro ⟨a, d, b, ha, hd, hbreaks⟩
  exact (hmoderate a ha).not_breaksDown hd hbreaks

/-- A moderate run that writes a header and an implementation. -/
theorem exit_code_of_moderate_run :
    let words := ["-i", "a.strings", "-o", "b.m", "-l", "objc"]
    (∀ a, arguments words = .ok a → Moderate oneRow a) ∧
      (∃ code, (run oneRow words).exit = .ok code ∧ code.number ∈ [0, 64, 65, 74]) ∧
      (run oneRow words).exit = .ok .success ∧
      ((run oneRow words).store.bytes ⟨.relative, ["b.h"]⟩).isOk ∧
      ((run oneRow words).store.bytes ⟨.relative, ["b.m"]⟩).isOk := by
  intro words
  have hload : Table.load oneRow ⟨.relative, ["a.strings"]⟩ = .ok [⟨"a", "b"⟩] := by decide +kernel
  have hmoderate : ∀ a, arguments words = .ok a → Moderate oneRow a := by
    have ha : arguments words = .ok ⟨⟨.relative, ["a.strings"]⟩, some ⟨.relative, ["b.m"]⟩,
        { language := .objectiveC }, ".", false, []⟩ := by decide +kernel
    intro a hwords
    cases ha.symm.trans hwords
    exact {
      lists := rfl
      inputPath := by decide +kernel
      inputNames := by decide +kernel
      inputSeen := rfl
      inputLimit := fun reason hreason => by cases hload.symm.trans hreason
      keys := fun entries hentries entry hentry d hd walk => by
        have hdot : Separator.ofString? "." = some ⟨'.', []⟩ := by decide +kernel
        cases hload.symm.trans hentries
        cases hdot.symm.trans hd
        cases List.mem_singleton.mp hentry
        have hone : (Key.path ⟨'.', []⟩ "a").length = 1 := by decide +kernel
        rw [hone]
        cases walk <;> decide
      numbers := fun entries hentries entry hentry => by
        cases hload.symm.trans hentries
        cases List.mem_singleton.mp hentry
        exact ⟨[], by decide +kernel⟩
      output := fun output houtput => by
        cases houtput
        exact ⟨by decide +kernel, by decide +kernel, by decide +kernel⟩
      outputName := fun output houtput _ => by
        cases houtput
        decide +kernel }
  exact ⟨hmoderate, (exit_code_unless_breaksDown oneRow _).2.2 hmoderate, by decide +kernel,
    by decide +kernel, by decide +kernel⟩

/-- An output without a name ends a run for Objective-C with no exit code; one for Swift reports it. -/
theorem nameless_output_has_no_exit_code :
    (run oneRow ["-i", "a.strings", "-o", "", "-l", "objc"]).exit =
        .error (.generation (.output (.emptyName ⟨.relative, []⟩))) ∧
      (run oneRow ["-i", "a.strings", "-o", "", "-l", "swift"]).exit = .ok .inputOutput := by
  decide +kernel

end LocaleAccessors.CommandLine
