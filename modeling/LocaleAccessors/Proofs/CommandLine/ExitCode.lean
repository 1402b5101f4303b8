import LocaleAccessors.CommandLine.Run
import LocaleAccessors.Proofs.Course
import LocaleAccessors.Proofs.Files.Pair

/-!
What an exit code tells. It is that of the first step of the run that fails, in the order of loading,
options, translations and writing. A run with another code than that of success has changed no regular
file, as far as the system lets it clean up and restore, and it has printed nothing, unless the standard
output failed when a part of the source was there.
-/

namespace LocaleAccessors.CommandLine
open Files (Location Path Store)
open Format (inferText)
open Key (Tree)
open Source (translationsMessage)
open Text (CodePoint Separator codePoints)

/-- The exit code that the first fault of a run asks for. -/
def verdict (s : Store) (a : Arguments) (d : Separator) : ExitCode :=
  match Table.load s a.input with
  | .error _ => .inputOutput
  | .ok entries =>
    let tree := (Tree.build d entries).1
    if a.options.fault? ≠ none then .usage
    else if ∃ leaf ∈ tree.leaves, (inferText leaf.2.value).isOk = false then .data
    else
      match (writeRendered s (a.request.source tree) a.output none).paths with
      | .error _ => .inputOutput
      | .ok _ => .success

def failureLines (found : List Failure) : List (List CodePoint) :=
  errorLine (codePoints (translationsMessage found.length)) ::
    found.map fun f => errorLine (codePoints f.message)

def Arguments.targets (a : Arguments) : List Path :=
  match a.output with
  | none => []
  | some output =>
    match a.options.language with
    | .swift => [output]
    | .objectiveC => (headerPath output).toList ++ [output]

/-- A run comes to print its source, but the standard output fails when this much of it is there. -/
structure BreaksOff (s : Store) (a : Arguments) (d : Separator) (taken : String) : Prop where
  output : a.output = none
  options : a.options.fault? = none
  source : ∃ entries, Table.load s a.input = .ok entries ∧
    failures (Tree.build d entries).1 = [] ∧
    s.machine.stream.writeAll (a.request.source (Tree.build d entries).1).texts =
      (taken.toList, false)
  nonempty : taken ≠ ""

/-- What a run with an exit code leaves behind and prints. -/
structure Ended (s : Store) (a : Arguments) (d : Separator) (code : ExitCode) (o : Outcome) : Prop where
  code_eq : code = verdict s a d
  files_eq : code ≠ .success → ∀ l, o.store.file? l = s.file? l ∨ s.Left a.targets l ∨
    s.Unrestored a.targets l
  output_of_failure : code ≠ .success →
    o.output = "" ∧ (∀ taken, ¬ BreaksOff s a d taken) ∨ BreaksOff s a d o.output
  output_eq : code = .success → ∃ entries, Table.load s a.input = .ok entries ∧
    o.output = a.request.printed (Tree.build d entries).1
  messages_eq : code = .data → ∃ entries before, Table.load s a.input = .ok entries ∧
    o.messages = before ++ unlines (failureLines
      ((Tree.build d entries).1.inOrder.filterMap Failure.ofEntry?))

section verdict
variable {s : Store} {a : Arguments} {d : Separator} {entries : List Table.Entry}

theorem isOk_iff_no_failure (entry : Table.Entry) :
    (inferText entry.value).isOk = false ↔ Failure.ofEntry? entry ≠ none := by
  unfold Failure.ofEntry?
  cases inferText entry.value <;> simp [Except.isOk, Except.toBool]

theorem verdict_unread {fault : Table.LoadFault} (h : Table.load s a.input = .error fault) :
    verdict s a d = .inputOutput := by
  rw [verdict, h]

theorem verdict_misconfigured {fault : OptionFault} (hload : Table.load s a.input = .ok entries)
    (hoptions : a.options.fault? = some fault) : verdict s a d = .usage := by
  simp [verdict, hload, hoptions]

theorem verdict_untranslated {first : Failure} {others : List Failure}
    (hload : Table.load s a.input = .ok entries) (hoptions : a.options.fault? = none)
    (hfailures : failures (Tree.build d entries).1 = first :: others) : verdict s a d = .data := by
  have hleaf : ∃ leaf ∈ (Tree.build d entries).1.leaves, (inferText leaf.2.value).isOk = false := by
    by_contra hnone
    have hnil : failures (Tree.build d entries).1 = [] := by
      refine (failures_eq_nil_iff _).mpr fun leaf hleaf => ?_
      by_contra hfault
      exact hnone ⟨leaf, hleaf, (isOk_iff_no_failure leaf.2).mpr hfault⟩
    rw [hnil] at hfailures
    cases hfailures
  simp only [verdict, hload, hoptions, ne_eq, not_true_eq_false, if_false, if_pos hleaf]

theorem verdict_rendered (hload : Table.load s a.input = .ok entries)
    (hoptions : a.options.fault? = none) (hfailures : failures (Tree.build d entries).1 = []) :
    verdict s a d =
      match (writeRendered s (a.request.source (Tree.build d entries).1) a.output none).paths with
      | .error _ => .inputOutput
      | .ok _ => .success := by
  have hleaf : ¬ ∃ leaf ∈ (Tree.build d entries).1.leaves, (inferText leaf.2.value).isOk = false := by
    rintro ⟨leaf, hleaf, hfault⟩
    exact (isOk_iff_no_failure leaf.2).mp hfault ((failures_eq_nil_iff _).mp hfailures leaf hleaf)
  simp only [verdict, hload, hoptions, ne_eq, not_true_eq_false, if_false, if_neg hleaf]

end verdict

theorem exit_eq_ok {a : Arguments} {fault : GenerationFault} {code : ExitCode}
    (h : a.exit fault = .ok code) : fault.exit? = some code := by
  unfold Arguments.exit at h
  dsimp only at h
  split at h
  · cases h
  · next hcode =>
    cases h
    exact hcode
  · cases h

section outcome
variable {a : Arguments} {r : Run} {code : ExitCode}

theorem outcome_of_error {fault : GenerationFault} (hr : r.result = .error fault)
    (h : (outcome a r).exit = .ok code) :
    fault.exit? = some code ∧ (outcome a r).store = r.store ∧ (outcome a r).output = r.stream ∧
      (outcome a r).messages = unlines (shownRecords a.verbose r.records) ++
        unlines (fault.messages.map errorLine) := by
  unfold outcome at h ⊢
  rw [hr] at h ⊢
  dsimp only at h ⊢
  cases hexit : a.exit fault with
  | error breakdown =>
    rw [hexit] at h
    cases h
  | ok found =>
    rw [hexit] at h
    cases h
    exact ⟨exit_eq_ok hexit, rfl, rfl, List.flatMap_append⟩

theorem outcome_of_ok {summary : Summary} (hr : r.result = .ok summary) :
    (outcome a r).exit = .ok .success ∧ (outcome a r).output = r.stream := by
  unfold outcome
  rw [hr]
  exact ⟨rfl, rfl⟩

end outcome

theorem run_of_arguments {s : Store} {words : List String} {a : Arguments} {d : Separator}
    (ha : arguments words = .ok a) (hd : Separator.ofString? a.delimiter = some d) :
    run s words =
      match a.startFault? with
      | some fault => ⟨s, "", [], .error (.list fault)⟩
      | none => outcome a (generate s a.request) := by
  have hdelimiter : a.delimiter ≠ "" := by
    intro hempty
    rw [hempty] at hd
    cases hd
  rw [run, ha]
  exact if_neg hdelimiter

theorem run_of_started {s : Store} {words : List String} {a : Arguments} {d : Separator}
    (ha : arguments words = .ok a) (hd : Separator.ofString? a.delimiter = some d)
    (hstart : a.startFault? = none) : run s words = outcome a (generate s a.request) := by
  rw [run_of_arguments ha hd, hstart]

theorem exit?_load {p : Path} {fault : Table.LoadFault} {code : ExitCode}
    (h : (GenerationFault.load p fault).exit? = some code) : code = .inputOutput := by
  cases fault with
  | notFound =>
    cases h
    rfl
  | nameTooLong | refused _ => cases h
  | unreadable words =>
    cases h
    rfl
  | format reason =>
    rw [GenerationFault.exit?] at h
    split_ifs at h
    cases h
    rfl

theorem exit?_output {fault : OutputFault} {code : ExitCode}
    (h : (GenerationFault.output fault).exit? = some code) : code = .inputOutput := by
  cases fault <;> cases h <;> rfl

/-! What is left and printed where the run does not succeed. -/

section broken
variable {s : Store} {a : Arguments} {d : Separator} {taken : String} {entries : List Table.Entry}

theorem not_breaksOff_unread {fault : Table.LoadFault} (h : Table.load s a.input = .error fault) :
    ¬ BreaksOff s a d taken := by
  rintro ⟨-, -, ⟨entries, hload, -⟩, -⟩
  cases h.symm.trans hload

theorem not_breaksOff_misconfigured {fault : OptionFault} (h : a.options.fault? = some fault) :
    ¬ BreaksOff s a d taken := by
  rintro ⟨-, hoptions, -⟩
  cases h.symm.trans hoptions

theorem not_breaksOff_untranslated {first : Failure} {others : List Failure}
    (hload : Table.load s a.input = .ok entries)
    (h : failures (Tree.build d entries).1 = first :: others) : ¬ BreaksOff s a d taken := by
  rintro ⟨-, -, ⟨found, hfound, hnone, -⟩, -⟩
  cases hload.symm.trans hfound
  cases h.symm.trans hnone

theorem not_breaksOff_of_output {output : Path} (h : a.output = some output) :
    ¬ BreaksOff s a d taken := by
  rintro ⟨houtput, -⟩
  cases h.symm.trans houtput

theorem breaksOff_iff (houtput : a.output = none) (hoptions : a.options.fault? = none)
    (hload : Table.load s a.input = .ok entries)
    (hfailures : failures (Tree.build d entries).1 = []) :
    BreaksOff s a d taken ↔
      s.machine.stream.writeAll (a.request.source (Tree.build d entries).1).texts =
        (taken.toList, false) ∧ taken ≠ "" := by
  constructor
  · rintro ⟨-, -, ⟨found, hfound, -, hstream⟩, hnonempty⟩
    cases hload.symm.trans hfound
    exact ⟨hstream, hnonempty⟩
  · rintro ⟨hstream, hnonempty⟩
    exact ⟨houtput, hoptions, ⟨entries, hload, hfailures, hstream⟩, hnonempty⟩

/-- What is printed before the standard output fails is the beginning of the source. -/
theorem BreaksOff.begins (h : BreaksOff s a d taken) :
    ∃ entries, Table.load s a.input = .ok entries ∧
      taken.toList <+: (String.join (a.request.source (Tree.build d entries).1).texts).toList := by
  obtain ⟨entries, hload, -, hstream⟩ := h.source
  have hprefix := s.machine.stream.writeAll_prefix (a.request.source (Tree.build d entries).1).texts
  rw [hstream] at hprefix
  exact ⟨entries, hload, by rwa [String.toList_join]⟩

theorem output_of_broken {fault : OutputFault} (houtput : a.output = none)
    (hoptions : a.options.fault? = none) (hload : Table.load s a.input = .ok entries)
    (hfailures : failures (Tree.build d entries).1 = [])
    (hpaths : (writeStream s (a.request.source (Tree.build d entries).1).texts).paths =
      .error fault) :
    (writeStream s (a.request.source (Tree.build d entries).1).texts).stream = "" ∧
        (∀ taken, ¬ BreaksOff s a d taken) ∨
      BreaksOff s a d (writeStream s (a.request.source (Tree.build d entries).1).texts).stream := by
  simp only [breaksOff_iff houtput hoptions hload hfailures]
  unfold writeStream at hpaths ⊢
  dsimp only at hpaths ⊢
  generalize s.machine.stream.writeAll (a.request.source (Tree.build d entries).1).texts = written
    at hpaths ⊢
  obtain ⟨taken, whole⟩ := written
  cases whole with
  | true => cases hpaths
  | false =>
    by_cases hnothing : taken = []
    · refine .inl ⟨by rw [hnothing, String.ofList_nil], fun text htext => htext.2 ?_⟩
      have htaken := congrArg Prod.fst htext.1
      exact String.toList_inj.mp (htaken.symm.trans (hnothing.trans String.toList_empty.symm))
    · refine .inr ⟨by rw [String.toList_ofList], fun hempty => hnothing ?_⟩
      rw [← String.toList_ofList (l := taken), hempty, String.toList_empty]

end broken

theorem targets_of_files? {a : Arguments} {tree : Tree} {output : Path}
    {files : List (Path × String)} (houtput : a.output = some output)
    (h : (a.request.source tree).files? output none = some files) :
    files.map Prod.fst = a.targets := by
  have hlanguage : a.request.resolved.language = a.options.language := resolved_language a.request
  unfold Source.Rendered.files? Request.source Source.sourceOf at h
  rw [hlanguage] at h
  simp only [Arguments.targets, houtput]
  cases hobjc : a.options.language with
  | swift =>
    simp only [hobjc] at h
    cases h
    rfl
  | objectiveC =>
    simp only [hobjc] at h
    obtain ⟨header, hheader, rfl⟩ := Option.map_eq_some_iff.mp h
    have hpath : headerPath output = some header := hheader
    simp [hpath]

/-- Writing to a path that fails prints nothing and changes no regular file, as far as the system lets it
clean up and restore. -/
theorem files_of_failed {s : Store} {a : Arguments} {tree : Tree} {output : Path}
    {fault : OutputFault} (houtput : a.output = some output)
    (h : (writeRendered s (a.request.source tree) (some output) none).paths = .error fault)
    (l : Location) :
    (writeRendered s (a.request.source tree) (some output) none).store.file? l = s.file? l ∨
      s.Left a.targets l ∨ s.Unrestored a.targets l := by
  cases hfiles : (a.request.source tree).files? output none with
  | none =>
    rw [writeRendered_of_no_files? hfiles]
    exact .inl rfl
  | some files =>
    rw [writeRendered_of_files? hfiles] at h ⊢
    have hall := writeFiles_allOrNothing s files
    rw [h] at hall
    rw [← targets_of_files? houtput hfiles]
    exact hall.restored (apart_files? hfiles) l

theorem Ended.of_silent {s : Store} {a : Arguments} {d : Separator} {code : ExitCode} {o : Outcome}
    (hcode : code = verdict s a d) (hsuccess : code ≠ .success) (hdata : code ≠ .data)
    (houtput : o.output = "") (hbreaks : ∀ taken, ¬ BreaksOff s a d taken)
    (hstore : o.store = s) : Ended s a d code o where
  code_eq := hcode
  files_eq := fun _ l => .inl (by rw [hstore])
  output_of_failure := fun _ => .inl ⟨houtput, hbreaks⟩
  output_eq := fun h => absurd h hsuccess
  messages_eq := fun h => absurd h hdata

theorem ended_of_unwritten {s : Store} {a : Arguments} {d : Separator} {entries : List Table.Entry}
    {fault : OutputFault} {o : Outcome} (hload : Table.load s a.input = .ok entries)
    (hoptions : a.options.fault? = none) (hfailures : failures (Tree.build d entries).1 = [])
    (hpaths : (writeRendered s (a.request.source (Tree.build d entries).1) a.output none).paths =
      .error fault)
    (hstore : o.store =
      (writeRendered s (a.request.source (Tree.build d entries).1) a.output none).store)
    (hstream : o.output =
      (writeRendered s (a.request.source (Tree.build d entries).1) a.output none).stream) :
    Ended s a d .inputOutput o := by
  have hverdict := verdict_rendered (d := d) hload hoptions hfailures
  rw [hpaths] at hverdict
  refine ⟨hverdict.symm, fun _ => ?_, fun _ => ?_, nofun, nofun⟩
  · rw [hstore]
    cases houtput : a.output with
    | none => exact fun l => .inl rfl
    | some output =>
      rw [houtput] at hpaths
      exact files_of_failed houtput hpaths
  · rw [hstream]
    cases houtput : a.output with
    | none =>
      rw [houtput] at hpaths
      exact output_of_broken houtput hoptions hload hfailures hpaths
    | some output =>
      exact .inl ⟨writeRendered_stream s _ output none, fun _ => not_breaksOff_of_output houtput⟩

theorem ended_of_written {s : Store} {a : Arguments} {d : Separator} {entries : List Table.Entry}
    {paths : List Path} {o : Outcome} (hload : Table.load s a.input = .ok entries)
    (hoptions : a.options.fault? = none) (hfailures : failures (Tree.build d entries).1 = [])
    (hpaths : (writeRendered s (a.request.source (Tree.build d entries).1) a.output none).paths =
      .ok paths)
    (hstream : o.output =
      (writeRendered s (a.request.source (Tree.build d entries).1) a.output none).stream) :
    Ended s a d .success o := by
  have hverdict := verdict_rendered (d := d) hload hoptions hfailures
  rw [hpaths] at hverdict
  have hprinted := writeRendered_printed (r := a.request) hpaths
  exact {
    code_eq := hverdict.symm
    files_eq := fun h => absurd rfl h
    output_of_failure := fun h => absurd rfl h
    output_eq := fun _ => ⟨entries, hload, hstream.trans hprinted⟩
    messages_eq := nofun }

theorem ended_of_untranslated {s : Store} {a : Arguments} {d : Separator}
    {entries : List Table.Entry} {first : Failure} {others : List Failure} {o : Outcome}
    {before : List CodePoint} (hload : Table.load s a.input = .ok entries)
    (hoptions : a.options.fault? = none)
    (hfailures : failures (Tree.build d entries).1 = first :: others) (hstore : o.store = s)
    (houtput : o.output = "") (hmessages : o.messages = before ++
      unlines ((GenerationFault.translations first others).messages.map errorLine)) :
    Ended s a d .data o := by
  have hlines : failureLines ((Tree.build d entries).1.inOrder.filterMap Failure.ofEntry?) =
      (GenerationFault.translations first others).messages.map errorLine := by
    rw [← failures_eq, hfailures]
    simp [failureLines, GenerationFault.messages]
  exact {
    code_eq := (verdict_untranslated hload hoptions hfailures).symm
    files_eq := fun _ l => .inl (by rw [hstore])
    output_of_failure := fun _ =>
      .inl ⟨houtput, fun _ => not_breaksOff_untranslated hload hfailures⟩
    output_eq := nofun
    messages_eq := fun _ => ⟨entries, before, hload, hlines ▸ hmessages⟩ }

theorem ended_of_course {s : Store} {a : Arguments} {d : Separator} {r : Run} {code : ExitCode}
    (hcourse : Course s a.request d r) (hcode : (outcome a r).exit = .ok code) :
    Ended s a d code (outcome a r) := by
  cases hcourse with
  | unread hload =>
    obtain ⟨hexit, hstore, houtput, -⟩ := outcome_of_error rfl hcode
    obtain rfl := exit?_load hexit
    exact .of_silent (verdict_unread hload).symm nofun nofun houtput
      (fun _ => not_breaksOff_unread hload) hstore
  | tooDeep hload hdeep =>
    obtain ⟨hexit, -⟩ := outcome_of_error rfl hcode
    cases hexit
  | misconfigured hload hdeep hoptions =>
    obtain ⟨hexit, hstore, houtput, -⟩ := outcome_of_error rfl hcode
    cases hexit
    exact .of_silent (verdict_misconfigured hload hoptions).symm nofun nofun houtput
      (fun _ => not_breaksOff_misconfigured hoptions) hstore
  | illegible hload hdeep hoptions hbreakdown =>
    obtain ⟨hexit, -⟩ := outcome_of_error rfl hcode
    cases hexit
  | untranslated hload hdeep hoptions hfailures =>
    obtain ⟨hexit, hstore, houtput, hmessages⟩ := outcome_of_error rfl hcode
    cases hexit
    exact ended_of_untranslated hload hoptions hfailures hstore houtput hmessages
  | @rendered entries records hload hdeep hoptions hfailures =>
    obtain ⟨fault, hpaths, hresult⟩ | ⟨paths, summary, hpaths, hresult⟩ := result_finish s a.request
      entries (Tree.build d entries).1 (a.request.source (Tree.build d entries).1) records
    · obtain ⟨hexit, hstore, houtput, -⟩ := outcome_of_error hresult hcode
      obtain rfl := exit?_output hexit
      exact ended_of_unwritten hload hoptions hfailures hpaths hstore houtput
    · obtain ⟨hexit, houtput⟩ := outcome_of_ok (a := a) hresult
      cases hexit.symm.trans hcode
      exact ended_of_written hload hoptions hfailures hpaths houtput

/-- An exit code tells the first fault of a run, and no other run than a successful one has an effect. -/
theorem exit_code_tells_fault {s : Store} {words : List String} {a : Arguments} {d : Separator}
    {code : ExitCode} (ha : arguments words = .ok a) (hd : Separator.ofString? a.delimiter = some d)
    (hcode : (run s words).exit = .ok code) : Ended s a d code (run s words) := by
  rw [run_of_arguments ha hd] at hcode ⊢
  split at hcode
  · cases hcode
  · exact ended_of_course (generate_course s hd) hcode

/-- A translation at fault counts before an output that cannot be written. -/
theorem exit_code_of_translation_and_output :
    let s : Store :=
      { working := []
        nodes := [(["a.strings"], .file (Text.Utf8.encode "\"a\" = \"%1$d %d\";\n"))] }
    let a : Arguments :=
      ⟨⟨.relative, ["a.strings"]⟩, some ⟨.relative, [".."]⟩, {}, ".", false, []⟩
    arguments ["-i", "a.strings", "-o", ".."] = .ok a ∧
      Separator.ofString? a.delimiter = some ⟨'.', []⟩ ∧
      (run s ["-i", "a.strings", "-o", ".."]).exit = .ok .data ∧
      Ended s a ⟨'.', []⟩ .data (run s ["-i", "a.strings", "-o", ".."]) := by
  intro s a
  have ha : arguments ["-i", "a.strings", "-o", ".."] = .ok a := by decide +kernel
  have hd : Separator.ofString? a.delimiter = some ⟨'.', []⟩ := by decide +kernel
  have hcode : (run s ["-i", "a.strings", "-o", ".."]).exit = .ok .data := by decide +kernel
  exact ⟨ha, hd, hcode, exit_code_tells_fault ha hd hcode⟩

/-- A run whose stream fails ends with an exit code all the same, and what the stream has taken is there. -/
theorem run_of_broken_stream {s : Store} {words : List String} {a : Arguments} {d : Separator}
    {entries : List Table.Entry} {taken : List Char} (ha : arguments words = .ok a)
    (hd : Separator.ofString? a.delimiter = some d) (hstart : a.startFault? = none)
    (hload : Table.load s a.input = .ok entries)
    (hdeep : ¬ TooDeep s.machine a.request (Tree.build d entries).1)
    (hoptions : a.options.fault? = none) (hfailures : failures (Tree.build d entries).1 = [])
    (houtput : a.output = none)
    (hstream : s.machine.stream.writeAll (a.request.source (Tree.build d entries).1).texts =
      (taken, false)) :
    (run s words).exit = .ok .inputOutput ∧ (run s words).output = String.ofList taken := by
  obtain ⟨records, hrun⟩ :=
    generate_of_rendered (r := a.request) hd hload hdeep hoptions hfailures
  have hwritten : writeRendered s (a.request.source (Tree.build d entries).1) a.request.output none =
      ⟨s, String.ofList taken, [], .error (.stream s.machine.stream.words)⟩ := by
    have hnone : a.request.output = none := houtput
    rw [hnone, writeRendered, writeStream, hstream]
    rfl
  have hresult : (generate s a.request).result =
      .error (.output (.stream s.machine.stream.words)) := by
    rw [hrun]
    exact result_finish_of_error (by rw [hwritten])
  have hexit : (outcome a (generate s a.request)).exit = .ok .inputOutput := by
    unfold outcome
    rw [hresult]
    rfl
  obtain ⟨-, -, hprinted, -⟩ := outcome_of_error hresult hexit
  rw [run_of_started ha hd hstart]
  refine ⟨hexit, ?_⟩
  rw [hprinted, hrun, stream_finish, hwritten]

/-- A table of one row, and a standard output with no form for a byte of the command line that is no
text. -/
def strictOutput : Store :=
  { working := []
    nodes := [(["a.strings"], .file (Text.Utf8.encode "\"a\" = \"b\";\n"))]
    machine :=
      { Files.Machine.plain with
        standIns := [('\uE000', .byte)]
        foreign := by decide
        stream := { forbidden := ['\uE000'], words := "surrogates not allowed" } } }

def tableOfBytes : Arguments :=
  ⟨⟨.relative, ["a.strings"]⟩, none, { language := .objectiveC, tableName := some "\uE000" }, ".",
    false, []⟩

theorem mem_fileText_iff {c : Char} {lines : List String} (hc : c ≠ '\n') :
    c ∈ (Source.fileText lines).toList ↔ ∃ line ∈ lines, c ∈ line.toList := by
  simp [Source.fileText, String.toList_join, hc]

/-- The name of a strings table is only in the implementation. The header is printed before the standard
output refuses it, and the run does not succeed. -/
theorem header_printed_before_failure :
    let words := ["-i", "a.strings", "-l", "objc", "-t", "\uE000"]
    let source := tableOfBytes.request.source (.leaf "a" ⟨"a", "b"⟩ .nil)
    arguments words = .ok tableOfBytes ∧ (run strictOutput words).exit = .ok .inputOutput ∧
      source.header = some (run strictOutput words).output ∧
      (run strictOutput words).output ≠ "" := by
  intro words source
  let o := tableOfBytes.request.resolved
  let root := Source.namespaceOf o (.leaf "a" ⟨"a", "b"⟩ .nil)
  have ha : arguments words = .ok tableOfBytes := by decide +kernel
  have hload : Table.load strictOutput tableOfBytes.input = .ok [⟨"a", "b"⟩] := by decide +kernel
  have htree : (Tree.build ⟨'.', []⟩ [⟨"a", "b"⟩]).1 = .leaf "a" ⟨"a", "b"⟩ .nil := by decide +kernel
  have hdeep : ¬ TooDeep strictOutput.machine tableOfBytes.request
      (Tree.build ⟨'.', []⟩ [⟨"a", "b"⟩]).1 := by
    rw [htree]
    exact not_tooDeep_of_le fun walk => by cases walk <;> decide
  -- Only the implementation has the byte, in the name of the table.
  have hheader : '\uE000' ∉ (Source.ObjectiveC.header o root).toList := by
    rw [Source.ObjectiveC.header, mem_fileText_iff (by decide)]
    decide +kernel
  have himplementation : '\uE000' ∈ (Source.ObjectiveC.implementationFile o root).toList := by
    rw [Source.ObjectiveC.implementationFile, mem_fileText_iff (by decide)]
    decide +kernel
  have hsource : source = ⟨.objectiveC, Source.ObjectiveC.implementationFile o root,
      some (Source.ObjectiveC.header o root)⟩ := rfl
  have htexts : source.texts =
      [Source.ObjectiveC.header o root, Source.ObjectiveC.implementationFile o root] := by
    rw [hsource, Source.Rendered.texts, Option.toList_some, List.singleton_append]
  have hstream : strictOutput.machine.stream.writeAll
      (tableOfBytes.request.source (Tree.build ⟨'.', []⟩ [⟨"a", "b"⟩]).1).texts =
        ((Source.ObjectiveC.header o root).toList, false) := by
    rw [htree, htexts]
    exact Files.Stream.writeAll_of_refused rfl (List.forall_mem_singleton.mpr hheader)
      ⟨'\uE000', List.mem_singleton_self _, himplementation⟩
  obtain ⟨hexit, hprinted⟩ := run_of_broken_stream ha (d := ⟨'.', []⟩) (by decide +kernel) rfl hload
    hdeep rfl (by decide +kernel) rfl hstream
  rw [String.ofList_toList] at hprinted
  refine ⟨ha, hexit, by rw [hprinted, hsource], ?_⟩
  rw [hprinted]
  intro hempty
  have hslash : '/' ∈ (Source.ObjectiveC.header o root).toList := by
    rw [Source.ObjectiveC.header, mem_fileText_iff (by decide)]
    exact ⟨"//", by simp [Source.banner], by decide⟩
  rw [hempty] at hslash
  exact absurd hslash (by decide)

end LocaleAccessors.CommandLine
