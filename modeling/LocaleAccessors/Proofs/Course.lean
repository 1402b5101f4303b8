import LocaleAccessors.Proofs.Files.AllOrNothing
import LocaleAccessors.Proofs.Files.Stream
import LocaleAccessors.Proofs.Key.Order
import LocaleAccessors.Proofs.Namespace.Failures

/-!
How far a run comes. It ends at the first of its steps that fails, with the fault of that step, and
until the source is written nothing has changed and nothing is on the stream.
-/

namespace LocaleAccessors
open Files (Machine Path Store)
open Key (Tree)
open Source (Rendered namespaceOf sourceOf)
open Table (Entry LoadFault)
open Text (Separator)

/-- The source that a request makes of a tree, where nothing is at fault. -/
def Request.source (r : Request) (tree : Tree) : Rendered :=
  sourceOf r.resolved (namespaceOf r.resolved tree)

theorem fault?_resolved (r : Request) : r.resolved.fault? = r.options.fault? := by
  unfold Request.resolved
  split <;> rfl

theorem build?_of_ofString? {delimiter : String} {d : Separator}
    (h : Separator.ofString? delimiter = some d) (entries : List Entry) :
    Tree.build? delimiter entries = some (Tree.build d entries) := by
  unfold Tree.build?
  rw [h]
  cases entries <;> rfl

/-- A walk that a run comes to goes deeper than the stack. The tree is counted before the options are
looked at, and rendered only when nothing is at fault. -/
inductive TooDeep (machine : Machine) (r : Request) (tree : Tree) : Prop
  | counting (deep : machine.levels .counting < tree.depth)
  | building (options : r.options.fault? = none) (deep : machine.levels .building < tree.depth)
  | rendering (options : r.options.fault? = none) (failures : failures tree = [])
      (deep : machine.levels .rendering < tree.depth)

theorem not_tooDeep_of_le {machine : Machine} {r : Request} {tree : Tree}
    (h : ∀ walk, tree.depth ≤ machine.levels walk) : ¬ TooDeep machine r tree := by
  rintro (hdeep | ⟨-, hdeep⟩ | ⟨-, -, hdeep⟩)
  · exact (h .counting).not_gt hdeep
  · exact (h .building).not_gt hdeep
  · exact (h .rendering).not_gt hdeep

section render
variable {r : Request} {tree : Tree} {first : Failure} {others : List Failure}

theorem render_misconfigured {fault : OptionFault} (hoptions : r.options.fault? = some fault) :
    Source.render r.resolved tree = .error (.options fault) := by
  rw [Source.render, fault?_resolved, hoptions]

theorem render_refused (hoptions : r.options.fault? = none)
    (hfailures : failures tree = first :: others) :
    Source.render r.resolved tree = .error (Source.refusal first others) := by
  rw [Source.render, fault?_resolved, hoptions, hfailures]

theorem render_source (hoptions : r.options.fault? = none) (hfailures : failures tree = []) :
    Source.render r.resolved tree = .ok (r.source tree) := by
  rw [Source.render, fault?_resolved, hoptions, hfailures]
  rfl

end render

section within
variable {machine : Machine} {r : Request} {tree : Tree} {first : Failure} {others : List Failure}

theorem renderWithin_tooDeep (h : TooDeep machine r tree) :
    renderWithin machine r tree = .error .tooDeep := by
  unfold renderWithin
  by_cases hcounted : machine.levels .counting < tree.depth
  · rw [if_pos hcounted]
  rw [if_neg hcounted]
  cases h with
  | counting hdeep => exact absurd hdeep hcounted
  | building hoptions hdeep =>
    cases hfailures : failures tree with
    | nil => simp only [render_source hoptions hfailures, if_pos hdeep]
    | cons first others =>
      rw [render_refused hoptions hfailures, Source.refusal]
      cases Failure.breakdown? (first :: others) <;> simp only [if_pos hdeep]
  | rendering hoptions hfailures hdeep =>
    simp only [render_source hoptions hfailures, if_pos hdeep, ite_self]

theorem renderWithin_misconfigured {fault : OptionFault} (hdeep : ¬ TooDeep machine r tree)
    (hoptions : r.options.fault? = some fault) :
    renderWithin machine r tree = .error (.options fault) := by
  unfold renderWithin
  rw [if_neg fun h => hdeep (.counting h), render_misconfigured hoptions]

theorem renderWithin_illegible {fault : Format.Fault} (hdeep : ¬ TooDeep machine r tree)
    (hoptions : r.options.fault? = none) (hfailures : failures tree = first :: others)
    (hbreakdown : Failure.breakdown? (first :: others) = some fault) :
    renderWithin machine r tree = .error (.breakdown fault) := by
  unfold renderWithin
  rw [if_neg fun h => hdeep (.counting h), render_refused hoptions hfailures, Source.refusal,
    hbreakdown]
  exact if_neg fun h => hdeep (.building hoptions h)

theorem renderWithin_untranslated (hdeep : ¬ TooDeep machine r tree)
    (hoptions : r.options.fault? = none) (hfailures : failures tree = first :: others)
    (hbreakdown : Failure.breakdown? (first :: others) = none) :
    renderWithin machine r tree = .error (.translations first others) := by
  unfold renderWithin
  rw [if_neg fun h => hdeep (.counting h), render_refused hoptions hfailures, Source.refusal,
    hbreakdown]
  exact if_neg fun h => hdeep (.building hoptions h)

theorem renderWithin_source (hdeep : ¬ TooDeep machine r tree) (hoptions : r.options.fault? = none)
    (hfailures : failures tree = []) : renderWithin machine r tree = .ok (r.source tree) := by
  unfold renderWithin
  rw [if_neg fun h => hdeep (.counting h), render_source hoptions hfailures]
  simp only [if_neg fun h => hdeep (.building hoptions h),
    if_neg fun h => hdeep (.rendering hoptions hfailures h)]

end within

section steps
variable {s : Store} {r : Request} {d : Separator} {entries : List Entry}

theorem generate_of_unread {fault : LoadFault} (hload : Table.load s r.input = .error fault) :
    ∃ records, generate s r = ⟨s, "", records, .error (.load r.input fault)⟩ := by
  unfold generate
  rw [hload]
  exact ⟨_, rfl⟩

theorem generate_of_unrendered {fault : GenerationFault}
    (hd : Separator.ofString? r.delimiter = some d) (hload : Table.load s r.input = .ok entries)
    (hrender : renderWithin s.machine r (Tree.build d entries).1 = .error fault) :
    ∃ records, generate s r = ⟨s, "", records, .error fault⟩ := by
  simp only [generate, hload, build?_of_ofString? hd, hrender]
  exact ⟨_, rfl⟩

theorem generate_of_rendered (hd : Separator.ofString? r.delimiter = some d)
    (hload : Table.load s r.input = .ok entries)
    (hdeep : ¬ TooDeep s.machine r (Tree.build d entries).1) (hoptions : r.options.fault? = none)
    (hfailures : failures (Tree.build d entries).1 = []) :
    ∃ records, generate s r = finish s r entries (Tree.build d entries).1
      (r.source (Tree.build d entries).1) records := by
  simp only [generate, hload, build?_of_ofString? hd, renderWithin_source hdeep hoptions hfailures]
  exact ⟨_, rfl⟩

end steps

/-- The runs of a request, one kind for each step at which they can end. -/
inductive Course (s : Store) (r : Request) (d : Separator) : Run → Prop
  | unread {fault : LoadFault} {records : List Record} :
      Table.load s r.input = .error fault →
        Course s r d ⟨s, "", records, .error (.load r.input fault)⟩
  | tooDeep {entries : List Entry} {records : List Record} :
      Table.load s r.input = .ok entries → TooDeep s.machine r (Tree.build d entries).1 →
        Course s r d ⟨s, "", records, .error .tooDeep⟩
  | misconfigured {entries : List Entry} {fault : OptionFault} {records : List Record} :
      Table.load s r.input = .ok entries → ¬ TooDeep s.machine r (Tree.build d entries).1 →
        r.options.fault? = some fault → Course s r d ⟨s, "", records, .error (.options fault)⟩
  | illegible {entries : List Entry} {fault : Format.Fault} {records : List Record} :
      Table.load s r.input = .ok entries → ¬ TooDeep s.machine r (Tree.build d entries).1 →
        r.options.fault? = none →
        Failure.breakdown? (failures (Tree.build d entries).1) = some fault →
          Course s r d ⟨s, "", records, .error (.breakdown fault)⟩
  | untranslated {entries : List Entry} {first : Failure} {others : List Failure}
      {records : List Record} :
      Table.load s r.input = .ok entries → ¬ TooDeep s.machine r (Tree.build d entries).1 →
        r.options.fault? = none → failures (Tree.build d entries).1 = first :: others →
        Failure.breakdown? (first :: others) = none →
          Course s r d ⟨s, "", records, .error (.translations first others)⟩
  | rendered {entries : List Entry} {records : List Record} :
      Table.load s r.input = .ok entries → ¬ TooDeep s.machine r (Tree.build d entries).1 →
        r.options.fault? = none → failures (Tree.build d entries).1 = [] →
          Course s r d (finish s r entries (Tree.build d entries).1
            (r.source (Tree.build d entries).1) records)

theorem generate_course {r : Request} {d : Separator} (s : Store)
    (hd : Separator.ofString? r.delimiter = some d) : Course s r d (generate s r) := by
  cases hload : Table.load s r.input with
  | error fault =>
    obtain ⟨records, heq⟩ := generate_of_unread hload
    exact heq ▸ .unread hload
  | ok entries =>
    by_cases hdeep : TooDeep s.machine r (Tree.build d entries).1
    · obtain ⟨records, heq⟩ := generate_of_unrendered hd hload (renderWithin_tooDeep hdeep)
      exact heq ▸ .tooDeep hload hdeep
    cases hoptions : r.options.fault? with
    | some fault =>
      obtain ⟨records, heq⟩ :=
        generate_of_unrendered hd hload (renderWithin_misconfigured hdeep hoptions)
      exact heq ▸ .misconfigured hload hdeep hoptions
    | none =>
      cases hfailures : failures (Tree.build d entries).1 with
      | cons first others =>
        cases hbreakdown : Failure.breakdown? (first :: others) with
        | some fault =>
          obtain ⟨records, heq⟩ := generate_of_unrendered hd hload
            (renderWithin_illegible hdeep hoptions hfailures hbreakdown)
          exact heq ▸ .illegible hload hdeep hoptions (hfailures ▸ hbreakdown)
        | none =>
          obtain ⟨records, heq⟩ := generate_of_unrendered hd hload
            (renderWithin_untranslated hdeep hoptions hfailures hbreakdown)
          exact heq ▸ .untranslated hload hdeep hoptions hfailures hbreakdown
      | nil =>
        obtain ⟨records, heq⟩ := generate_of_rendered hd hload hdeep hoptions hfailures
        exact heq ▸ .rendered hload hdeep hoptions hfailures

theorem failures_eq_nil_iff (tree : Tree) :
    failures tree = [] ↔ ∀ leaf ∈ tree.leaves, Failure.ofEntry? leaf.2 = none := by
  rw [failures_eq, List.filterMap_eq_nil_iff]
  constructor
  · intro h leaf hleaf
    exact h leaf.2 (tree.inOrder_perm.mem_iff.mpr (List.mem_map_of_mem hleaf))
  · intro h entry hentry
    obtain ⟨leaf, hleaf, rfl⟩ := List.mem_map.mp (tree.inOrder_perm.mem_iff.mp hentry)
    exact h leaf hleaf

/-! The last step. -/

theorem writeFiles_stream (s : Store) (files : List (Path × String)) :
    (writeFiles s files).stream = "" := by
  unfold writeFiles
  dsimp only
  split_ifs <;> rfl

theorem writeRendered_stream (s : Store) (source : Rendered) (output : Path)
    (header : Option Path) : (writeRendered s source (some output) header).stream = "" := by
  cases hfiles : source.files? output header with
  | none => rw [writeRendered_of_no_files? hfiles]
  | some files => rw [writeRendered_of_files? hfiles, writeFiles_stream]

theorem writeRendered_nameless {s : Store} {source : Rendered} {output : Path}
    (hheader : source.header ≠ none) (hname : output.name? = none) :
    (writeRendered s source (some output) none).paths = .error (.emptyName output) := by
  rw [writeRendered_of_no_files? (files?_eq_none_iff.mpr ⟨hheader, hname⟩)]

theorem stream_finish (s : Store) (r : Request) (entries : List Entry) (tree : Tree)
    (source : Rendered) (records : List Record) :
    (finish s r entries tree source records).stream =
      (writeRendered s source r.output none).stream := rfl

theorem result_finish_of_error {s : Store} {r : Request} {entries : List Entry} {tree : Tree}
    {source : Rendered} {records : List Record} {fault : OutputFault}
    (h : (writeRendered s source r.output none).paths = .error fault) :
    (finish s r entries tree source records).result = .error (.output fault) := by
  simp only [finish, h]

theorem result_finish (s : Store) (r : Request) (entries : List Entry) (tree : Tree)
    (source : Rendered) (records : List Record) :
    (∃ fault, (writeRendered s source r.output none).paths = .error fault ∧
      (finish s r entries tree source records).result = .error (.output fault)) ∨
    ∃ paths summary, (writeRendered s source r.output none).paths = .ok paths ∧
      (finish s r entries tree source records).result = .ok summary := by
  cases hpaths : (writeRendered s source r.output none).paths with
  | error fault => exact .inl ⟨fault, rfl, result_finish_of_error hpaths⟩
  | ok paths =>
    have hresult : ∃ summary, (finish s r entries tree source records).result = .ok summary := by
      simp only [finish, hpaths]
      exact ⟨_, rfl⟩
    obtain ⟨summary, hresult⟩ := hresult
    exact .inr ⟨paths, summary, rfl, hresult⟩

/-- What a run that succeeds has printed: the whole source, unless there is a path for it. -/
def Request.printed (r : Request) (tree : Tree) : String :=
  match r.output with
  | none => String.join (r.source tree).texts
  | some _ => ""

theorem writeRendered_printed {s : Store} {r : Request} {tree : Tree} {paths : List Path}
    (h : (writeRendered s (r.source tree) r.output none).paths = .ok paths) :
    (writeRendered s (r.source tree) r.output none).stream = r.printed tree := by
  unfold Request.printed
  cases houtput : r.output with
  | none =>
    rw [houtput] at h
    exact writeStream_of_ok h
  | some output => exact writeRendered_stream s _ output none

end LocaleAccessors
