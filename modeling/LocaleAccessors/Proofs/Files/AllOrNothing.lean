import LocaleAccessors.Generation
import LocaleAccessors.Proofs.Files.Apart
import LocaleAccessors.Proofs.Files.Prepared

/-!
Writing is all or nothing: either every target holds the text listed last for it and no other regular
file differs, or no regular file differs at all. Of what was put aside nothing is left in either case,
but for what the system does not let be closed, looked at or removed; and a target that was replaced
before another one failed stays as it is where the system does not let it be restored.
-/

namespace LocaleAccessors.Files.Store

theorem write_cases (s : Store) (files : List (Path × String)) :
    ((s.write files).replaced = 0 ∧ (s.write files).fault ≠ none ∧
      s.SameFiles (files.map Prod.fst) (s.write files).store) ∨
    ∃ t u staged kept, Prepared s t u files staged kept ∧
      s.write files =
        { u.replaceAll ((files.map Prod.fst).zip (staged.zip kept)) with
          store := (u.replaceAll ((files.map Prod.fst).zip (staged.zip kept))).store.discardAll
            (staged ++ kept.filterMap id) } := by
  have htargets : ∀ f ∈ files, f.1 ∈ files.map Prod.fst := fun f hf => List.mem_map_of_mem hf
  have hself : ∀ target ∈ files.map Prod.fst, target ∈ files.map Prod.fst := fun _ h => h
  unfold write
  dsimp only
  obtain ⟨hstaging, hle, hstaged⟩ := aside_stageAll htargets s
  generalize s.stageAll files = staged at hstaging hle hstaged ⊢
  have hfst : (staged.done.zip (files.map fun f => Text.Utf8.encode f.2)).map Prod.fst =
      staged.done := List.map_fst_zip (by rwa [List.length_map])
  cases hfault : staged.fault with
  | some fault =>
    have hsame := hstaging.sameFiles
    rw [hfst] at hsame
    exact .inl ⟨rfl, nofun, hsame⟩
  | none =>
    dsimp only
    obtain ⟨⟨added, hkeeping, hplaces⟩, hsame, hundo, hkept⟩ :=
      keepSeveral_spec hself staged.store
    generalize staged.store.keepSeveral (files.map Prod.fst) = kept
      at hkeeping hplaces hsame hundo hkept ⊢
    cases hkfault : kept.fault with
    | some fault =>
      have hsame := (hstaging.trans hkeeping).sameFiles
      rw [List.map_append, hfst, hplaces] at hsame
      exact .inl ⟨rfl, nofun, hsame⟩
    | none =>
      refine .inr ⟨staged.store, kept.store, staged.done, kept.done, ?_, rfl⟩
      exact {
        staging := hstaging
        length_staged := hstaged hfault
        keeping := ⟨added, hkeeping, hplaces⟩
        same := hsame
        length_kept := by rw [hkept hkfault, List.length_map]
        undoes := by rwa [List.length_map] at hundo }

theorem holds_write {s : Store} {files : List (Path × String)} (h : (s.write files).fault = none)
    (hapart : s.Apart (files.map Prod.fst)) : Holds s (s.write files).store files := by
  obtain ⟨-, hfault, -⟩ | ⟨t, u, staged, kept, hprepared, heq⟩ := s.write_cases files
  · exact absurd h hfault
  · rw [heq] at h ⊢
    exact hprepared.holds hapart h

theorem sameFiles_write {s : Store} {files : List (Path × String)}
    (hfirst : (s.write files).replaced = 0) :
    s.SameFiles (files.map Prod.fst) (s.write files).store := by
  obtain ⟨-, -, hsame⟩ | ⟨t, u, staged, kept, hprepared, heq⟩ := s.write_cases files
  · exact hsame
  · rw [heq] at hfirst ⊢
    obtain ⟨added, haside, hplaces, -⟩ := hprepared.aside
    dsimp only at hfirst ⊢
    rw [store_replaceAll hfirst, ← hplaces]
    exact haside.sameFiles

theorem restored_write {s : Store} {files : List (Path × String)} (h : (s.write files).fault ≠ none)
    (hapart : s.Apart (files.map Prod.fst)) (l : Location) :
    (s.write files).store.file? l = s.file? l ∨ s.Left (files.map Prod.fst) l ∨
      s.Unrestored (files.map Prod.fst) l := by
  obtain ⟨-, -, hsame⟩ | ⟨t, u, staged, kept, hprepared, heq⟩ := s.write_cases files
  · exact (hsame l).imp_right .inl
  · rw [heq] at h ⊢
    exact hprepared.restored hapart h l

end LocaleAccessors.Files.Store

namespace LocaleAccessors
open Files (Path Store)
open Source (Rendered)

/-- What some files leave behind that cannot all be written. A text without a form in UTF-8 is found
before anything is done, and only a target that is replaced when another one fails needs to be
restored. -/
structure Withdrawn (before after : Store) (files : List (Path × String)) : Prop where
  unencodable : (∃ f ∈ files, before.machine.isText f.2 = false) → after = before
  unreplaced : (before.write files).replaced = 0 → before.SameFiles (files.map Prod.fst) after
  restored : before.Apart (files.map Prod.fst) → ∀ l, after.file? l = before.file? l ∨
    before.Left (files.map Prod.fst) l ∨ before.Unrestored (files.map Prod.fst) l

/-- What writing some files leaves behind, whether it comes to its end or not. -/
def AllOrNothing {ε : Type} (before after : Store) (files : List (Path × String)) :
    Except ε (List Path) → Prop
  | .ok paths => paths = files.map Prod.fst ∧
      (before.Apart (files.map Prod.fst) → before.Holds after files)
  | .error _ => Withdrawn before after files

theorem Withdrawn.untouched (s : Store) (files : List (Path × String)) : Withdrawn s s files :=
  ⟨fun _ => rfl, fun _ _ => .inl rfl, fun _ _ => .inl rfl⟩

theorem writeFiles_allOrNothing (s : Store) (files : List (Path × String)) :
    AllOrNothing s (writeFiles s files).store files (writeFiles s files).paths := by
  unfold writeFiles
  dsimp only
  split_ifs with htexts
  · cases hfault : (s.write files).fault with
    | none => exact ⟨rfl, Store.holds_write hfault⟩
    | some fault =>
      have hne : (s.write files).fault ≠ none := by simp [hfault]
      refine ⟨?_, Store.sameFiles_write, Store.restored_write hne⟩
      rintro ⟨f, hf, htext⟩
      have hall := List.all_eq_true.mp htexts f hf
      rw [htext] at hall
      cases hall
  · exact Withdrawn.untouched s files

theorem apart_files? {s : Store} {source : Rendered} {output : Path}
    {files : List (Path × String)} (h : source.files? output none = some files) :
    s.Apart (files.map Prod.fst) := by
  unfold Rendered.files? at h
  split at h
  · cases h
    exact Store.apart_single s output
  · obtain ⟨header, hheader, rfl⟩ := Option.map_eq_some_iff.mp h
    exact Store.apart_pair s hheader

theorem writeRendered_of_files? {source : Rendered} {output : Path} {header : Option Path}
    {files : List (Path × String)} (h : source.files? output header = some files) (s : Store) :
    writeRendered s source (some output) header = writeFiles s files := by
  simp only [writeRendered, h]

theorem writeRendered_of_no_files? {source : Rendered} {output : Path} {header : Option Path}
    (h : source.files? output header = none) (s : Store) :
    writeRendered s source (some output) header = ⟨s, "", [], .error (.emptyName output)⟩ := by
  simp only [writeRendered, h]

theorem files?_eq_none_iff {source : Rendered} {output : Path} :
    source.files? output none = none ↔ source.header ≠ none ∧ output.name? = none := by
  unfold Rendered.files?
  cases source.header with
  | none => simp
  | some text => simp [headerPath, Path.withSuffix]

theorem generate_cases (s : Store) (r : Request) :
    ((generate s r).store = s ∧ (generate s r).stream = "" ∧
      ∃ fault, (generate s r).result = .error fault) ∨
    ∃ entries tree lost source records,
      Table.load s r.input = .ok entries ∧ Key.Tree.build? r.delimiter entries = some (tree, lost) ∧
        renderWithin s.machine r tree = .ok source ∧
          generate s r = finish s r entries tree source records := by
  unfold generate
  dsimp only
  split
  · exact .inl ⟨rfl, rfl, _, rfl⟩
  · next hload =>
    split
    · exact .inl ⟨rfl, rfl, _, rfl⟩
    · next hbuild =>
      split
      · exact .inl ⟨rfl, rfl, _, rfl⟩
      · next hrender => exact .inr ⟨_, _, _, _, _, hload, hbuild, hrender, rfl⟩

theorem renderWithin_eq_ok_iff {machine : Files.Machine} {r : Request} {tree : Key.Tree}
    {source : Rendered} :
    renderWithin machine r tree = .ok source ↔
      Source.render r.resolved tree = .ok source ∧ ∀ walk, tree.depth ≤ machine.levels walk := by
  have hwalks : (∀ walk, tree.depth ≤ machine.levels walk) ↔
      tree.depth ≤ machine.levels .counting ∧ tree.depth ≤ machine.levels .building ∧
        tree.depth ≤ machine.levels .rendering :=
    ⟨fun h => ⟨h _, h _, h _⟩, fun h walk => by
      cases walk
      · exact h.1
      · exact h.2.1
      · exact h.2.2⟩
  rw [hwalks]
  unfold renderWithin
  cases Source.render r.resolved tree with
  | error fault => cases fault <;> simp <;> split_ifs <;> simp
  | ok rendered =>
    dsimp only
    split_ifs <;> simp <;> omega

theorem finish_store (s : Store) (r : Request) (entries : List Table.Entry) (tree : Key.Tree)
    (source : Rendered) (records : List Record) :
    (finish s r entries tree source records).store =
        (writeRendered s source r.output none).store ∧
      (finish s r entries tree source records).result.map Summary.written =
        (writeRendered s source r.output none).paths.mapError .output := by
  refine ⟨rfl, ?_⟩
  unfold finish
  dsimp only
  cases (writeRendered s source r.output none).paths with
  | error fault => rfl
  | ok paths => rfl

theorem allOrNothing_mapError {ε ε' : Type} {before after : Store} {files : List (Path × String)}
    {result : Except ε (List Path)} {f : ε → ε'} (h : AllOrNothing before after files result) :
    AllOrNothing before after files (result.mapError f) := by
  cases result with
  | ok paths => exact h
  | error fault => exact h

theorem generate_allOrNothing {s : Store} {r : Request} {output : Path}
    (houtput : r.output = some output) :
    ((generate s r).store = s ∧ ∃ fault, (generate s r).result = .error fault) ∨
    ∃ entries tree lost source files,
      Table.load s r.input = .ok entries ∧ Key.Tree.build? r.delimiter entries = some (tree, lost) ∧
      Source.render r.resolved tree = .ok source ∧ source.files? output none = some files ∧
      s.Apart (files.map Prod.fst) ∧
      AllOrNothing s (generate s r).store files ((generate s r).result.map Summary.written) := by
  obtain ⟨hstore, -, hresult⟩ | ⟨entries, tree, lost, source, records, hload, hbuild, hrender,
    hfinish⟩ := generate_cases s r
  · exact .inl ⟨hstore, hresult⟩
  obtain ⟨hstore, hwritten⟩ := finish_store s r entries tree source records
  rw [houtput] at hstore hwritten
  rw [hfinish]
  cases hfiles : source.files? output none with
  | none =>
    rw [writeRendered_of_no_files? hfiles] at hstore hwritten
    refine .inl ⟨hstore, ?_⟩
    cases hresult : (finish s r entries tree source records).result with
    | error fault => exact ⟨fault, rfl⟩
    | ok summary =>
      rw [hresult] at hwritten
      cases hwritten
  | some files =>
    rw [writeRendered_of_files? hfiles] at hstore hwritten
    refine .inr ⟨entries, tree, lost, source, files, hload, hbuild,
      (renderWithin_eq_ok_iff.mp hrender).1, hfiles, apart_files? hfiles, ?_⟩
    rw [hstore, hwritten]
    exact allOrNothing_mapError (writeFiles_allOrNothing s files)

/-- Whatever is written and however far it comes: with a result every target holds the text listed
last for it and no other regular file differs, and without one no regular file differs, as far as the
system lets the targets be restored and the files put aside be removed. The targets of a source are the
output and, in front of it, the path of its header. -/
theorem written_or_untouched :
    (∀ (s : Store) (files : List (Path × String)),
      AllOrNothing s (writeFiles s files).store files (writeFiles s files).paths) ∧
    (∀ (s : Store) (source : Rendered) (output : Path) (header : Option Path),
      (∀ files, source.files? output header = some files →
        AllOrNothing s (writeRendered s source (some output) header).store files
          (writeRendered s source (some output) header).paths) ∧
      (source.files? output header = none →
        (writeRendered s source (some output) header).store = s ∧
          (writeRendered s source (some output) header).paths = .error (.emptyName output))) ∧
    ∀ (s : Store) (r : Request) (output : Path), r.output = some output →
      ((generate s r).store = s ∧ ∃ fault, (generate s r).result = .error fault) ∨
      ∃ entries tree lost source files, Table.load s r.input = .ok entries ∧
        Key.Tree.build? r.delimiter entries = some (tree, lost) ∧
        Source.render r.resolved tree = .ok source ∧ source.files? output none = some files ∧
        s.Apart (files.map Prod.fst) ∧
        AllOrNothing s (generate s r).store files
          ((generate s r).result.map Summary.written) := by
  refine ⟨writeFiles_allOrNothing, fun s source output header => ⟨fun files hfiles => ?_,
    fun hnone => ?_⟩, fun s r output => generate_allOrNothing⟩
  · rw [writeRendered_of_files? hfiles]
    exact writeFiles_allOrNothing s files
  · rw [writeRendered_of_no_files? hnone]
    exact ⟨rfl, rfl⟩

/-- A file at the place of the first of two targets, and nothing at that of the second. -/
def oneOfTwo : Store :=
  { working := [], nodes := [(["a"], .file (Text.Utf8.encode "old"))] }

/-- Both targets are written, and nothing else is there afterwards. -/
theorem written_over_and_beside :
    let files := [((⟨.relative, ["a"]⟩ : Path), "1"), (⟨.relative, ["d", "b"]⟩, "2")]
    (writeFiles oneOfTwo files).paths = .ok [⟨.relative, ["a"]⟩, ⟨.relative, ["d", "b"]⟩] ∧
      oneOfTwo.Apart (files.map Prod.fst) ∧
      oneOfTwo.Holds (writeFiles oneOfTwo files).store files := by
  intro files
  have hpaths : (writeFiles oneOfTwo files).paths =
      .ok [⟨.relative, ["a"]⟩, ⟨.relative, ["d", "b"]⟩] := by decide +kernel
  have hapart : oneOfTwo.Apart (files.map Prod.fst) := by
    have hshort : ∀ target ∈ files.map Prod.fst, ∀ name ∈ target.place oneOfTwo.working,
        name.toList.length ≤ 9 := by decide +kernel
    rintro target htarget ⟨other, -, ending, -, attempt, heq⟩
    have hlong := hshort target htarget
    rw [heq] at hlong
    have hname := hlong _ List.mem_cons_self
    rw [Files.length_asideName] at hname
    omega
  have hall := written_or_untouched.1 oneOfTwo files
  rw [hpaths] at hall
  exact ⟨hpaths, hapart, hall.2 hapart⟩

def unremovable : Store :=
  { working := []
    nodes := [(["b"], .directory)]
    machine := { Files.Machine.plain with refuses := fun call =>
      match call with
      | .remove _ => some ⟨"Permission denied", none⟩
      | _ => none } }

/-- A temporary file is left behind where the system does not let it be removed, and of two texts for
two paths to one file only the second is there. -/
theorem temporary_file_left_behind :
    let files := [((⟨.relative, ["a"]⟩ : Path), "1"), (⟨.relative, ["b"]⟩, "2")]
    let twice := [((⟨.relative, ["a"]⟩ : Path), "1"), (⟨.relative, ["d", "..", "a"]⟩, "2")]
    let temporary := [Files.asideName "a" Files.stagedEnding 0]
    ((writeFiles unremovable files).paths = .error (.failed (files.map Prod.fst) .isDirectory) ∧
      (unremovable.write files).replaced = 0 ∧ unremovable.file? temporary = none ∧
      (writeFiles unremovable files).store.file? temporary = some (Text.Utf8.encode "1")) ∧
    (writeFiles oneOfTwo twice).paths = .ok (twice.map Prod.fst) ∧
      (writeFiles oneOfTwo twice).store.bytes ⟨.relative, ["a"]⟩ = .ok (Text.Utf8.encode "2") := by
  decide +kernel

end LocaleAccessors
