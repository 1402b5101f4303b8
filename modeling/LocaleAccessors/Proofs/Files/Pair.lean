import LocaleAccessors.Proofs.Files.AllOrNothing
import LocaleAccessors.Proofs.Files.Extension
import LocaleAccessors.Proofs.Source.Layout
import LocaleAccessors.Proofs.Text.Utf8

/-!
A header and its implementation as they are found after a run. Both can be read where the run says,
unless the output has the extension of headers: then the two paths are one, and the header is lost.
-/

namespace LocaleAccessors.Files

namespace Store
variable {s s' : Store} {root : Root} {directory : List String} {a b : String} {l m : Location}

theorem follow_of_siblings (hm : s.locate ⟨root, directory ++ [a]⟩ = .ok m)
    (hl : s.locate ⟨root, directory ++ [b]⟩ = .ok l) :
    ∃ d, s.follow d a = .ok m ∧ s.follow d b = .ok l := by
  unfold locate at hm hl
  split_ifs at hm hl
  simp only [List.foldlM_append, List.foldlM_cons, List.foldlM_nil, bind_pure,
    bind_eq_ok_iff] at hm hl
  obtain ⟨d, hd, hm⟩ := hm
  obtain ⟨d', hd', hl⟩ := hl
  rw [hd] at hd'
  cases hd'
  exact ⟨d, hm, hl⟩

theorem locate_sibling_eq_iff (ha : a ≠ "..") (hm : s.locate ⟨root, directory ++ [a]⟩ = .ok m)
    (hl : s.locate ⟨root, directory ++ [b]⟩ = .ok l) : m = l ↔ a = b := by
  obtain ⟨d, hm, hl⟩ := follow_of_siblings hm hl
  rw [follow_eq_ok_iff] at hm hl
  obtain ⟨-, ⟨hdots, -⟩ | ⟨-, -, rfl⟩⟩ := hm
  · exact absurd hdots ha
  obtain ⟨-, ⟨rfl, rfl⟩ | ⟨-, -, rfl⟩⟩ := hl
  · refine ⟨fun h => ?_, fun h => absurd h ha⟩
    have hlength := congrArg List.length h
    rw [List.length_cons, List.length_tail] at hlength
    omega
  · rw [List.cons.injEq, and_iff_left rfl]

theorem bytes_of_file? {p : Path} {bytes : List UInt8} (hp : s.locate p = .ok l)
    (hl : s.file? l = some bytes) : s.bytes p = .ok bytes := by
  have hfind := find_eq_ok_iff.mpr ⟨l, hp, file?_eq_some_iff.mp hl⟩
  rw [Store.bytes, hfind]
  rfl

theorem lastText_append (s : Store) (before after : List (Path × String)) (l : Location) :
    s.lastText (before ++ after) l = (s.lastText after l).or (s.lastText before l) := by
  induction before with
  | nil => exact (Option.or_none).symm
  | cons f before ih => rw [List.cons_append, lastText, lastText, ih, Option.or_assoc]

theorem Holds.bytes_eq {before after : List (Path × String)} {target : Path} {text : String}
    (h : Holds s s' (before ++ (target, text) :: after))
    (hlast : ∀ f ∈ after, ∀ l, s'.locate target = .ok l → s'.locate f.1 ≠ .ok l) :
    s'.bytes target = .ok (Text.Utf8.encode text) := by
  obtain ⟨l, hl, hfile⟩ := h.located (target, text) (by simp)
  have htext : s'.lastText (before ++ (target, text) :: after) l = some text := by
    rw [lastText_append, lastText, lastText_eq_none fun f hf => hlast f hf l hl, if_pos hl]
    rfl
  rw [htext] at hfile
  exact bytes_of_file? hl hfile

section pair
variable {p q : Path} {first second : String}

theorem Holds.bytes_first (h : Holds s s' [(p, first), (q, second)])
    (hapart : ∀ l, s'.locate p = .ok l → s'.locate q ≠ .ok l) :
    s'.bytes p = .ok (Text.Utf8.encode first) := by
  have hfront : Holds s s' ([] ++ (p, first) :: [(q, second)]) := h
  refine hfront.bytes_eq fun f hf => ?_
  rw [List.mem_singleton.mp hf]
  exact hapart

theorem Holds.bytes_second (h : Holds s s' [(p, first), (q, second)]) :
    s'.bytes q = .ok (Text.Utf8.encode second) := by
  have hback : Holds s s' ([(p, first)] ++ (q, second) :: []) := h
  exact hback.bytes_eq nofun

end pair

end Store

theorem locate_header_iff {s : Store} {output header : Path} {l m : Location}
    (h : headerPath output = some header) (hm : s.locate header = .ok m)
    (hl : s.locate output = .ok l) : m = l ↔ output.suffix = ".h" := by
  obtain ⟨name, hparts, rfl, hsame, hdots⟩ := headerPath_spec h
  have houtput : output = ⟨output.root, output.parts.dropLast ++ [name]⟩ := by
    rw [← hparts]
  rw [houtput] at hl
  rw [← hsame]
  exact Store.locate_sibling_eq_iff hdots hm hl

end LocaleAccessors.Files

namespace LocaleAccessors
open Files (Path Store headerPath_of_suffix locate_header_iff)
open Key (Tree)
open Source (Rendered fileText toList_fileText_append render sourceOf)
open Source.ObjectiveC (headerImports implementationFile)

theorem header_ne_implementationFile (o : Options) (root : Namespace) :
    Source.ObjectiveC.header o root ≠ implementationFile o root := by
  intro h
  have htexts := congrArg String.toList h
  unfold Source.ObjectiveC.header implementationFile at htexts
  simp only [List.append_assoc, toList_fileText_append, List.append_cancel_left_eq] at htexts
  have hheads := congrArg List.head? htexts
  simp [fileText, headerImports] at hheads

theorem rendered_pair {o : Options} {tree : Tree} {source : Rendered}
    (hlanguage : o.language = .objectiveC) (h : render o tree = .ok source) :
    ∃ text, source.header = some text ∧ text ≠ source.implementation := by
  unfold render at h
  split at h
  · cases h
  · cases h
  · cases h
    simp only [sourceOf, hlanguage]
    exact ⟨_, rfl, header_ne_implementationFile o _⟩

theorem resolved_language (r : Request) : r.resolved.language = r.options.language := by
  unfold Request.resolved
  split <;> rfl

theorem writeRendered_of_header {s : Store} {source : Rendered} {output header : Path}
    {text : String} (htext : source.header = some text) (hheader : headerPath output = some header) :
    writeRendered s source (some output) none =
      writeFiles s [(header, text), (output, source.implementation)] := by
  refine writeRendered_of_files? ?_ s
  simp [Rendered.files?, htext, hheader]

theorem writeRendered_pair {s : Store} {source : Rendered} {output : Path} {text : String}
    {paths : List Path} (htext : source.header = some text)
    (h : (writeRendered s source (some output) none).paths = .ok paths) :
    ∃ header, headerPath output = some header ∧ paths = [header, output] ∧
      s.Holds (writeRendered s source (some output) none).store
        [(header, text), (output, source.implementation)] := by
  cases hheader : headerPath output with
  | none =>
    rw [writeRendered_of_no_files? (by simp [Rendered.files?, htext, hheader])] at h
    cases h
  | some header =>
    rw [writeRendered_of_header htext hheader] at h ⊢
    have hall := writeFiles_allOrNothing s [(header, text), (output, source.implementation)]
    rw [h] at hall
    exact ⟨header, rfl, hall.1, hall.2 (Store.apart_pair s hheader)⟩

theorem finish_of_ok {s : Store} {r : Request} {entries : List Table.Entry} {tree : Tree}
    {source : Rendered} {records : List Record} {summary : Summary}
    (h : (finish s r entries tree source records).result = .ok summary) :
    (writeRendered s source r.output none).paths = .ok summary.written := by
  unfold finish at h
  dsimp only at h
  split at h
  · cases h
  · next hpaths =>
    cases h
    exact hpaths

theorem generate_pair {s : Store} {r : Request} {output : Path} {summary : Summary}
    (hlanguage : r.options.language = .objectiveC) (houtput : r.output = some output)
    (h : (generate s r).result = .ok summary) :
    ∃ entries tree lost source header text,
      Table.load s r.input = .ok entries ∧ Tree.build? r.delimiter entries = some (tree, lost) ∧
      render r.resolved tree = .ok source ∧ source.header = some text ∧
      text ≠ source.implementation ∧ headerPath output = some header ∧
      summary.written = [header, output] ∧
      s.Holds (generate s r).store [(header, text), (output, source.implementation)] := by
  obtain ⟨-, -, fault, hfault⟩ | ⟨entries, tree, lost, source, records, hload, hbuild, hwithin,
    hrun⟩ := generate_cases s r
  · rw [hfault] at h
    cases h
  have hrender := (renderWithin_eq_ok_iff.mp hwithin).1
  obtain ⟨text, htext, hne⟩ := rendered_pair ((resolved_language r).trans hlanguage) hrender
  rw [hrun] at h ⊢
  have hpaths := finish_of_ok h
  have hstore : (finish s r entries tree source records).store =
      (writeRendered s source r.output none).store := rfl
  rw [houtput] at hpaths hstore
  obtain ⟨header, hheader, hwritten, hholds⟩ := writeRendered_pair htext hpaths
  exact ⟨entries, tree, lost, source, header, text, hload, hbuild, hrender, htext, hne, hheader,
    hwritten, hstore ▸ hholds⟩

/-- The two files after a run: the second holds the implementation, and the first holds the header
just when the output has another extension than headers. Otherwise both are one file. -/
theorem header_readable_iff {s : Store} {r : Request} {output : Path} {summary : Summary}
    (hlanguage : r.options.language = .objectiveC) (houtput : r.output = some output)
    (h : (generate s r).result = .ok summary) :
    ∃ entries tree lost source header text,
      Table.load s r.input = .ok entries ∧ Tree.build? r.delimiter entries = some (tree, lost) ∧
      render r.resolved tree = .ok source ∧ source.header = some text ∧
      headerPath output = some header ∧ summary.written = [header, output] ∧
      (generate s r).store.bytes output = .ok (Text.Utf8.encode source.implementation) ∧
      ((generate s r).store.bytes header = .ok (Text.Utf8.encode text) ↔ output.suffix ≠ ".h") ∧
      (output.suffix = ".h" → header = output) := by
  obtain ⟨entries, tree, lost, source, header, text, hload, hbuild, hrender, htext, hne, hheader,
    hwritten, hholds⟩ := generate_pair hlanguage houtput h
  generalize (generate s r).store = after at hholds ⊢
  have himplementation : after.bytes output = .ok (Text.Utf8.encode source.implementation) :=
    hholds.bytes_second
  refine ⟨entries, tree, lost, source, header, text, hload, hbuild, hrender, htext, hheader,
    hwritten, himplementation, ⟨fun hbytes hsuffix => ?_, fun hsuffix => ?_⟩,
    headerPath_of_suffix hheader⟩
  · rw [headerPath_of_suffix hheader hsuffix, himplementation] at hbytes
    exact hne (Text.Utf8.encode_injective (Except.ok.inj hbytes)).symm
  · refine hholds.bytes_first fun l hm hl => ?_
    exact hsuffix ((locate_header_iff hheader hm hl).mp rfl)

def oneRow : Store :=
  { working := [], nodes := [(["a.strings"], .file (Text.Utf8.encode "\"a\" = \"b\";\n"))] }

def toObjectiveC (output : String) : Request :=
  ⟨⟨.relative, ["a.strings"]⟩, some ⟨.relative, [output]⟩, { language := .objectiveC }, "."⟩

theorem oneRow_tree {entries : List Table.Entry} {tree : Tree} {lost : List Key.Warning}
    (hload : Table.load oneRow ⟨.relative, ["a.strings"]⟩ = .ok entries)
    (hbuild : Tree.build? "." entries = some (tree, lost)) : tree = .leaf "a" ⟨"a", "b"⟩ .nil := by
  have hentries : Table.load oneRow ⟨.relative, ["a.strings"]⟩ = .ok [⟨"a", "b"⟩] := by
    decide +kernel
  cases hentries.symm.trans hload
  have htree : Tree.build? "." [⟨"a", "b"⟩] = some (.leaf "a" ⟨"a", "b"⟩ .nil, []) := by
    decide +kernel
  cases htree.symm.trans hbuild
  rfl

theorem header_readable_beside_implementation :
    ∃ text, (generate oneRow (toObjectiveC "x.m")).result =
        .ok ⟨.objectiveC, 1, 1, 1, ⟨.relative, ["a.strings"]⟩,
          [⟨.relative, ["x.h"]⟩, ⟨.relative, ["x.m"]⟩]⟩ ∧
      (render (toObjectiveC "x.m").resolved (.leaf "a" ⟨"a", "b"⟩ .nil)).map Rendered.header =
        .ok (some text) ∧
      (generate oneRow (toObjectiveC "x.m")).store.bytes ⟨.relative, ["x.h"]⟩ =
        .ok (Text.Utf8.encode text) := by
  have hresult : (generate oneRow (toObjectiveC "x.m")).result =
      .ok ⟨.objectiveC, 1, 1, 1, ⟨.relative, ["a.strings"]⟩,
        [⟨.relative, ["x.h"]⟩, ⟨.relative, ["x.m"]⟩]⟩ := by decide +kernel
  have hsuffix : (⟨.relative, ["x.m"]⟩ : Path).suffix ≠ ".h" := by decide +kernel
  obtain ⟨entries, tree, lost, source, header, text, hload, hbuild, hrender, htext, -, hwritten, -,
    hheader, -⟩ := header_readable_iff rfl rfl hresult
  cases oneRow_tree hload hbuild
  cases hwritten
  refine ⟨text, hresult, ?_, hheader.mpr hsuffix⟩
  rw [hrender]
  exact congrArg Except.ok htext

/-- One path is reported twice, and the file there is not the header. -/
theorem header_lost_with_its_extension :
    ∃ text, (generate oneRow (toObjectiveC "x.h")).result =
        .ok ⟨.objectiveC, 1, 1, 1, ⟨.relative, ["a.strings"]⟩,
          [⟨.relative, ["x.h"]⟩, ⟨.relative, ["x.h"]⟩]⟩ ∧
      (render (toObjectiveC "x.h").resolved (.leaf "a" ⟨"a", "b"⟩ .nil)).map Rendered.header =
        .ok (some text) ∧
      (generate oneRow (toObjectiveC "x.h")).store.bytes ⟨.relative, ["x.h"]⟩ ≠
        .ok (Text.Utf8.encode text) := by
  have hresult : (generate oneRow (toObjectiveC "x.h")).result =
      .ok ⟨.objectiveC, 1, 1, 1, ⟨.relative, ["a.strings"]⟩,
        [⟨.relative, ["x.h"]⟩, ⟨.relative, ["x.h"]⟩]⟩ := by decide +kernel
  obtain ⟨entries, tree, lost, source, header, text, hload, hbuild, hrender, htext, hne, -, -,
    hholds⟩ := generate_pair rfl rfl hresult
  cases oneRow_tree hload hbuild
  refine ⟨text, hresult, ?_, fun hbytes => ?_⟩
  · rw [hrender]
    exact congrArg Except.ok htext
  · rw [hholds.bytes_second] at hbytes
    exact hne (Text.Utf8.encode_injective (Except.ok.inj hbytes)).symm

end LocaleAccessors
