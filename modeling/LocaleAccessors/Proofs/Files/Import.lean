import LocaleAccessors.Proofs.Files.Pair

/-!
The import in an implementation. Where no name of the header is given, the implementation imports the
file that its header is written to, and that file is in the directory of the output.
-/

namespace LocaleAccessors.Files

theorem headerPath_eq {output : Path} {name : String} (h : output.name? = some name) :
    headerPath output =
      some { output with parts := output.parts.dropLast ++ [output.stem ++ ".h"] } := by
  rw [headerPath, Path.withSuffix, h]
  rfl

example : headerPath ⟨.relative, [".."]⟩ = some ⟨.relative, ["...h"]⟩ := by decide

end LocaleAccessors.Files

namespace LocaleAccessors
open Files (Path Store Extended headerPath_eq)
open Key (Tree)
open Source (Rendered banner fileText mark render toList_fileText_append fileText_cons)

section request
variable {r : Request} {output : Path} {name : String}

theorem resolved_of_unnamed (hheader : ∀ given ∈ r.options.headerName, given = "")
    (houtput : r.output = some output) :
    r.resolved = { r.options with headerName := some output.stem } := by
  have hfilter : r.options.headerName.filter (· ≠ "") = none := by
    rw [Option.filter_eq_none_iff]
    simpa using hheader
  rw [Request.resolved, hfilter, houtput]

theorem importedName_resolved (hheader : ∀ given ∈ r.options.headerName, given = "")
    (houtput : r.output = some output) (hname : output.name? = some name) (hne : name ≠ "") :
    r.resolved.importedName = output.stem := by
  rw [resolved_of_unnamed hheader houtput]
  exact if_neg (Path.stem_ne_empty hname hne)

end request

theorem implementationFile_imports (o : Options) (root : Namespace) :
    ∃ blocks, Source.ObjectiveC.implementationFile o root =
      fileText (banner ++ mark "Imports") ++
        ("#import \"" ++ (o.importedName ++ ".h") ++ "\"\n") ++
        fileText (mark "Header" ++ blocks) := by
  have hline : "#import \"" ++ o.importedName ++ ".h\"" ++ "\n" =
      "#import \"" ++ (o.importedName ++ ".h") ++ "\"\n" := by
    simp only [String.append_assoc]
    rfl
  refine ⟨[""].intercalate (((Source.ObjectiveC.classesOf root).models true).map
    (Source.ObjectiveC.implementation o.tableName)), ?_⟩
  unfold Source.ObjectiveC.implementationFile
  rw [← hline]
  apply String.toList_inj.mp
  simp only [List.append_assoc, toList_fileText_append, String.toList_append, List.cons_append,
    List.nil_append, fileText_cons]

theorem render_imports {o : Options} {tree : Tree} {source : Rendered}
    (hlanguage : o.language = .objectiveC) (h : render o tree = .ok source) :
    ∃ text blocks, source.header = some text ∧
      source.implementation = fileText (banner ++ mark "Imports") ++
        ("#import \"" ++ (o.importedName ++ ".h") ++ "\"\n") ++
        fileText (mark "Header" ++ blocks) := by
  unfold render at h
  split at h
  · cases h
  · cases h
  · cases h
    obtain ⟨blocks, hblocks⟩ := implementationFile_imports o (Source.namespaceOf o tree)
    simp only [Source.sourceOf, hlanguage]
    exact ⟨_, blocks, rfl, hblocks⟩

theorem generate_written {s : Store} {r : Request} {entries : List Table.Entry} {tree : Tree}
    {lost : List Key.Warning} {source : Rendered} (hload : Table.load s r.input = .ok entries)
    (hbuild : Tree.build? r.delimiter entries = some (tree, lost))
    (hrender : renderWithin s.machine r tree = .ok source) :
    (generate s r).store = (writeRendered s source r.output none).store ∧
      (generate s r).result.map Summary.written =
        (writeRendered s source r.output none).paths.mapError .output := by
  simp only [generate, hload, hbuild, hrender]
  exact finish_store s r entries tree source _

/-- Without a name for the header, each implementation that a run renders for an output imports one
file by its name: the header that the run writes beside that output. Its name is that of the output
with another extension, wherever the dots are. A source is written unless its tree is deeper than the
stack. -/
theorem imports_header_beside_output {r : Request} {output : Path} {name : String}
    (hlanguage : r.options.language = .objectiveC)
    (hheader : ∀ given ∈ r.options.headerName, given = "") (houtput : r.output = some output)
    (hname : output.name? = some name) (hne : name ≠ "") :
    ∃ header imported front extension, headerPath output = some header ∧
      header.parent = output.parent ∧ header.name? = some imported ∧
      Extended name.toList front extension ∧ imported = String.ofList front ++ ".h" ∧
      ∀ {s entries tree lost source}, Table.load s r.input = .ok entries →
        Tree.build? r.delimiter entries = some (tree, lost) → render r.resolved tree = .ok source →
        ∃ text blocks, source.header = some text ∧
          source.implementation = fileText (banner ++ mark "Imports") ++
            ("#import \"" ++ imported ++ "\"\n") ++ fileText (mark "Header" ++ blocks) ∧
          (renderWithin s.machine r tree = .ok source →
            (generate s r).store =
              (writeFiles s [(header, text), (output, source.implementation)]).store ∧
            (generate s r).result.map Summary.written =
              (writeFiles s [(header, text), (output, source.implementation)]).paths.mapError
                .output) := by
  refine ⟨_, output.stem ++ ".h", _, _, headerPath_eq hname, ?_, ?_, Path.extended_stem hname, ?_,
    ?_⟩
  · rw [Path.parent, Path.parent, List.dropLast_concat]
  · rw [Path.name?, List.getLast?_concat]
  · rw [String.ofList_toList]
  intro s entries tree lost source hload hbuild hrender
  obtain ⟨text, blocks, htext, himplementation⟩ :=
    render_imports ((resolved_language r).trans hlanguage) hrender
  rw [importedName_resolved hheader houtput hname hne] at himplementation
  refine ⟨text, blocks, htext, himplementation, fun hwithin => ?_⟩
  have hwritten := generate_written hload hbuild hwithin
  rwa [houtput, writeRendered_of_header htext (headerPath_eq hname)] at hwritten

/-- The last of several dots makes the extension. -/
theorem imports_header_beside_dotted_output :
    ∃ source blocks, (generate oneRow (toObjectiveC "a.b.m")).result =
        .ok ⟨.objectiveC, 1, 1, 1, ⟨.relative, ["a.strings"]⟩,
          [⟨.relative, ["a.b.h"]⟩, ⟨.relative, ["a.b.m"]⟩]⟩ ∧
      render (toObjectiveC "a.b.m").resolved (.leaf "a" ⟨"a", "b"⟩ .nil) = .ok source ∧
      source.implementation = fileText (banner ++ mark "Imports") ++ "#import \"a.b.h\"\n" ++
        fileText (mark "Header" ++ blocks) := by
  have hresult : (generate oneRow (toObjectiveC "a.b.m")).result =
      .ok ⟨.objectiveC, 1, 1, 1, ⟨.relative, ["a.strings"]⟩,
        [⟨.relative, ["a.b.h"]⟩, ⟨.relative, ["a.b.m"]⟩]⟩ := by decide +kernel
  obtain ⟨entries, tree, lost, source, -, -, hload, hbuild, hrender, -⟩ :=
    generate_pair rfl rfl hresult
  cases oneRow_tree hload hbuild
  have hname : (⟨.relative, ["a.b.m"]⟩ : Path).name? = some "a.b.m" := rfl
  obtain ⟨header, imported, front, extension, hheader, -, himported, -, -, hsource⟩ :=
    imports_header_beside_output (r := toObjectiveC "a.b.m") rfl nofun rfl hname (by decide)
  have hpath : headerPath ⟨.relative, ["a.b.m"]⟩ = some ⟨.relative, ["a.b.h"]⟩ := by decide
  cases hheader.symm.trans hpath
  cases himported
  obtain ⟨text, blocks, -, himplementation, -⟩ := hsource hload hbuild hrender
  exact ⟨source, blocks, hresult, hrender, himplementation⟩

end LocaleAccessors
