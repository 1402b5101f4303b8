import LocaleAccessors.Proofs.Files.Pair
import LocaleAccessors.Proofs.Files.Stream
import LocaleAccessors.Proofs.Namespace.Counts
import LocaleAccessors.Proofs.Source.Swift.ReadBack

/-!
How much a rendered source declares. Read back, it has a struct or a class for each group of the tree and
an accessor for each leaf, and these are the numbers that a run reports.
-/

namespace LocaleAccessors
open Files (Store)
open Key (Tree)
open Source (namespaceOf)

/-! In Swift. -/

namespace Source.Swift

def Declarations.structs : Declarations → Nat
  | nil => 0
  | accessor _ _ _ _ others => others.structs
  | struct _ members others => members.structs + others.structs + 1

def Declarations.accessors : Declarations → Nat
  | nil => 0
  | accessor _ _ _ _ others => others.accessors + 1
  | struct _ members others => members.accessors + others.accessors

variable (table : Option String)

theorem structs_declare (accessors : List Accessor) (others : Declarations) :
    (accessors.foldr (declare table) others).structs = others.structs := by
  induction accessors with
  | nil => rfl
  | cons a accessors ih => exact ih

theorem accessors_declare (accessors : List Accessor) (others : Declarations) :
    (accessors.foldr (declare table) others).accessors =
      accessors.length + others.accessors := by
  induction accessors with
  | nil => exact (Nat.zero_add _).symm
  | cons a accessors ih =>
    rw [List.foldr_cons, declare, Declarations.accessors, ih, List.length_cons, Nat.add_right_comm]

theorem structs_declareAll (ns : Namespaces) (others : Declarations) :
    (declareAll table ns others).structs = ns.located.length + others.structs := by
  induction ns generalizing others with
  | nil => exact (Nat.zero_add _).symm
  | cons name accessors inner siblings ihinner ihsiblings =>
    rw [declareAll, Declarations.structs, structs_declare, ihinner, ihsiblings, Declarations.structs,
      Namespaces.located, List.length_append, List.length_cons, List.length_map]
    omega

theorem accessors_declareAll (ns : Namespaces) (others : Declarations) :
    (declareAll table ns others).accessors = accessorCount ns.located + others.accessors := by
  induction ns generalizing others with
  | nil => exact (Nat.zero_add _).symm
  | cons name accessors inner siblings ihinner ihsiblings =>
    rw [declareAll, Declarations.accessors, accessors_declare, ihinner, ihsiblings,
      Declarations.accessors, accessorCount_cons]
    omega

theorem structs_declarationsOf (root : Namespace) :
    (declarationsOf table root).structs = root.located.length := by
  rw [declarationsOf, structs_declareAll]
  simp [Namespaces.located, Namespace.located, Declarations.structs]

theorem accessors_declarationsOf (root : Namespace) :
    (declarationsOf table root).accessors = accessorCount root.located := by
  rw [declarationsOf, accessors_declareAll, accessorCount_cons]
  simp [accessorCount, Namespaces.located, Namespace.located, Declarations.accessors]

end Source.Swift

/-! In Objective-C. The types of accessors begin with the class of texts, and no class of the file does. -/

namespace Source.ObjectiveC

def Method.isAccessor (m : Method) : Bool :=
  "NSString *".toList.isPrefixOf m.type.toList

def Block.accessors (b : Block) : List Method :=
  b.methods.filter Method.isAccessor

theorem isAccessor_accessorMethod (a : Accessor) : (accessorMethod a).isAccessor = true := by
  have hprefix : "NSString *".toList <+: (accessorType a).toList := by
    unfold accessorType
    split
    · exact List.prefix_rfl
    · simp only [String.toList_append, List.append_assoc]
      exact (show "NSString *".toList <+: "NSString *(^)(".toList by decide).trans
        (List.prefix_append _ _)
  exact List.isPrefixOf_iff_prefix.mpr hprefix

theorem isAccessor_pointer (ofClass : Bool) {className : String} (h : IsClassName className)
    (name : String) : (Method.mk ofClass (pointerTo className) name).isAccessor = false := by
  obtain ⟨rest, hrest⟩ := List.head?_eq_some_iff.mp h.underscore
  have hlist : (pointerTo className).toList = '_' :: (rest ++ " *".toList) := by
    rw [pointerTo, String.toList_append, hrest]
    rfl
  rw [Method.isAccessor, hlist]
  rfl

theorem length_accessors_blockOf {c : ClassModel} (hname : IsClassName c.name)
    (hchildren : ∀ g ∈ c.children, IsClassName g.className) :
    (blockOf c).accessors.length = c.accessors.length := by
  have hgetters : (c.children.map getterMethod).filter Method.isAccessor = [] := by
    rw [List.filter_eq_nil_iff, List.forall_mem_map]
    intro g hg
    rw [getterMethod, isAccessor_pointer false (hchildren g hg)]
    exact Bool.false_ne_true
  have haccessors : (c.accessors.map accessorMethod).filter Method.isAccessor =
      c.accessors.map accessorMethod := by
    rw [List.filter_eq_self, List.forall_mem_map]
    exact fun a _ => isAccessor_accessorMethod a
  have hshared : (if c.isRoot then [sharedMethod c.name] else []).filter Method.isAccessor = [] := by
    rw [List.filter_eq_nil_iff]
    intro m hm
    split at hm
    · rw [List.mem_singleton.mp hm, sharedMethod, isAccessor_pointer true hname]
      exact Bool.false_ne_true
    · cases hm
  rw [Block.accessors, blockOf, List.filter_append, List.filter_append, hgetters, haccessors,
    hshared, List.append_nil, List.nil_append, List.length_map]

section classes
variable {root : Namespace}

theorem sum_accessors_models (root : Namespace) :
    (((classesOf root).models true).map fun c => c.accessors.length).sum =
      accessorCount root.located := by
  have hmodels := (Classes.models_perm_located true (classesOf root)).map
    fun c => c.accessors.length
  have houtlines := congrArg (List.map fun outline => outline.2.2.length)
    (map_outline_classesOf root)
  rw [List.map_map] at hmodels
  rw [List.map_map, List.map_map] at houtlines
  rw [hmodels.sum_nat]
  exact congrArg List.sum houtlines

theorem sum_accessors_blocks
    (h : Namespaces.Worded (.cons root.name root.accessors root.inner .nil)) :
    ((((classesOf root).models true).map blockOf).map (·.accessors.length)).sum =
      accessorCount root.located := by
  have hnames := isClassName_of_mem_classesOf h
  have hclass : ∀ e ∈ (classesOf root).located true, IsClassName e.2.name := by
    intro e he
    refine hnames _ ?_
    rw [← Classes.map_name_located true]
    exact List.mem_map_of_mem he
  rw [← sum_accessors_models, List.map_map]
  refine congrArg List.sum (List.map_congr_left fun c hc => ?_)
  obtain ⟨e, he, rfl⟩ := List.mem_map.mp ((Classes.models_perm_located true _).subset hc)
  refine length_accessors_blockOf (hclass e he) fun g hg => ?_
  obtain ⟨f, hf, -, hname⟩ := Classes.exists_located_of_mem_children he hg
  exact hname ▸ hclass f hf

end classes

/-- An implementation up to its import. The name of the imported header stands there as it is. -/
def importLines (o : Options) : List String :=
  banner ++ mark "Imports" ++ ["#import \"" ++ o.importedName ++ ".h\""]

theorem defined_behind_import {o : Options} {root : Namespace}
    (hclasses : ∀ c ∈ (classesOf root).models true, c.Worded) :
    ∃ classes, implementationFile o root = fileText (importLines o) ++ classes ∧
      defined classes = some (((classesOf root).models true).map blockOf) := by
  have hmark : Holds "@implementation " " \x7b" (mark "Header") [] :=
    holds_fixed (by decide) (by decide)
  have hblocks : Holds "@implementation " " \x7b" ([""].intercalate
      (((classesOf root).models true).map (implementation o.tableName)))
      (((classesOf root).models true).map blockOf) :=
    holds_intercalate (holds_empty (by decide)) fun c hc =>
      holds_implementation o.tableName (hclasses c hc)
  refine ⟨fileText (mark "Header" ++ [""].intercalate
    (((classesOf root).models true).map (implementation o.tableName))), ?_, ?_⟩
  · apply String.toList_inj.mp
    unfold implementationFile importLines
    simp only [List.append_assoc, toList_fileText_append, String.toList_append]
  · exact readBlocks_fileText (hmark.append hblocks) (by decide)

end Source.ObjectiveC

/-! What is read back from a source, and what a run reports of it. -/

namespace Source
open ObjectiveC (BringsNoBlock declared defined importLines)

/-- Read back, a source has so many structs, or classes, and so many accessors. The classes of a header
are different ones, and behind its import the implementation has the same. The name of the imported
header stands in the import as it is. -/
def Declares (o : Options) (source : Rendered) (groups accessors : Nat) : Prop :=
  match o.language with
  | .swift => ∃ d, Swift.read source.implementation = some d ∧ d.structs = groups ∧
      d.accessors = accessors
  | .objectiveC => ∃ header classes blocks, source.header = some header ∧
      source.implementation = fileText (importLines o) ++ classes ∧
      declared header = some blocks ∧ defined classes = some blocks ∧
      (BringsNoBlock o.importedName → defined source.implementation = some blocks) ∧
      (blocks.map (·.className)).Nodup ∧ blocks.length = groups ∧
      (blocks.map (·.accessors.length)).sum = accessors

variable {o : Options} {tree : Tree} {source : Rendered}

theorem declares_swift (hswift : o.language = .swift) (hfault : o.fault? = none)
    (hbuilt : accessorCount (namespaceOf o tree).located = tree.leafCount) :
    Declares o (sourceOf o (namespaceOf o tree)) tree.groupCount tree.leafCount := by
  have hread : Swift.read (Swift.file o (namespaceOf o tree)) =
      some (Swift.declarationsOf o.tableName (namespaceOf o tree)) :=
    Swift.read_file (Options.isWord_baseName hfault) (fun a ha => worded_of_mem_accessorsOf ha)
      (worded_ofGroups _ _ tree)
  simp only [Declares, sourceOf, hswift]
  refine ⟨_, hread, ?_, ?_⟩
  · rw [Swift.structs_declarationsOf, (counts_namespaceOf o tree).walked]
  · rw [Swift.accessors_declarationsOf, hbuilt]

theorem declares_objectiveC (hobjectiveC : o.language = .objectiveC) (hfault : o.fault? = none)
    (hbuilt : accessorCount (namespaceOf o tree).located = tree.leafCount) :
    Declares o (sourceOf o (namespaceOf o tree)) tree.groupCount tree.leafCount := by
  have hworded := ObjectiveC.worded_namespaceOf tree hfault
  have hnames : ∀ name ∈ (ObjectiveC.classesOf (namespaceOf o tree)).names, Text.IsWord name :=
    fun name hmem => (ObjectiveC.isClassName_of_mem_classesOf hworded name hmem).word
  have hclasses : ∀ c ∈ (ObjectiveC.classesOf (namespaceOf o tree)).models true, c.Worded :=
    ObjectiveC.worded_classesOf hworded
  have hblocks := ObjectiveC.classBlocks_classesOf (paths_nodup_ofTree _ _ tree) hworded
  obtain ⟨classes, himplementation, hdefined⟩ :=
    ObjectiveC.defined_behind_import (o := o) hclasses
  simp only [Declares, sourceOf, hobjectiveC]
  exact ⟨_, classes, _, rfl, himplementation,
    ObjectiveC.declared_header hfault (Options.isWord_baseName hfault) hnames hclasses, hdefined,
    fun hname => ObjectiveC.defined_implementation hname hclasses, hblocks.distinct,
    hblocks.length, (ObjectiveC.sum_accessors_blocks hworded).trans hbuilt⟩

theorem declares_render (h : render o tree = .ok source) :
    Declares o source tree.groupCount tree.leafCount := by
  unfold render at h
  split at h
  · cases h
  · cases h
  · next hfault hfailures =>
    cases h
    have hbuilt := (counts_namespaceOf o tree).built
    rw [hfailures, List.length_nil, Nat.add_zero] at hbuilt
    cases hlanguage : o.language with
    | swift => exact declares_swift hlanguage hfault hbuilt
    | objectiveC => exact declares_objectiveC hlanguage hfault hbuilt

end Source

open Source (Declares render declares_render)

theorem summary_of_finish {s : Store} {r : Request} {entries : List Table.Entry} {tree : Tree}
    {source : Source.Rendered} {records : List Record} {summary : Summary}
    (h : (finish s r entries tree source records).result = .ok summary) :
    summary.groups = tree.groupCount ∧ summary.accessors = tree.leafCount := by
  unfold finish at h
  dsimp only at h
  split at h
  · cases h
  · cases h
    exact ⟨rfl, rfl⟩

theorem collect_counts (o : Options) (tree : Tree) :
    (∃ root found,
      (Namespace.collect (.of o.language o.capitalize) o.baseName tree).run [] = .ok (root, found) ∧
        Counts tree root found tree.groupCount tree.leafCount) ∨
    ∃ entry ∈ tree.inOrder, ∃ digits,
      Format.specifiers entry.value = .error (.unread digits) ∧
        (Namespace.collect (.of o.language o.capitalize) o.baseName tree).run [] =
          .error (.unread digits) := by
  rcases legible_cases tree.inOrder with hall | ⟨before, entry, after, digits, hsplit, hbefore, h⟩
  · have hbreaks := not_breaks_of_legible hall
    rw [← failures_eq] at hbreaks
    exact .inl ⟨_, _, (reported hbreaks o).noted [], counts_namespaceOf o tree⟩
  · refine .inr ⟨entry, by simp [hsplit], digits, h, ?_⟩
    exact (broken (failures_of_illegible hsplit h) (not_breaks_of_legible hbefore) rfl o).noted []

/-- All counts of a tree agree, whatever the settings are and however many translations are at fault. A
run reports two of them, and so many structs or classes and accessors has the source that it puts out. -/
theorem counts_agree :
    (∀ tree : Tree, tree.leaves.length = tree.leafCount ∧
      ∀ indent, (tree.outline indent).length + 1 = tree.groupCount + tree.leafCount) ∧
    (∀ (o : Options) (tree : Tree),
      (∃ root found,
        (Namespace.collect (.of o.language o.capitalize) o.baseName tree).run [] = .ok (root, found) ∧
          Counts tree root found tree.groupCount tree.leafCount) ∨
      ∃ entry ∈ tree.inOrder, ∃ digits,
        Format.specifiers entry.value = .error (.unread digits) ∧
          (Namespace.collect (.of o.language o.capitalize) o.baseName tree).run [] =
            .error (.unread digits)) ∧
    ∀ (s : Store) (r : Request) (summary : Summary), (generate s r).result = .ok summary →
      ∃ entries tree lost source,
        Table.load s r.input = .ok entries ∧ Tree.build? r.delimiter entries = some (tree, lost) ∧
        summary.groups = tree.groupCount ∧ summary.accessors = tree.leafCount ∧
        render r.resolved tree = .ok source ∧
        Declares r.resolved source summary.groups summary.accessors ∧
        (generate s r).store = (writeRendered s source r.output none).store ∧
        (generate s r).stream = (writeRendered s source r.output none).stream ∧
        (writeRendered s source r.output none).paths = .ok summary.written := by
  refine ⟨fun tree => ⟨tree.length_leaves, fun indent => tree.length_outline indent⟩,
    collect_counts, ?_⟩
  intro s r summary h
  obtain ⟨-, -, fault, hfault⟩ | ⟨entries, tree, lost, source, records, hload, hbuild, hwithin,
    hrun⟩ := generate_cases s r
  · rw [hfault] at h
    cases h
  have hrender := (renderWithin_eq_ok_iff.mp hwithin).1
  rw [hrun] at h ⊢
  obtain ⟨hgroups, haccessors⟩ := summary_of_finish h
  have hdeclares := declares_render hrender
  rw [← hgroups, ← haccessors] at hdeclares
  exact ⟨entries, tree, lost, source, hload, hbuild, hgroups, haccessors, hrender, hdeclares, rfl,
    rfl, finish_of_ok h⟩

/-- A run over two groups, with an accessor in each. -/
theorem counts_agree_of_nested :
    let s : Store :=
      { working := []
        nodes := [(["a.strings"],
          .file (Text.Utf8.encode "\"a\" = \"b\";\n\"c.d\" = \"%@\";\n"))] }
    let r : Request := ⟨⟨.relative, ["a.strings"]⟩, none, {}, "."⟩
    ∃ source, (generate s r).result =
        .ok ⟨.swift, 2, 2, 2, ⟨.relative, ["a.strings"]⟩, []⟩ ∧
      Declares {} source 2 2 ∧ (generate s r).stream = source.implementation := by
  intro s r
  have hresult : (generate s r).result =
      .ok ⟨.swift, 2, 2, 2, ⟨.relative, ["a.strings"]⟩, []⟩ := by decide +kernel
  obtain ⟨entries, tree, lost, source, -, -, -, -, hrender, hdeclares, -, hstream, hpaths⟩ :=
    counts_agree.2.2 s r _ hresult
  refine ⟨source, hresult, hdeclares, ?_⟩
  have hheader : source.header = none := by
    unfold render at hrender
    split at hrender
    · cases hrender
    · cases hrender
    · cases hrender
      rfl
  have hprinted : (writeStream s source.texts).stream = String.join source.texts :=
    writeStream_of_ok hpaths
  rw [hstream]
  refine hprinted.trans ?_
  rw [Source.Rendered.texts, hheader]
  exact String.empty_append

end LocaleAccessors
