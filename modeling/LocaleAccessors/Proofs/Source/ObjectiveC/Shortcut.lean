import LocaleAccessors.Proofs.Namespace.Members

/-!
The macro by which a header makes the root accessible. It has the base name, and an implementation, which
imports the header, may have this name for something else: for an accessor, for the getter of another
class or for a parameter. The preprocessor puts the shared instance in its place there, too.
-/

namespace LocaleAccessors.Source.ObjectiveC
open Format (inferText)
open Key (Tree)
open Name (Given Rules mem_nameEach_iff)

/-- The names that a class takes from its namespace: those of the namespaces inside it, of accessors and
of their parameters. -/
def identifiersOf (inner : List String) (accessors : List Accessor) : List String :=
  inner ++ accessors.map (·.name) ++ accessors.flatMap parameterNames

def ClassModel.identifiers (c : ClassModel) : List String :=
  identifiersOf (c.children.map (·.name)) c.accessors

theorem identifiers_perm (root : Namespace) :
    (((classesOf root).models true).flatMap ClassModel.identifiers).Perm
      (root.located.flatMap fun e => identifiersOf e.2.inner.names e.2.accessors) := by
  have hmodels := (Classes.models_perm_located true (classesOf root)).flatMap_right
    ClassModel.identifiers
  have houtlines := congrArg (List.flatMap fun outline => identifiersOf outline.2.1 outline.2.2)
    (map_outline_classesOf root)
  rw [List.flatMap_map] at hmodels
  rw [List.flatMap_map, List.flatMap_map] at houtlines
  exact hmodels.trans (.of_eq houtlines)

section members
variable {tree : Tree} {x : String}

theorem mem_memberNames_iff (rules : Rules) (name : String) (h : failures tree = []) :
    (x ∈ (Namespace.ofTree rules name tree).located.flatMap fun e =>
      e.2.inner.names ++ e.2.accessors.map (·.name)) ↔
      ∃ g ∈ tree.groups, Given (g.memberSegments.map rules.identifier) x := by
  have hlocated := congrArg (List.flatMap fun members => members.1 ++ members.2.map (·.name))
    (map_located_ofTree rules name tree)
  rw [List.flatMap_map, List.flatMap_map] at hlocated
  have hmembers : ∀ g ∈ tree.groups,
      (x ∈ groupNames rules g ++ (accessorsOf rules g).map (·.name) ↔
        Given (g.memberSegments.map rules.identifier) x) := by
    intro g hg
    rw [← mem_nameEach_iff, ← memberNames_eq,
      map_name_accessorsOf rules (leafFailures_of_mem_groups h hg), List.mem_append,
      List.mem_append, or_comm]
  rw [hlocated, List.mem_flatMap]
  exact exists_congr fun g => and_congr_right fun hg => hmembers g hg

theorem mem_inferred?_iff {entries : List Table.Entry} :
    (x ∈ (entries.filterMap inferred?).flatMap fun e => e.2.map (·.name)) ↔
      ∃ entry ∈ entries, ∃ arguments, inferText entry.value = .ok arguments ∧
        x ∈ arguments.map (·.name) := by
  rw [List.mem_flatMap]
  constructor
  · rintro ⟨e, he, hx⟩
    obtain ⟨entry, hentry, heq⟩ := List.mem_filterMap.mp he
    unfold inferred? at heq
    split at heq
    · next arguments harguments =>
      cases heq
      exact ⟨entry, hentry, arguments, harguments, hx⟩
    · cases heq
  · rintro ⟨entry, hentry, arguments, harguments, hx⟩
    refine ⟨(entry, arguments), List.mem_filterMap.mpr ⟨entry, hentry, ?_⟩, hx⟩
    rw [inferred?, harguments]

theorem mem_parameterNames_iff (rules : Rules) (name : String) :
    (x ∈ (Namespace.ofTree rules name tree).located.flatMap fun e =>
      e.2.accessors.flatMap parameterNames) ↔
      ∃ leaf ∈ tree.leaves, ∃ arguments, inferText leaf.2.value = .ok arguments ∧
        x ∈ arguments.map (·.name) := by
  have hall : ((Namespace.ofTree rules name tree).located.flatMap fun e =>
      e.2.accessors.flatMap parameterNames) =
      (tree.inOrder.filterMap inferred?).flatMap fun e => e.2.map (·.name) := by
    rw [← inferred_ofTree rules name, allInferred, List.flatMap_assoc]
    simp only [List.flatMap_map]
    rfl
  rw [hall, mem_inferred?_iff]
  constructor
  · rintro ⟨entry, hentry, harguments⟩
    obtain ⟨leaf, hleaf, rfl⟩ := List.mem_map.mp (tree.inOrder_perm.mem_iff.mp hentry)
    exact ⟨leaf, hleaf, harguments⟩
  · rintro ⟨leaf, hleaf, harguments⟩
    exact ⟨leaf.2, tree.inOrder_perm.mem_iff.mpr (List.mem_map_of_mem hleaf), harguments⟩

theorem mem_flatMap_identifiersOf {located : List (List String × Namespace)} :
    (x ∈ located.flatMap fun e => identifiersOf e.2.inner.names e.2.accessors) ↔
      (x ∈ located.flatMap fun e => e.2.inner.names ++ e.2.accessors.map (·.name)) ∨
        x ∈ located.flatMap fun e => e.2.accessors.flatMap parameterNames := by
  have hsplit := (List.flatMap_append_perm located
    (fun e => e.2.inner.names ++ e.2.accessors.map (·.name))
    (fun e => e.2.accessors.flatMap parameterNames)).mem_iff (a := x)
  rw [List.mem_append] at hsplit
  exact hsplit.symm

end members

section render
variable {o : Options} {tree : Tree} {source : Rendered}

theorem header_ends (o : Options) (root : Namespace) : ∃ front, header o root = fileText (front ++
    ["#define " ++ root.name ++ " [" ++ (classesOf root).names.headD "" ++ " sharedInstance]"]) := by
  unfold header
  exact ⟨_, congrArg fileText (List.append_cons _ _ _)⟩

/-- The macro stands for a name in the implementation if and only if a member of a group comes to the
base name, because its segment reads so or because all candidates before are taken, or a translation has
a parameter of that name. -/
theorem shortcut_captures_iff (hobjectiveC : o.language = .objectiveC)
    (h : render o tree = .ok source) :
    ∃ (front before : List String) (rootClass : String),
      source.header = some (fileText (front ++
        ["#define " ++ o.baseName ++ " [" ++ rootClass ++ " sharedInstance]"])) ∧
      "#import \"" ++ o.importedName ++ ".h\"" ∈ before ∧
      source.implementation = fileText (before ++ [""].intercalate
        (((classesOf (namespaceOf o tree)).models true).map (implementation o.tableName))) ∧
      (o.baseName ∈ ((classesOf (namespaceOf o tree)).models true).flatMap ClassModel.identifiers ↔
        (∃ g ∈ tree.groups,
          Given (g.memberSegments.map (Rules.of o.language o.capitalize).identifier) o.baseName) ∨
        ∃ leaf ∈ tree.leaves, ∃ arguments, inferText leaf.2.value = .ok arguments ∧
          o.baseName ∈ arguments.map (·.name)) := by
  unfold render at h
  split at h
  · cases h
  · cases h
  · next hfault hfailures =>
    cases h
    simp only [sourceOf, hobjectiveC]
    obtain ⟨front, hheader⟩ := header_ends o (namespaceOf o tree)
    refine ⟨front, _, _, congrArg some hheader, ?_, rfl, ?_⟩
    · simp
    · rw [(identifiers_perm _).mem_iff, mem_flatMap_identifiersOf, namespaceOf,
        mem_memberNames_iff _ _ hfailures, mem_parameterNames_iff, hobjectiveC]

/-- No segment reads like the base name, but the second of two members with one identifier gets it. -/
theorem shortcut_captures_suffixed :
    let o : Options := { language := .objectiveC, baseName := "a_b_2" }
    let tree : Tree := .leaf "a b" ⟨"a b", "x"⟩ (.leaf "a_b" ⟨"a_b", "y"⟩ .nil)
    ∃ (source : Rendered) (before : List String),
      render o tree = .ok source ∧
      source.implementation = fileText (before ++ [""].intercalate
        (((classesOf (namespaceOf o tree)).models true).map (implementation o.tableName))) ∧
      o.baseName ∈ ((classesOf (namespaceOf o tree)).models true).flatMap ClassModel.identifiers := by
  intro o tree
  have hfault : o.fault? = none := by decide +kernel
  have hfailures : failures tree = [] := by decide +kernel
  obtain ⟨source, hsource⟩ : ∃ source, render o tree = .ok source :=
    ⟨_, by rw [render, hfault, hfailures]⟩
  have hwanted : tree.memberSegments.map (Rules.of o.language o.capitalize).identifier =
      ["a_b", "a_b"] := by decide +kernel
  have hgiven : Given ["a_b", "a_b"] o.baseName :=
    ⟨["a_b"], "a_b", [], 1, rfl, by decide, by decide +kernel⟩
  obtain ⟨front, before, rootClass, -, -, himplementation, hcaptures⟩ :=
    shortcut_captures_iff rfl hsource
  refine ⟨source, before, hsource, himplementation, hcaptures.mpr (.inl ?_)⟩
  exact ⟨tree, List.mem_cons_self, hwanted ▸ hgiven⟩

end render

/-- The key of a translation is the base name, and so is the name of its accessor, which the macro of the
imported header stands for. -/
theorem shortcut_captures_accessor :
    let o : Options := { language := .objectiveC }
    let tree : Tree := .leaf "Localizations" ⟨"Localizations", "x"⟩ .nil
    ∃ source header, render o tree = .ok source ∧ source.header = some header ∧
      (∃ c ∈ (classesOf (namespaceOf o tree)).models true, ∃ a ∈ c.accessors,
        a.name = o.baseName) ∧
      (∃ lines, header = fileText lines ∧
        "#define Localizations [_Localizations sharedInstance]" ∈ lines) ∧
      ∃ lines, source.implementation = fileText lines ∧ "#import \"Localizations.h\"" ∈ lines ∧
        "- (NSString *)Localizations \x7b" ∈ lines := by
  intro o tree
  have hfault : o.fault? = none := by decide +kernel
  have hfailures : failures tree = [] := by decide +kernel
  refine ⟨_, _, by rw [render, hfault, hfailures], rfl, by decide +kernel,
    ⟨_, rfl, by decide +kernel⟩, _, rfl, by decide +kernel, by decide +kernel⟩

end LocaleAccessors.Source.ObjectiveC
