import LocaleAccessors.Proofs.Lists
import LocaleAccessors.Proofs.Source.ObjectiveC.Files
import LocaleAccessors.Source.Render

/-!
A header and its implementation agree. Both are read as the same blocks, one for each namespace of the
tree, and each block stands after those of the classes that its getters return. The imported header's
name stands in the implementation as it is; a name with a line that begins a block brings one more.
-/

namespace LocaleAccessors.Source.ObjectiveC
open Text (IsWord isWordChar)

/-! The classes by the paths of their namespaces. -/

def classAt (root : Namespace) (path : List String) : String :=
  ((root.paths.zip (classesOf root).names).lookup path).getD ""

/-- The block of the namespace at a path: getters of the classes of the namespaces inside it, its
accessors, and at the root the shared instance. -/
def blockAt (classAt : List String → String) (path children : List String)
    (accessors : List Accessor) : Block :=
  ⟨classAt path,
    children.map (fun child => ⟨false, pointerTo (classAt (path ++ [child])), child⟩) ++
      accessors.map accessorMethod ++ if path = [] then [sharedMethod (classAt path)] else []⟩

section places
variable {root : Namespace} {e : List String × ClassModel}

theorem map_outline_classesOf (root : Namespace) :
    ((classesOf root).located true).map Classes.outline =
      root.located.map fun e => (root.name :: e.1, e.2.inner.names, e.2.accessors) := by
  rw [classesOf, Classes.map_outline_located, Namespaces.located, Namespaces.located,
    List.append_nil, Namespace.located]
  simp [Function.comp_def]

theorem map_path_classesOf (root : Namespace) :
    ((classesOf root).located true).map (fun e => e.1.tail) = root.paths := by
  have htails := congrArg (List.map fun e => e.1.tail) (map_outline_classesOf root)
  rw [List.map_map, List.map_map] at htails
  rw [← Namespace.map_fst_located]
  exact htails

theorem className_eq (hpaths : root.paths.Nodup) (he : e ∈ (classesOf root).located true) :
    e.2.name = classAt root e.1.tail := by
  have hzip : root.paths.zip (classesOf root).names =
      ((classesOf root).located true).map fun e => (e.1.tail, e.2.name) := by
    rw [← map_path_classesOf, ← Classes.map_name_located true, List.zip_map']
  have hnodup : ((((classesOf root).located true).map fun e => (e.1.tail, e.2.name)).map
      Prod.fst).Nodup := by
    rw [List.map_map]
    exact map_path_classesOf root ▸ hpaths
  have hmem : (e.1.tail, e.2.name) ∈
      ((classesOf root).located true).map fun e => (e.1.tail, e.2.name) :=
    List.mem_map_of_mem he
  rw [classAt, hzip, lookup_of_mem hnodup hmem]
  rfl

theorem blockOf_eq (hpaths : root.paths.Nodup) (he : e ∈ (classesOf root).located true) :
    blockOf e.2 = blockAt (classAt root) e.1.tail (e.2.children.map (·.name)) e.2.accessors := by
  have hname := className_eq hpaths he
  have hgetters : e.2.children.map getterMethod = (e.2.children.map (·.name)).map fun child =>
      ⟨false, pointerTo (classAt root (e.1.tail ++ [child])), child⟩ := by
    rw [List.map_map]
    refine List.map_congr_left fun g hg => ?_
    obtain ⟨f, hf, hpath, hchild⟩ := Classes.exists_located_of_mem_children he hg
    have hclass := className_eq hpaths hf
    rw [hchild, hpath, List.tail_append_of_ne_nil (Classes.ne_nil_of_mem_located he)] at hclass
    rw [getterMethod, hclass]
    rfl
  have hroot : e.2.isRoot = true ↔ e.1.tail = [] := by
    rw [Classes.isRoot_of_mem_located he, Bool.true_and, List.isEmpty_iff]
  rw [blockOf, blockAt, hgetters, hname]
  simp only [hroot]

theorem blocks_perm (hpaths : root.paths.Nodup) :
    (((classesOf root).models true).map blockOf).Perm
      (root.located.map fun e => blockAt (classAt root) e.1 e.2.inner.names e.2.accessors) := by
  have hblocks : ((classesOf root).located true).map (fun e => blockOf e.2) =
      root.located.map fun e => blockAt (classAt root) e.1 e.2.inner.names e.2.accessors := by
    calc
      ((classesOf root).located true).map (fun e => blockOf e.2)
          = (((classesOf root).located true).map Classes.outline).map
              (fun e => blockAt (classAt root) e.1.tail e.2.1 e.2.2) := by
            rw [List.map_map]
            exact List.map_congr_left fun e he => blockOf_eq hpaths he
      _ = root.located.map fun e => blockAt (classAt root) e.1 e.2.inner.names e.2.accessors := by
            rw [map_outline_classesOf, List.map_map]
            rfl
  have hmodels := (Classes.models_perm_located true (classesOf root)).map blockOf
  rw [List.map_map] at hmodels
  exact hblocks ▸ hmodels

end places

/-! The order of the blocks. -/

def namesIn (type : String) : List String :=
  (type.toList.splitOnP fun c => !isWordChar c).map String.ofList

theorem mem_of_mem_splitOnP {α : Type} {p : α → Bool} {a : α} {as piece : List α}
    (hpiece : piece ∈ as.splitOnP p) (ha : a ∈ piece) : a ∈ as := by
  induction as generalizing piece with
  | nil =>
    rw [List.splitOnP_nil, List.mem_singleton] at hpiece
    rw [hpiece] at ha
    cases ha
  | cons b as ih =>
    rw [List.splitOnP_cons_eq_if_modifyHead] at hpiece
    split at hpiece
    · cases List.mem_cons.mp hpiece with
      | inl h =>
        rw [h] at ha
        cases ha
      | inr h => exact List.mem_cons_of_mem b (ih h ha)
    · cases hsplit : as.splitOnP p with
      | nil =>
        rw [hsplit] at hpiece
        cases hpiece
      | cons first others =>
        rw [hsplit, List.modifyHead_cons] at hpiece
        cases List.mem_cons.mp hpiece with
        | inl h =>
          rw [h, List.mem_cons] at ha
          exact ha.elim (fun h => h ▸ List.mem_cons_self) fun h =>
            List.mem_cons_of_mem b (ih (hsplit ▸ List.mem_cons_self) h)
        | inr h =>
          exact List.mem_cons_of_mem b (ih (hsplit ▸ List.mem_cons_of_mem first h) ha)

theorem toList_subset_of_mem_namesIn {name type : String} (h : name ∈ namesIn type) :
    ∀ c ∈ name.toList, c ∈ type.toList := by
  obtain ⟨piece, hpiece, rfl⟩ := List.mem_map.mp h
  intro c hc
  rw [String.toList_ofList] at hc
  exact mem_of_mem_splitOnP hpiece hc

theorem underscore_mem {name : String} (h : IsClassName name) : '_' ∈ name.toList :=
  List.mem_of_head? h.underscore

theorem eq_of_mem_namesIn_pointerTo {name className : String} (hname : IsWord name)
    (hclass : IsWord className) (h : name ∈ namesIn (pointerTo className)) : name = className := by
  obtain ⟨piece, hpiece, rfl⟩ := List.mem_map.mp h
  have hchars : ∀ c ∈ className.toList, (!isWordChar c) = false := by
    intro c hc
    rw [hclass.chars c hc]
    rfl
  have hlist : (pointerTo className).toList = className.toList ++ ' ' :: ['*'] := by
    simp [pointerTo]
  rw [hlist, List.splitOnP_append_cons_of_forall_mem hchars ' ' rfl] at hpiece
  cases List.mem_cons.mp hpiece with
  | inl heq => rw [heq, String.ofList_toList]
  | inr hmem =>
    have hblanks : ∀ piece ∈ ['*'].splitOnP fun c => !isWordChar c, piece = [] := by decide
    rw [hblanks piece hmem] at hname
    exact absurd rfl hname.not_empty

theorem not_mem_namesIn_accessorType {name : String} (h : IsClassName name) (a : Accessor) :
    name ∉ namesIn (accessorType a) := by
  intro hmem
  -- Every class name begins with an underscore, and no type of a value has one.
  have hunderscore := toList_subset_of_mem_namesIn hmem '_' (underscore_mem h)
  unfold accessorType at hunderscore
  split at hunderscore
  · revert hunderscore
    decide
  · simp only [String.toList_append, List.mem_append] at hunderscore
    obtain (hfront | htypes) | hback := hunderscore
    · revert hfront
      decide
    · exact (no_signs_of_types a _ htypes).2.2.2 rfl
    · revert hback
      decide

/-- The blocks of all namespaces. Different blocks have different classes, and the types in a block
name no classes but those of earlier blocks and, for the shared instance, its own. -/
structure ClassBlocks (root : Namespace) (blocks : List Block) : Prop where
  complete : blocks.Perm (root.located.map fun e =>
    blockAt (classAt root) e.1 e.2.inner.names e.2.accessors)
  distinct : (blocks.map (·.className)).Nodup
  earlier : ∀ before b after, blocks = before ++ b :: after → ∀ m ∈ b.methods,
    ∀ name ∈ blocks.map (·.className), name ∈ namesIn m.type →
      (m = sharedMethod b.className ∧ name = b.className) ∨ name ∈ before.map (·.className)

theorem map_className_perm (root : Namespace) :
    ((((classesOf root).models true).map blockOf).map (·.className)).Perm
      (classesOf root).names := by
  have hmodels := (Classes.models_perm_located true (classesOf root)).map (·.name)
  rw [List.map_map, Function.comp_def, Classes.map_name_located] at hmodels
  rw [List.map_map]
  exact hmodels

section order
variable {models : List ClassModel} {before after : List Block} {b : Block} {m : Method}
  {name : String}

/-- The class that a method names is that of an earlier block or, for the shared instance, of its
own. -/
theorem earlier_of_mem_namesIn (hmodels : ChildrenFirst [] models)
    (hworded : ∀ c ∈ models, c.Worded) (heq : models.map blockOf = before ++ b :: after)
    (hm : m ∈ b.methods) (hclass : IsClassName name) (hname : name ∈ namesIn m.type) :
    (m = sharedMethod b.className ∧ name = b.className) ∨ name ∈ before.map (·.className) := by
  obtain ⟨first, rest, rfl, rfl, hrest⟩ := List.map_eq_append_iff.mp heq
  obtain ⟨c, last, rfl, rfl, rfl⟩ := List.map_eq_cons_iff.mp hrest
  have hc := hworded c (List.mem_append_right first List.mem_cons_self)
  rw [blockOf, List.mem_append, List.mem_append] at hm
  obtain (hm | hm) | hm := hm
  -- A getter returns a class that was written before.
  · obtain ⟨g, hg, rfl⟩ := List.mem_map.mp hm
    have hgetter := eq_of_mem_namesIn_pointerTo hclass.word (hc.children g hg).2 hname
    refine .inr ?_
    rw [hgetter, List.map_map]
    exact hmodels.mem_of_eq_append hg
  · obtain ⟨a, -, rfl⟩ := List.mem_map.mp hm
    exact absurd hname (not_mem_namesIn_accessorType hclass a)
  -- Only the root has a shared instance.
  · split at hm
    · rw [List.mem_singleton] at hm
      rw [hm] at hname
      exact .inl ⟨hm, eq_of_mem_namesIn_pointerTo hclass.word hc.name hname⟩
    · cases hm

end order

section classes
variable {root : Namespace}

theorem isClassName_of_mem_classesOf
    (h : Namespaces.Worded (.cons root.name root.accessors root.inner .nil)) :
    ∀ name ∈ (classesOf root).names, IsClassName name :=
  fun _ => isClassName_of_mem_names isClassName_underscore h

theorem worded_classesOf (h : Namespaces.Worded (.cons root.name root.accessors root.inner .nil)) :
    ∀ c ∈ (classesOf root).models true, c.Worded :=
  worded_models isClassName_underscore h true

theorem classBlocks_classesOf (hpaths : root.paths.Nodup)
    (h : Namespaces.Worded (.cons root.name root.accessors root.inner .nil)) :
    ClassBlocks root (((classesOf root).models true).map blockOf) where
  complete := blocks_perm hpaths
  distinct := (map_className_perm root).nodup_iff.mpr (nodup_names _ _ _)
  earlier := by
    intro before b after heq m hm name hmem hname
    have hclass := isClassName_of_mem_classesOf h name ((map_className_perm root).mem_iff.mp hmem)
    exact earlier_of_mem_namesIn (childrenFirst_models [] true _) (worded_classesOf h) heq hm hclass
      hname

end classes

theorem length_located_namespaceOf (o : Options) (tree : Key.Tree) :
    (namespaceOf o tree).located.length = tree.groupCount := by
  have hlocated := congrArg List.length (Namespace.map_fst_located (namespaceOf o tree))
  rw [List.length_map, Namespace.paths, List.length_cons] at hlocated
  rw [hlocated]
  exact length_paths_ofGroups _ _ tree

section render
variable {o : Options} {tree : Key.Tree} {source : Rendered}

theorem ClassBlocks.length {blocks : List Block} (h : ClassBlocks (namespaceOf o tree) blocks) :
    blocks.length = tree.groupCount := by
  rw [h.complete.length_eq, List.length_map, length_located_namespaceOf]

theorem worded_namespaceOf (tree : Key.Tree) (h : o.fault? = none) : Namespaces.Worded
    (.cons o.baseName (namespaceOf o tree).accessors (namespaceOf o tree).inner .nil) :=
  ⟨Options.isWord_baseName h, fun _ ha => worded_of_mem_accessorsOf ha, worded_ofGroups _ _ tree,
    trivial⟩

/-- What renders as Objective-C has a header and an implementation with the same blocks, one for each
group of the tree, if the name of the imported header brings none. -/
theorem header_agrees (hobjectiveC : o.language = .objectiveC)
    (hname : BringsNoBlock o.importedName) (h : render o tree = .ok source) :
    ∃ header blocks, source.header = some header ∧ declared header = some blocks ∧
      defined source.implementation = some blocks ∧ blocks.length = tree.groupCount ∧
      ClassBlocks (namespaceOf o tree) blocks := by
  unfold render at h
  split at h
  · cases h
  · cases h
  · next hfault _ =>
    cases h
    have hpaths : (namespaceOf o tree).paths.Nodup := paths_nodup_ofTree _ _ tree
    have hbase := Options.isWord_baseName hfault
    have hworded := worded_namespaceOf tree hfault
    have hnames : ∀ name ∈ (classesOf (namespaceOf o tree)).names, IsWord name :=
      fun name hmem => (isClassName_of_mem_classesOf hworded name hmem).word
    have hblocks := classBlocks_classesOf hpaths hworded
    simp only [sourceOf, hobjectiveC]
    exact ⟨_, _, rfl, declared_header hfault hbase hnames (worded_classesOf hworded),
      defined_implementation hname (worded_classesOf hworded), hblocks.length, hblocks⟩

theorem header_agrees_of_nested :
    ∃ source header blocks, render { language := .objectiveC }
        (.leaf "b" ⟨"a", "%@"⟩ (.group "c" (.leaf "d" ⟨"e", ""⟩ .nil) .nil)) = .ok source ∧
      source.header = some header ∧ declared header = some blocks ∧
      defined source.implementation = some blocks ∧ blocks.length = 2 := by
  have hfault : Options.fault? { language := .objectiveC } = none := by decide +kernel
  have hfailures : failures
      (.leaf "b" ⟨"a", "%@"⟩ (.group "c" (.leaf "d" ⟨"e", ""⟩ .nil) .nil)) = [] := by
    decide +kernel
  have hname : BringsNoBlock (Options.importedName { language := .objectiveC }) :=
    bringsNoBlock_of_oneLine (by decide)
  obtain ⟨source, hsource⟩ : ∃ source, render { language := .objectiveC }
      (.leaf "b" ⟨"a", "%@"⟩ (.group "c" (.leaf "d" ⟨"e", ""⟩ .nil) .nil)) = .ok source :=
    ⟨_, by rw [render, hfault, hfailures]⟩
  obtain ⟨header, blocks, hheader, hdeclared, hdefined, hlength, -⟩ :=
    header_agrees rfl hname hsource
  exact ⟨source, header, blocks, hsource, hheader, hdeclared, hdefined, hlength⟩

end render

/-- The name of the imported header is four lines, and the second one begins a block. -/
def strayBlock : Options :=
  { language := .objectiveC, headerName := some "x\"\n@implementation Evil\n@end\n//" }

theorem imported_name_brings_block :
    ∃ source header, render strayBlock (.leaf "a" ⟨"a", "b"⟩ .nil) = .ok source ∧
      source.header = some header ∧
      (declared header).map (·.map (·.className)) = some ["_Localizations"] ∧
      (defined source.implementation).map (·.map (·.className)) =
        some ["Evil", "_Localizations"] := by
  have hfault : strayBlock.fault? = none := by decide +kernel
  have hfailures : failures (.leaf "a" ⟨"a", "b"⟩ .nil) = [] := by decide +kernel
  have hsource : ∀ root, sourceOf strayBlock root =
      ⟨.objectiveC, implementationFile strayBlock root, some (header strayBlock root)⟩ :=
    fun _ => rfl
  refine ⟨_, _, by rw [render, hfault, hfailures, hsource], rfl, ?_, ?_⟩
  · unfold declared header
    rw [linesOf_fileText]
    decide +kernel
  · unfold defined implementationFile
    rw [linesOf_fileText]
    decide +kernel

end LocaleAccessors.Source.ObjectiveC
