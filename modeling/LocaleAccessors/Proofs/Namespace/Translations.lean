import LocaleAccessors.Proofs.Namespace.Failures
import LocaleAccessors.Proofs.Source.ObjectiveC.Names

/-!
Names do not depend on translations. Two trees that differ in their translations only have the same
namespaces and classes, and each leaf has its name whether or not its own translation or another one is
at fault.
-/

namespace LocaleAccessors
open Key (Tree)
open Name (Rules distinctName)
open Source (namespaceOf)
open Source.ObjectiveC (classNames names_classesOf)
open Table (Entry)

/-- Trees with the same segments and keys in the same places. -/
inductive Key.Tree.SameKeys : Tree → Tree → Prop
  | nil : SameKeys .nil .nil
  | leaf {segment : String} {entry edited : Entry} {siblings others : Tree} :
      entry.key = edited.key → SameKeys siblings others →
        SameKeys (.leaf segment entry siblings) (.leaf segment edited others)
  | group {segment : String} {children inner siblings others : Tree} :
      SameKeys children inner → SameKeys siblings others →
        SameKeys (.group segment children siblings) (.group segment inner others)

structure Site where
  path : List String
  name : String
  deriving DecidableEq

def accessorAt (leaf : Site × Entry) : Option (List String × Accessor) :=
  (Accessor.ofEntry? leaf.1.name leaf.2).map (leaf.1.path, ·)

def allPlaced (located : List (List String × Namespace)) : List (List String × Accessor) :=
  located.flatMap fun (path, n) => n.accessors.map (path, ·)

/-- The leaves of a tree, in their order, have accessors at these sites, as far as they have any. -/
structure Serves (sites : List Site) (tree : Tree) (root : Namespace) : Prop where
  length_eq : sites.length = tree.inOrder.length
  placed : allPlaced root.located = (sites.zip tree.inOrder).filterMap accessorAt

section sites
variable (rules : Rules)

def leafSites (tree : Tree) : List (Site × Entry) :=
  (namedLeaves rules [] tree).map fun (name, entry) => (⟨[], name⟩, entry)

def within (name : String) (leaf : Site × Entry) : Site × Entry :=
  (⟨name :: leaf.1.path, leaf.1.name⟩, leaf.2)

def groupSites (taken : List String) : Tree → List (Site × Entry)
  | .nil => []
  | .leaf _ _ siblings => groupSites taken siblings
  | .group segment children siblings =>
    let name := distinctName (rules.identifier segment) taken
    (leafSites rules children ++
        groupSites ((namedLeaves rules [] children).map Prod.fst) children).map (within name) ++
      groupSites (name :: taken) siblings

def siteEntries (tree : Tree) : List (Site × Entry) :=
  leafSites rules tree ++ groupSites rules ((namedLeaves rules [] tree).map Prod.fst) tree

theorem map_snd_within (name : String) (leaves : List (Site × Entry)) :
    (leaves.map (within name)).map Prod.snd = leaves.map Prod.snd := by
  rw [List.map_map]
  rfl

theorem map_fst_within (name : String) (leaves : List (Site × Entry)) :
    (leaves.map (within name)).map Prod.fst =
      (leaves.map Prod.fst).map fun site => ⟨name :: site.path, site.name⟩ := by
  rw [List.map_map, List.map_map]
  rfl

theorem map_snd_leafSites (tree : Tree) :
    (leafSites rules tree).map Prod.snd = tree.ownLeaves := by
  rw [leafSites, List.map_map, ← map_snd_namedLeaves rules [] tree]
  rfl

theorem map_snd_groupSites (taken : List String) (tree : Tree) :
    (groupSites rules taken tree).map Prod.snd = tree.ownGroups.flatMap Tree.inOrder := by
  induction tree generalizing taken with
  | nil => rfl
  | leaf segment entry siblings ih => exact ih taken
  | group segment children siblings ihchildren ihsiblings =>
    rw [groupSites, List.map_append, map_snd_within, List.map_append, map_snd_leafSites, ihchildren,
      ihsiblings, Tree.ownGroups, List.flatMap_cons, Tree.inOrder_eq children]

theorem map_snd_siteEntries (tree : Tree) :
    (siteEntries rules tree).map Prod.snd = tree.inOrder := by
  rw [siteEntries, List.map_append, map_snd_leafSites, map_snd_groupSites, Tree.inOrder_eq]

theorem accessorAt_within (name : String) (leaf : Site × Entry) :
    accessorAt (within name leaf) = (accessorAt leaf).map fun (path, a) => (name :: path, a) := by
  rw [accessorAt, accessorAt, Option.map_map]
  rfl

theorem filterMap_within (name : String) (leaves : List (Site × Entry)) :
    (leaves.map (within name)).filterMap accessorAt =
      (leaves.filterMap accessorAt).map fun (path, a) => (name :: path, a) := by
  rw [List.filterMap_map, List.map_filterMap]
  exact List.filterMap_congr fun leaf _ => accessorAt_within name leaf

theorem filterMap_leafSites (tree : Tree) :
    (leafSites rules tree).filterMap accessorAt = (accessorsOf rules tree).map ([], ·) := by
  rw [leafSites, accessorsOf, List.filterMap_map, List.map_filterMap]
  rfl

theorem allPlaced_cons (name : String) (accessors : List Accessor) (inner siblings : Namespaces) :
    allPlaced (Namespaces.cons name accessors inner siblings).located =
      (accessors.map ([], ·) ++ allPlaced inner.located).map (fun (path, a) => (name :: path, a)) ++
        allPlaced siblings.located := by
  simp [allPlaced, Namespaces.located, List.flatMap_map, List.map_flatMap, Function.comp_def]

theorem allPlaced_ofGroups (taken : List String) (tree : Tree) :
    allPlaced (Namespaces.ofGroups rules taken tree).located =
      (groupSites rules taken tree).filterMap accessorAt := by
  induction tree generalizing taken with
  | nil => rfl
  | leaf segment entry siblings ih => exact ih taken
  | group segment children siblings ihchildren ihsiblings =>
    rw [Namespaces.ofGroups, allPlaced_cons, ihchildren, ihsiblings, groupSites,
      List.filterMap_append, filterMap_within, List.filterMap_append, filterMap_leafSites]

theorem allPlaced_ofTree (name : String) (tree : Tree) :
    allPlaced (Namespace.ofTree rules name tree).located =
      (siteEntries rules tree).filterMap accessorAt := by
  rw [siteEntries, List.filterMap_append, filterMap_leafSites, ← allPlaced_ofGroups]
  rfl

theorem serves_siteEntries (name : String) (tree : Tree) :
    Serves ((siteEntries rules tree).map Prod.fst) tree (.ofTree rules name tree) where
  length_eq := by rw [← map_snd_siteEntries rules tree, List.length_map, List.length_map]
  placed := by
    rw [allPlaced_ofTree, ← map_snd_siteEntries rules tree, ← List.zip_of_prod rfl rfl]

end sites

/-- The names of some namespaces, with their paths. -/
def titles (located : List (List String × Namespace)) : List (List String × String) :=
  located.map fun (path, n) => (path, n.name)

theorem titles_cons (name : String) (accessors : List Accessor) (inner siblings : Namespaces) :
    titles (Namespaces.cons name accessors inner siblings).located =
      ([name], name) :: (titles inner.located).map (fun (path, inner) => (name :: path, inner)) ++
        titles siblings.located := by
  simp [titles, Namespaces.located]

section edited
variable {tree edited : Tree} (h : tree.SameKeys edited)
include h

theorem ownKeys_edited : edited.ownLeaves.map (·.key) = tree.ownLeaves.map (·.key) := by
  induction h with
  | nil => rfl
  | leaf hkey _ ih => exact congrArg₂ List.cons hkey.symm ih
  | group _ _ _ ih => exact ih

theorem groupKeys_edited : (edited.ownGroups.flatMap Tree.inOrder).map (·.key) =
    (tree.ownGroups.flatMap Tree.inOrder).map (·.key) := by
  induction h with
  | nil => rfl
  | leaf _ _ ih => exact ih
  | group hchildren _ ihchildren ihsiblings =>
    simp only [Tree.ownGroups, List.flatMap_cons, List.map_append, Tree.inOrder_eq,
      ownKeys_edited hchildren]
    rw [ihchildren, ihsiblings]

theorem keys_edited : edited.inOrder.map (·.key) = tree.inOrder.map (·.key) := by
  rw [Tree.inOrder_eq, Tree.inOrder_eq, List.map_append, List.map_append, ownKeys_edited h,
    groupKeys_edited h]

theorem names_edited (rules : Rules) (taken : List String) :
    (namedLeaves rules taken edited).map Prod.fst = (namedLeaves rules taken tree).map Prod.fst := by
  induction h generalizing taken with
  | nil => rfl
  | leaf _ _ ih => exact congrArg (_ :: ·) (ih _)
  | group _ _ _ ih => exact ih taken

theorem leafSites_edited (rules : Rules) :
    (leafSites rules edited).map Prod.fst = (leafSites rules tree).map Prod.fst := by
  have hnames := congrArg (List.map (Site.mk [])) (names_edited h rules [])
  rw [List.map_map, List.map_map] at hnames
  rw [leafSites, leafSites, List.map_map, List.map_map]
  exact hnames

theorem groupSites_edited (rules : Rules) (taken : List String) :
    (groupSites rules taken edited).map Prod.fst = (groupSites rules taken tree).map Prod.fst := by
  induction h generalizing taken with
  | nil => rfl
  | leaf _ _ ih => exact ih taken
  | group hchildren _ ihchildren ihsiblings =>
    simp only [groupSites, List.map_append, map_fst_within, leafSites_edited hchildren,
      names_edited hchildren, ihchildren, ihsiblings]

theorem sites_edited (rules : Rules) :
    (siteEntries rules edited).map Prod.fst = (siteEntries rules tree).map Prod.fst := by
  rw [siteEntries, siteEntries, List.map_append, List.map_append, leafSites_edited h,
    names_edited h, groupSites_edited h]

theorem titles_ofGroups_edited (rules : Rules) (taken : List String) :
    titles (Namespaces.ofGroups rules taken edited).located =
      titles (Namespaces.ofGroups rules taken tree).located := by
  induction h generalizing taken with
  | nil => rfl
  | leaf _ _ ih => exact ih taken
  | group hchildren _ ihchildren ihsiblings =>
    simp only [Namespaces.ofGroups, titles_cons, names_edited hchildren, ihchildren, ihsiblings]

theorem titles_edited (rules : Rules) (name : String) :
    titles (Namespace.ofTree rules name edited).located =
      titles (Namespace.ofTree rules name tree).located := by
  have hroot (tree : Tree) : titles (Namespace.ofTree rules name tree).located = ([], name) ::
      titles (Namespaces.ofGroups rules ((namedLeaves rules [] tree).map Prod.fst) tree).located := rfl
  rw [hroot, hroot, names_edited h, titles_ofGroups_edited h]

end edited

theorem map_fst_titles (located : List (List String × Namespace)) :
    (titles located).map Prod.fst = located.map Prod.fst := by
  rw [titles, List.map_map]
  rfl

theorem classNames_of_titles {root other : Namespace} (hname : other.name = root.name)
    (h : titles other.located = titles root.located) : classNames other = classNames root := by
  have hpaths := congrArg (List.map Prod.fst) h
  rw [map_fst_titles, map_fst_titles, Namespace.map_fst_located, Namespace.map_fst_located] at hpaths
  rw [classNames, classNames, names_classesOf, names_classesOf, hname, hpaths]

/-- The namespaces of a tree, built with the failures noted down. -/
def collected (o : Options) (tree : Tree) : Except Format.Fault (Namespace × List Failure) :=
  (Namespace.collect (.of o.language o.capitalize) o.baseName tree).run []

theorem collected_eq_ok {o : Options} {tree : Tree} {root : Namespace} {found : List Failure}
    (h : collected o tree = .ok (root, found)) : root = namespaceOf o tree := by
  rw [collected, run_collect] at h
  unfold unlessBroken at h
  split at h
  · cases h
    rfl
  · cases h

/-- An edited tree has the namespaces and classes of the first one, and one list of sites serves the
leaves of both; so no accessor has another name for what became of its translation or of others. -/
theorem names_kept_by_editing (o : Options) {tree edited : Tree} (h : tree.SameKeys edited)
    {root after : Namespace} {found foundAfter : List Failure}
    (hroot : collected o tree = .ok (root, found))
    (hafter : collected o edited = .ok (after, foundAfter)) :
    titles after.located = titles root.located ∧ classNames after = classNames root ∧
      edited.inOrder.map (·.key) = tree.inOrder.map (·.key) ∧
      ∃ sites, Serves sites tree root ∧ Serves sites edited after := by
  obtain rfl := collected_eq_ok hroot
  obtain rfl := collected_eq_ok hafter
  have htitles := titles_edited h (.of o.language o.capitalize) o.baseName
  refine ⟨htitles, classNames_of_titles rfl htitles, keys_edited h, _, serves_siteEntries _ _ tree, ?_⟩
  rw [← sites_edited h]
  exact serves_siteEntries _ _ edited

/-- The first leaf keeps its name from the other leaf and from the group, with an accessor and
without. -/
theorem names_kept_from_siblings :
    let others : Tree := .group "a_b" (.leaf "c" ⟨"a_b.c", "z"⟩ .nil) (.leaf "a b" ⟨"a b", "y"⟩ .nil)
    let tree : Tree := .leaf "a-b" ⟨"a-b", "%1$d %d"⟩ others
    let edited : Tree := .leaf "a-b" ⟨"a-b", "x"⟩ others
    tree.SameKeys edited ∧
      ∃ root after failure, collected {} tree = .ok (root, [failure]) ∧
        collected {} edited = .ok (after, []) ∧
        titles after.located = titles root.located ∧
        titles root.located = [([], "Localizations"), (["a_b_3"], "a_b_3")] ∧
        root.accessors.map (·.name) = ["a_b_2"] ∧
        after.accessors.map (·.name) = ["a_b", "a_b_2"] := by
  intro others tree edited
  have hothers : others.SameKeys others := .group (.leaf rfl .nil) (.leaf rfl .nil)
  have h : tree.SameKeys edited := .leaf rfl hothers
  obtain ⟨root, failure, hroot, hpaths, hnames⟩ : ∃ root failure,
      collected {} tree = .ok (root, [failure]) ∧
      titles root.located = [([], "Localizations"), (["a_b_3"], "a_b_3")] ∧
      root.accessors.map (·.name) = ["a_b_2"] :=
    ⟨namespaceOf {} tree, ⟨.mixed "%d", "a-b", "%1$d %d"⟩, by decide +kernel, by decide +kernel,
      by decide +kernel⟩
  obtain ⟨after, hafter, hnamesAfter⟩ : ∃ after, collected {} edited = .ok (after, []) ∧
      after.accessors.map (·.name) = ["a_b", "a_b_2"] :=
    ⟨namespaceOf {} edited, by decide +kernel, by decide +kernel⟩
  obtain ⟨htitles, -⟩ := names_kept_by_editing {} h hroot hafter
  exact ⟨h, root, after, failure, hroot, hafter, htitles, hpaths, hnames, hnamesAfter⟩

end LocaleAccessors
