import LocaleAccessors.Proofs.Key.Accounting
import LocaleAccessors.Proofs.Namespace.Failures
import LocaleAccessors.Proofs.Source.ObjectiveC.Names

/-!
How many nodes a tree has, and how many namespaces and accessors are built of it. Each group has a
namespace and a class, each leaf has either an accessor or a failure, and each node but the root has a
line of the outline.
-/

namespace LocaleAccessors
open Key (Tree)
open Name (Rules)
open Source (namespaceOf)
open Source.ObjectiveC (classNames classesNamed map_fst_classNames length_located_namespaceOf)
open Table (Entry)

namespace Key.Tree

theorem length_outline (indent : String) (tree : Tree) :
    (tree.outline indent).length + 1 = tree.groupCount + tree.leafCount := by
  induction tree generalizing indent with
  | nil => rfl
  | leaf segment entry siblings ih =>
    have hsiblings := ih indent
    rw [outline, List.length_cons, groupCount, leafCount]
    omega
  | group segment children siblings ihchildren ihsiblings =>
    have hchildren := ihchildren (indent ++ "  ")
    have hsiblings := ihsiblings indent
    rw [outline, List.length_cons, List.length_append, groupCount, leafCount]
    omega

end Key.Tree

def accessorCount (located : List (List String × Namespace)) : Nat :=
  (located.map fun e => e.2.accessors.length).sum

theorem length_allInferred (located : List (List String × Namespace)) :
    (allInferred located).length = accessorCount located := by
  simp [allInferred, accessorCount, List.length_flatMap]

theorem accessorCount_cons (name : String) (accessors : List Accessor)
    (inner siblings : Namespaces) :
    accessorCount (Namespaces.cons name accessors inner siblings).located =
      accessors.length + (accessorCount inner.located + accessorCount siblings.located) := by
  simp only [← length_allInferred, allInferred_cons, List.length_append, List.length_map]

theorem length_inferred_add_failures (entries : List Entry) :
    (entries.filterMap inferred?).length + (entries.filterMap Failure.ofEntry?).length =
      entries.length := by
  induction entries with
  | nil => rfl
  | cons entry entries ih =>
    cases hinferred : Format.inferText entry.value with
    | ok arguments =>
      have hkept : inferred? entry = some (entry, arguments) := by rw [inferred?, hinferred]
      have hnone : Failure.ofEntry? entry = none := by rw [Failure.ofEntry?, hinferred]
      rw [List.filterMap_cons_some hkept, List.filterMap_cons_none hnone, List.length_cons,
        List.length_cons, ← ih, Nat.add_right_comm]
    | error fault =>
      have hnone : inferred? entry = none := by rw [inferred?, hinferred]
      have hfailed : Failure.ofEntry? entry = some ⟨fault, entry.key, entry.value⟩ := by
        rw [Failure.ofEntry?, hinferred]
      rw [List.filterMap_cons_none hnone, List.filterMap_cons_some hfailed, List.length_cons,
        List.length_cons, ← ih, Nat.add_assoc]

theorem accessorCount_add_failures (rules : Rules) (name : String) (tree : Tree) :
    accessorCount (Namespace.ofTree rules name tree).located + (failures tree).length =
      tree.leafCount := by
  rw [← length_allInferred, inferred_ofTree, failures_eq, length_inferred_add_failures,
    tree.inOrder_perm.length_eq, List.length_map, Tree.length_leaves]

/-- What is counted of a tree that has so many groups and leaves, and of the namespaces that are built
of it with the failures that are found. -/
structure Counts (tree : Tree) (root : Namespace) (found : List Failure) (groups leaves : Nat) :
    Prop where
  listed : tree.leaves.length = leaves
  outlined : ∀ indent, (tree.outline indent).length + 1 = groups + leaves
  walked : root.located.length = groups
  named : ((classNames root).map Prod.fst).Nodup ∧ (classNames root).length = groups
  built : accessorCount root.located + found.length = leaves

theorem counts_namespaceOf (o : Options) (tree : Tree) :
    Counts tree (namespaceOf o tree) (failures tree) tree.groupCount tree.leafCount where
  listed := tree.length_leaves
  outlined := fun indent => tree.length_outline indent
  walked := length_located_namespaceOf o tree
  named := by
    refine ⟨(classesNamed (paths_nodup_ofTree _ _ tree)).once, ?_⟩
    rw [← List.length_map Prod.fst, map_fst_classNames, ← Namespace.map_fst_located,
      List.length_map, length_located_namespaceOf]
  built := accessorCount_add_failures _ _ tree

end LocaleAccessors
