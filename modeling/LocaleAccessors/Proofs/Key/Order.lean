import LocaleAccessors.Key.Tree

/-!
The order in which the leaves of a tree are taken: in each group its own leaves come first and then
those of its groups, both in child order. No leaf is left out and none comes twice.
-/

namespace LocaleAccessors.Key.Tree
open Table (Entry)

def ownLeaves : Tree → List Entry
  | nil => []
  | leaf _ entry siblings => entry :: siblings.ownLeaves
  | group _ _ siblings => siblings.ownLeaves

def ownGroups : Tree → List Tree
  | nil => []
  | leaf _ _ siblings => siblings.ownGroups
  | group _ children siblings => children :: siblings.ownGroups

theorem sizeOf_lt_of_mem_ownGroups {inner tree : Tree} (h : inner ∈ tree.ownGroups) :
    sizeOf inner < sizeOf tree := by
  induction tree with
  | nil => cases h
  | leaf segment entry siblings ih =>
    have hlt := ih h
    simp only [leaf.sizeOf_spec]
    omega
  | group segment children siblings _ ih =>
    simp only [group.sizeOf_spec]
    cases h with
    | head => omega
    | tail _ h =>
      have hlt := ih h
      omega

def inOrder (tree : Tree) : List Entry :=
  tree.ownLeaves ++ tree.ownGroups.attach.flatMap fun inner => inOrder inner.1
termination_by sizeOf tree
decreasing_by exact sizeOf_lt_of_mem_ownGroups inner.2

theorem inOrder_eq (tree : Tree) :
    tree.inOrder = tree.ownLeaves ++ tree.ownGroups.flatMap inOrder := by
  rw [inOrder, List.flatMap_subtype (fun _ _ => rfl), List.unattach_attach]

theorem inOrder_perm (tree : Tree) : tree.inOrder.Perm (tree.leaves.map Prod.snd) := by
  induction tree with
  | nil => rw [inOrder_eq]; rfl
  | leaf segment entry siblings ih =>
    rw [inOrder_eq] at ih ⊢
    exact ih.cons entry
  | group segment children siblings ihchildren ihsiblings =>
    have hleaves : (group segment children siblings).leaves.map Prod.snd =
        children.leaves.map Prod.snd ++ siblings.leaves.map Prod.snd := by
      simp [leaves, Function.comp_def]
    rw [hleaves, inOrder_eq, ownLeaves, ownGroups, List.flatMap_cons]
    rw [inOrder_eq siblings] at ihsiblings
    exact (List.perm_append_comm_assoc _ _ _).trans (ihchildren.append ihsiblings)

end LocaleAccessors.Key.Tree
