import LocaleAccessors.Key.Tree
import Mathlib.Order.Lattice

/-!
How deep a tree of keys is: no deeper than the longest path of its entries.
-/

namespace LocaleAccessors.Key.Tree
open Table (Entry)
open Text (Separator)

theorem depth_single (entry : Entry) (segment : String) (more : List String) :
    (single entry segment more).depth = more.length + 1 := by
  induction more generalizing segment with
  | nil => rfl
  | cons next more ih => simp [single, depth, ih]

theorem depth_insert_le (entry : Entry) (segment : String) (more : List String) (tree : Tree) :
    (insert entry segment more tree).1.depth ≤ max tree.depth (more.length + 1) := by
  fun_induction insert entry segment more tree with
  | case1 segment more =>
    rw [depth_single]
    exact le_max_right _ _
  | case2 t old siblings => exact le_max_left _ _
  | case3 t old siblings next more =>
    simp only [depth, depth_single, List.length_cons]
    omega
  | case4 segment more t old siblings hne inserted ih =>
    simp only [depth, inserted]
    omega
  | case5 t children siblings =>
    simp only [depth]
    omega
  | case6 t children siblings next more inserted ih =>
    simp only [depth, inserted, List.length_cons]
    omega
  | case7 segment more t children siblings hne inserted ih =>
    simp only [depth, inserted]
    omega

theorem depth_addAll_le {delimiter : Separator} {entries : List Entry} {tree : Tree} {n : Nat}
    (hentries : ∀ entry ∈ entries, (path delimiter entry.key).length ≤ n) (htree : tree.depth ≤ n) :
    (addAll delimiter entries tree).1.depth ≤ n := by
  induction entries generalizing tree with
  | nil => exact htree
  | cons entry rest ih =>
    obtain ⟨hentry, hrest⟩ := List.forall_mem_cons.mp hentries
    refine ih hrest ?_
    cases hpath : path delimiter entry.key with
    | nil => exact htree
    | cons segment more =>
      rw [hpath, List.length_cons] at hentry
      exact (depth_insert_le entry segment more tree).trans (max_le htree hentry)

theorem depth_build_le {delimiter : Separator} {entries : List Entry} {n : Nat}
    (h : ∀ entry ∈ entries, (path delimiter entry.key).length ≤ n) :
    (build delimiter entries).1.depth ≤ n :=
  depth_addAll_le h (Nat.zero_le n)

end LocaleAccessors.Key.Tree
