import LocaleAccessors.Proofs.Key.Insertion
import LocaleAccessors.Proofs.Key.Survivors

/-!
Where the entries of a table are when their tree is built. Each is a leaf, or a warning tells that it is
skipped or dropped, or nothing tells of it. Untold is a leaf that another one replaces at the same path;
of a group that is replaced the children are told, and so all but one of the leaves below each of them
are not.
-/

namespace LocaleAccessors.Key
open Table (Entry)
open Text (Separator)

/-- How many translations a warning reports as left out. -/
def Warning.told : Warning → Nat
  | .skipped _ => 1
  | .translationDropped _ _ => 1
  | .groupReplaced _ size => size

def told : List Warning → Nat
  | [] => 0
  | w :: rest => w.told + told rest

def Node.leafCount : Node → Nat
  | .leaf _ => 1
  | .group children => children.leafCount

namespace Tree

def leavesAt (tree : Tree) (q : List String) : Nat :=
  ((tree.nodeAt q).map Node.leafCount).getD 0

def untold (tree : Tree) (p : List String) : Nat :=
  match tree.nodeAt p with
  | none => 0
  | some (.leaf _) => 1
  | some (.group children) => if p = [] then 0 else children.leafCount - children.size

/-- All that an insertion at `p` drops is told: at `p` there is no leaf, and no group that has more
leaves than children. -/
structure Tells (tree : Tree) (p : List String) : Prop where
  no_leaf : ∀ old, tree.nodeAt p ≠ some (.leaf old)
  no_deeper : p ≠ [] → ∀ group, tree.nodeAt p = some (.group group) →
    group.leaves.length ≤ group.size

theorem length_leaves (tree : Tree) : tree.leaves.length = tree.leafCount := by
  induction tree with
  | nil => rfl
  | leaf segment entry siblings ih => simp [leaves, leafCount, ih]
  | group segment children siblings ihchildren ihsiblings =>
    simp [leaves, leafCount, ihchildren, ihsiblings]

theorem leafCount_single (entry : Entry) (segment : String) (more : List String) :
    (single entry segment more).leafCount = 1 := by
  rw [← length_leaves, leaves_single, List.length_singleton]

section step
variable {tree : Tree} {p : List String}

theorem Proper.size_le_leafCount (h : tree.Proper) : tree.size ≤ tree.leafCount := by
  induction h with
  | nil => exact Nat.le_refl _
  | leaf _ _ ih => exact Nat.succ_le_succ ih
  | @group segment children siblings _ hfull _ _ ihchildren ihsiblings =>
    have hpos : 0 < children.size := by
      cases children with
      | nil => exact absurd rfl hfull
      | leaf => exact Nat.succ_pos _
      | group => exact Nat.succ_pos _
    simp only [size, leafCount]
    omega

theorem Proper.childrenAt (h : tree.Proper) (segment : String) :
    (tree.childrenAt [segment]).Proper := by
  induction h with
  | nil => exact .nil
  | @leaf t old siblings _ _ ih =>
    by_cases ht : t = segment
    · simpa [Tree.childrenAt, nodeAt, ht] using Proper.nil
    · simpa [Tree.childrenAt, nodeAt, ht] using ih
  | @group t children siblings _ _ hchildren _ _ ih =>
    by_cases ht : t = segment
    · simpa [Tree.childrenAt, nodeAt, ht] using hchildren
    · simpa [Tree.childrenAt, nodeAt, ht] using ih

theorem leavesAt_leaf (t segment : String) (old : Entry) (siblings : Tree) :
    (leaf t old siblings).leavesAt [segment] =
      if t = segment then 1 else siblings.leavesAt [segment] := by
  by_cases h : t = segment <;> simp [leavesAt, nodeAt, h, Node.leafCount]

theorem leavesAt_group (t segment : String) (children siblings : Tree) :
    (group t children siblings).leavesAt [segment] =
      if t = segment then children.leafCount else siblings.leavesAt [segment] := by
  by_cases h : t = segment <;> simp [leavesAt, nodeAt, h, Node.leafCount]

theorem leavesAt_single (entry : Entry) (segment : String) (more : List String) :
    (single entry segment more).leavesAt [segment] = 1 := by
  cases more with
  | nil => rw [single, leavesAt_leaf, if_pos rfl]
  | cons next more => rw [single, leavesAt_group, if_pos rfl, leafCount_single]

theorem leafCount_insert (entry : Entry) (segment : String) (more : List String) (tree : Tree) :
    (tree.insert entry segment more).1.leafCount + tree.leavesAt [segment] =
      tree.leafCount + (tree.insert entry segment more).1.leavesAt [segment] := by
  fun_induction insert entry segment more tree with
  | case1 segment more =>
    rw [leafCount_single, leavesAt_single]
    rfl
  | case2 t old siblings =>
    rw [leavesAt_leaf, leavesAt_leaf, if_pos rfl]
    rfl
  | case3 t old siblings next more =>
    rw [leavesAt_leaf, leavesAt_group, if_pos rfl, if_pos rfl, leafCount, leafCount]
    omega
  | case4 segment more t old siblings hne inserted ih =>
    simp only [leavesAt_leaf, if_neg hne, leafCount, inserted]
    omega
  | case5 t children siblings =>
    rw [leavesAt_leaf, leavesAt_group, if_pos rfl, if_pos rfl, leafCount, leafCount]
    omega
  | case6 t children siblings next more inserted _ =>
    rw [leavesAt_group, leavesAt_group, if_pos rfl, if_pos rfl, leafCount, leafCount]
    omega
  | case7 segment more t children siblings hne inserted ih =>
    simp only [leavesAt_group, if_neg hne, leafCount, inserted]
    omega

theorem leavesAt_of_nodeAt {node : Node} (h : tree.nodeAt p = some node) :
    tree.leavesAt p = node.leafCount := by
  rw [leavesAt, h]
  rfl

theorem leavesAt_of_none (h : tree.nodeAt p = none) : tree.leavesAt p = 0 := by
  rw [leavesAt, h]
  rfl

theorem untold_cons (tree : Tree) (segment : String) (hp : p ≠ []) :
    tree.untold (segment :: p) = (tree.childrenAt [segment]).untold p := by
  simp [untold, nodeAt_cons tree segment hp, hp]

theorem leavesAt_eq_told_add_untold (h : tree.Proper) (entry : Entry) (segment : String) :
    tree.leavesAt [segment] =
      told (insertAt entry [segment] tree).2.toList + tree.untold [segment] := by
  rw [insertAt, warning_insert_leaf]
  cases hnode : tree.nodeAt [segment] with
  | none => simp [leavesAt_of_none hnode, untold, told, hnode]
  | some node =>
    rw [leavesAt_of_nodeAt hnode]
    cases node with
    | leaf old => simp [Node.leafCount, untold, told, hnode]
    | group children =>
      have hsize : children.size ≤ children.leafCount := by
        rw [← childrenAt_of_nodeAt hnode]
        exact (h.childrenAt segment).size_le_leafCount
      simp [Node.leafCount, untold, told, Warning.told, hnode, Nat.add_sub_cancel' hsize]

/-- Below a leaf that becomes a group there was nothing that could be lost, and of another node nothing
is lost but what the rest of the path meets. -/
theorem leavesAt_add_told_add_untold {segment : String} {more : List String} (hmore : more ≠ [])
    (entry : Entry) (hinner : (insertAt entry more (tree.childrenAt [segment])).1.leafCount +
        told (insertAt entry more (tree.childrenAt [segment])).2.toList +
        (tree.childrenAt [segment]).untold more = (tree.childrenAt [segment]).leafCount + 1) :
    (insertAt entry more (tree.childrenAt [segment])).1.leafCount +
        told (insertAt entry (segment :: more) tree).2.toList + tree.untold (segment :: more) =
      tree.leavesAt [segment] + 1 := by
  rw [insertAt, warning_insert_group hmore, untold_cons tree segment hmore]
  cases hnode : tree.nodeAt [segment] with
  | none =>
    have hchildren : tree.childrenAt [segment] = nil := by rw [childrenAt, hnode]
    rw [hchildren] at hinner ⊢
    rw [leavesAt_of_none hnode]
    exact hinner
  | some node =>
    rw [leavesAt_of_nodeAt hnode]
    cases node with
    | leaf old =>
      have hchildren : tree.childrenAt [segment] = nil := by rw [childrenAt, hnode]
      obtain ⟨next, rest, rfl⟩ := List.exists_cons_of_ne_nil hmore
      rw [hchildren, insertAt, insert, leafCount_single]
      rfl
    | group children =>
      rw [childrenAt_of_nodeAt hnode] at hinner ⊢
      exact hinner

theorem leafCount_insertAt (h : tree.Proper) (entry : Entry) (p : List String) :
    (insertAt entry p tree).1.leafCount + told (insertAt entry p tree).2.toList + tree.untold p =
      tree.leafCount + 1 := by
  induction p generalizing tree with
  | nil => simp [insertAt, told, Warning.told, untold]
  | cons segment more ih =>
    have hcount := leafCount_insert entry segment more tree
    by_cases hmore : more = []
    · have hafter : (tree.insert entry segment []).1.leavesAt [segment] = 1 := by
        rw [leavesAt_of_nodeAt (by rw [nodeAt_insert_leaf, if_pos rfl]), Node.leafCount]
      have hthere := leavesAt_eq_told_add_untold h entry segment
      rw [hmore, hafter] at hcount
      rw [hmore]
      rw [insertAt] at hthere ⊢
      omega
    · have hafter : (tree.insert entry segment more).1.leavesAt [segment] =
          (insertAt entry more (tree.childrenAt [segment])).1.leafCount := by
        rw [leavesAt_of_nodeAt (by rw [nodeAt_insert_group hmore, nodeAt_nil]), Node.leafCount]
      have hthere := leavesAt_add_told_add_untold hmore entry (ih (h.childrenAt segment))
      rw [hafter] at hcount
      rw [insertAt] at hthere ⊢
      omega

theorem untold_eq_zero_iff : tree.untold p = 0 ↔ tree.Tells p := by
  unfold untold
  constructor
  · intro h
    refine ⟨fun old hold => ?_, fun hp group hgroup => ?_⟩
    · simp [hold] at h
    · rw [length_leaves]
      simp only [hgroup, if_neg hp] at h
      omega
  · intro h
    split
    · rfl
    · next old hold => exact absurd hold (h.no_leaf old)
    · next group hgroup =>
      split_ifs with hp
      · rfl
      · have hle := h.no_deeper hp group hgroup
        rw [length_leaves] at hle
        omega

end step

/-- How many translations are dropped untold while entries are added. -/
def untoldIn (delimiter : Separator) : List Entry → Tree → Nat
  | [], _ => 0
  | entry :: rest, tree =>
    tree.untold (path delimiter entry.key) +
      untoldIn delimiter rest (tree.insertAt entry (path delimiter entry.key)).1

section run
variable {delimiter : Separator} {entries : List Entry} {tree : Tree}

theorem told_append (first second : List Warning) :
    told (first ++ second) = told first + told second := by
  induction first with
  | nil => exact (Nat.zero_add _).symm
  | cons w rest ih => rw [List.cons_append, told, told, ih, Nat.add_assoc]

theorem leafCount_addAll (h : tree.Proper) (delimiter : Separator) (entries : List Entry) :
    (addAll delimiter entries tree).1.leafCount + told (addAll delimiter entries tree).2 +
      untoldIn delimiter entries tree = tree.leafCount + entries.length := by
  induction entries generalizing tree with
  | nil => simp [addAll, told, untoldIn]
  | cons entry entries ih =>
    have hstep := leafCount_insertAt h entry (path delimiter entry.key)
    have hrest := ih (h.insertAt entry (path delimiter entry.key))
    simp only [addAll, untoldIn, told_append, List.length_cons]
    omega

theorem untoldIn_eq_zero_iff :
    untoldIn delimiter entries tree = 0 ↔ ∀ before entry later,
      entries = before ++ entry :: later →
        (addAll delimiter before tree).1.Tells (path delimiter entry.key) := by
  induction entries generalizing tree with
  | nil => simp [untoldIn]
  | cons first entries ih =>
    rw [untoldIn, Nat.add_eq_zero_iff, untold_eq_zero_iff, ih]
    constructor
    · rintro ⟨hfirst, hrest⟩ before entry later heq
      rcases List.cons_eq_append_iff.mp heq with ⟨rfl, heq⟩ | ⟨before, rfl, rfl⟩
      · cases heq
        exact hfirst
      · exact hrest before entry later rfl
    · intro h
      refine ⟨h [] first entries rfl, fun before entry later heq => ?_⟩
      exact h (first :: before) entry later (heq ▸ rfl)

end run
end Tree

/-- The entries of a table are its leaves, and as many as the warnings tell, and those that are dropped
untold. There are none of these if and only if no entry, when it comes, finds a leaf at its path, or a
group that has more leaves than children. -/
theorem entries_accounted_iff (delimiter : Separator) (entries : List Entry) :
    (Tree.build delimiter entries).1.leaves.length + told (Tree.build delimiter entries).2 +
        Tree.untoldIn delimiter entries .nil = entries.length ∧
    (entries.length =
        (Tree.build delimiter entries).1.leaves.length + told (Tree.build delimiter entries).2 ↔
      ∀ before entry later, entries = before ++ entry :: later →
        (Tree.build delimiter before).1.Tells (path delimiter entry.key)) := by
  have hall := Tree.leafCount_addAll Tree.Proper.nil delimiter entries
  rw [← Tree.build, Tree.leafCount, Nat.zero_add] at hall
  rw [Tree.length_leaves]
  refine ⟨hall, Iff.trans ?_ Tree.untoldIn_eq_zero_iff⟩
  omega

/-- Of a group with two leaves below its one child a single one is told, and a leaf that another one
replaces is not told at all. -/
theorem untold_though_keys_differ :
    let deep : List Entry := [⟨"a.b.c", "1"⟩, ⟨"a.b.d", "2"⟩, ⟨"a", "3"⟩]
    let twice : List Entry := [⟨".a", "1"⟩, ⟨"a", "2"⟩]
    ((deep.map Entry.key).Nodup ∧
      (Tree.build ⟨'.', []⟩ deep).2 = [.groupReplaced "a" 1] ∧
      deep.length ≠
        (Tree.build ⟨'.', []⟩ deep).1.leaves.length + told (Tree.build ⟨'.', []⟩ deep).2) ∧
    (twice.map Entry.key).Nodup ∧
      (Tree.build ⟨'.', []⟩ twice).2 = [] ∧
      twice.length ≠
        (Tree.build ⟨'.', []⟩ twice).1.leaves.length + told (Tree.build ⟨'.', []⟩ twice).2 := by
  decide +kernel

end LocaleAccessors.Key
