import LocaleAccessors.Proofs.Key.Survivors

/-!
A tree built again from its leaves. The leaves of a group stand together, so the first of them makes the
group in its slot and the others fill it; nothing is in the way of any of them, whatever was replaced
while the tree was built.
-/

namespace LocaleAccessors.Key
open Table (Entry)
open Text (Separator)

namespace Tree

def append : Tree → Tree → Tree
  | nil, tree => tree
  | leaf segment entry siblings, tree => leaf segment entry (siblings.append tree)
  | group segment children siblings, tree => group segment children (siblings.append tree)

@[simp] theorem append_nil (tree : Tree) : tree.append nil = tree := by
  induction tree with
  | nil => rfl
  | leaf segment entry siblings ih => exact congrArg (leaf segment entry) ih
  | group segment children siblings _ ih => exact congrArg (group segment children) ih

theorem append_assoc (first second third : Tree) :
    (first.append second).append third = first.append (second.append third) := by
  induction first with
  | nil => rfl
  | leaf segment entry siblings ih => exact congrArg (leaf segment entry) ih
  | group segment children siblings _ ih => exact congrArg (group segment children) ih

theorem segments_append (first second : Tree) :
    (first.append second).segments = first.segments ++ second.segments := by
  induction first with
  | nil => rfl
  | leaf segment entry siblings ih => exact congrArg (segment :: ·) ih
  | group segment children siblings _ ih => exact congrArg (segment :: ·) ih

theorem not_mem_segments_append {front child : Tree} {segment other : String}
    (hchild : child.segments = [segment]) (hfront : other ∉ front.segments) (hne : other ≠ segment) :
    other ∉ (front.append child).segments := by
  rw [segments_append, hchild, List.mem_append, List.mem_singleton]
  exact not_or.mpr ⟨hfront, hne⟩

def insertAll : List (List String × Entry) → Tree → Tree × List Warning
  | [], tree => (tree, [])
  | (p, entry) :: rest, tree =>
    let inserted := tree.insertAt entry p
    let added := insertAll rest inserted.1
    (added.1, inserted.2.toList ++ added.2)

theorem insertAll_append (first second : List (List String × Entry)) (tree : Tree) :
    insertAll (first ++ second) tree =
      ((insertAll second (insertAll first tree).1).1,
        (insertAll first tree).2 ++ (insertAll second (insertAll first tree).1).2) := by
  induction first generalizing tree with
  | nil => rfl
  | cons placed first ih => simp only [List.cons_append, insertAll, ih, List.append_assoc]

theorem addAll_eq_insertAll {delimiter : Separator} {placed : List (List String × Entry)}
    (h : ∀ x ∈ placed, path delimiter x.2.key = x.1) (tree : Tree) :
    addAll delimiter (placed.map Prod.snd) tree = insertAll placed tree := by
  induction placed generalizing tree with
  | nil => rfl
  | cons x placed ih =>
    obtain ⟨hx, hplaced⟩ := List.forall_mem_cons.mp h
    simp only [List.map_cons, addAll, insertAll, hx, ih hplaced]

section slots
variable {entry : Entry} {segment next : String} {more : List String}

theorem insert_of_not_mem {tree : Tree} (h : segment ∉ tree.segments) :
    tree.insert entry segment more = (tree.append (single entry segment more), none) := by
  induction tree with
  | nil => rfl
  | leaf other old siblings ih =>
    obtain ⟨hne, hrest⟩ := not_or.mp (List.mem_cons.not.mp h)
    simp only [insert, if_neg (Ne.symm hne), ih hrest, append]
  | group other children siblings _ ih =>
    obtain ⟨hne, hrest⟩ := not_or.mp (List.mem_cons.not.mp h)
    simp only [insert, if_neg (Ne.symm hne), ih hrest, append]

theorem insert_below_last {tree : Tree} (h : segment ∉ tree.segments) (children : Tree) :
    (tree.append (group segment children nil)).insert entry segment (next :: more) =
      (tree.append (group segment (children.insert entry next more).1 nil),
        (children.insert entry next more).2) := by
  induction tree with
  | nil => simp only [append, insert, if_true]
  | leaf other old siblings ih =>
    obtain ⟨hne, hrest⟩ := not_or.mp (List.mem_cons.not.mp h)
    simp only [append, insert, if_neg (Ne.symm hne), ih hrest]
  | group other inner siblings _ ih =>
    obtain ⟨hne, hrest⟩ := not_or.mp (List.mem_cons.not.mp h)
    simp only [append, insert, if_neg (Ne.symm hne), ih hrest]

def under (segment : String) (placed : List (List String × Entry)) : List (List String × Entry) :=
  placed.map fun (p, entry) => (segment :: p, entry)

theorem insertAll_below_last {tree : Tree} (h : segment ∉ tree.segments)
    {placed : List (List String × Entry)} (hplaced : ∀ x ∈ placed, x.1 ≠ []) (children : Tree) :
    insertAll (under segment placed) (tree.append (group segment children nil)) =
      (tree.append (group segment (insertAll placed children).1 nil),
        (insertAll placed children).2) := by
  induction placed generalizing children with
  | nil => rfl
  | cons x placed ih =>
    obtain ⟨p, entry⟩ := x
    obtain ⟨hne, hothers⟩ := List.forall_mem_cons.mp hplaced
    cases p with
    | nil => exact absurd rfl hne
    | cons next more =>
      have hrest := ih hothers (children.insert entry next more).1
      simp only [under] at hrest ⊢
      simp only [List.map_cons, insertAll, insertAt, insert_below_last h, hrest]

theorem insertAll_below {tree : Tree} (h : segment ∉ tree.segments)
    {placed : List (List String × Entry)} (hfull : placed ≠ [])
    (hplaced : ∀ x ∈ placed, x.1 ≠ []) :
    insertAll (under segment placed) tree =
      (tree.append (group segment (insertAll placed nil).1 nil), (insertAll placed nil).2) := by
  cases placed with
  | nil => exact absurd rfl hfull
  | cons x placed =>
    obtain ⟨p, entry⟩ := x
    obtain ⟨hne, hothers⟩ := List.forall_mem_cons.mp hplaced
    cases p with
    | nil => exact absurd rfl hne
    | cons next more =>
      have hrest := insertAll_below_last h hothers (single entry next more)
      simp only [under] at hrest ⊢
      simp only [List.map_cons, insertAll, insertAt, insert_of_not_mem h, single, hrest, insert]

end slots

theorem leaves_ne_nil {tree : Tree} (h : tree.Proper) (hfull : tree ≠ nil) :
    tree.leaves ≠ [] := by
  induction h with
  | nil => exact absurd rfl hfull
  | leaf _ _ _ => exact List.cons_ne_nil _ _
  | group _ hchildren _ _ ih _ =>
    intro hempty
    rw [leaves, List.append_eq_nil_iff, List.map_eq_nil_iff] at hempty
    exact ih hchildren hempty.1

theorem path_ne_nil {tree : Tree} {x : List String × Entry} (h : x ∈ tree.leaves) : x.1 ≠ [] := by
  obtain ⟨segment, more, hpath, -⟩ := exists_segment h
  rw [hpath]
  exact List.cons_ne_nil segment more

theorem insertAll_leaves {tree : Tree} (h : tree.Proper) {front : Tree}
    (hfront : ∀ segment ∈ tree.segments, segment ∉ front.segments) :
    insertAll tree.leaves front = (front.append tree, []) := by
  induction h generalizing front with
  | nil => rw [leaves, insertAll, append_nil]
  | @leaf segment entry siblings hnot _ ih =>
    obtain ⟨hsegment, hsiblings⟩ := List.forall_mem_cons.mp hfront
    have hrest : insertAll siblings.leaves (front.append (leaf segment entry nil)) =
        ((front.append (leaf segment entry nil)).append siblings, []) := by
      refine ih fun other hother => not_mem_segments_append rfl (hsiblings other hother) ?_
      exact fun heq => hnot (heq ▸ hother)
    rw [append_assoc] at hrest
    simp only [leaves, insertAll, insertAt, insert_of_not_mem hsegment, single, hrest]
    rfl
  | @group segment children siblings hnot hfull hchildren _ ihchildren ihsiblings =>
    obtain ⟨hsegment, hsiblings⟩ := List.forall_mem_cons.mp hfront
    have hinner : insertAll children.leaves nil = (children, []) :=
      ihchildren fun _ _ => List.not_mem_nil
    have hgroup := insertAll_below hsegment (leaves_ne_nil hchildren hfull) fun _ => path_ne_nil
    have hrest : insertAll siblings.leaves (front.append (group segment children nil)) =
        ((front.append (group segment children nil)).append siblings, []) := by
      refine ihsiblings fun other hother => not_mem_segments_append rfl (hsiblings other hother) ?_
      exact fun heq => hnot (heq ▸ hother)
    rw [hinner] at hgroup
    rw [append_assoc] at hrest
    have hleaves : (group segment children siblings).leaves =
        under segment children.leaves ++ siblings.leaves := rfl
    rw [hleaves, insertAll_append, hgroup, hrest]
    rfl

theorem proper_build (delimiter : Separator) (entries : List Entry) :
    (build delimiter entries).1.Proper :=
  (Proper.nil.addAll delimiter entries).1

theorem path_of_mem_leaves_build {delimiter : Separator} {entries : List Entry}
    {x : List String × Entry} (h : x ∈ (build delimiter entries).1.leaves) :
    path delimiter x.2.key = x.1 := by
  obtain ⟨hpath, -⟩ | ⟨hnil, -⟩ := ((Proper.nil.addAll delimiter entries).2 x.1 x.2).mp h
  · exact hpath.symm
  · cases hnil

end Tree

/-- The leaves of a tree, added in the order in which they stand in it, build the same tree again, and
nothing is reported. -/
theorem build_of_leaves (delimiter : Separator) (entries : List Entry) :
    Tree.build delimiter ((Tree.build delimiter entries).1.leaves.map Prod.snd) =
      ((Tree.build delimiter entries).1, []) := by
  have hpaths : ∀ x ∈ (Tree.build delimiter entries).1.leaves, path delimiter x.2.key = x.1 :=
    fun _ => Tree.path_of_mem_leaves_build
  rw [Tree.build, Tree.addAll_eq_insertAll hpaths]
  exact Tree.insertAll_leaves (Tree.proper_build delimiter entries) fun _ _ => List.not_mem_nil

end LocaleAccessors.Key
