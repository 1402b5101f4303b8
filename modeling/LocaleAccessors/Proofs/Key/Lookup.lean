import LocaleAccessors.Proofs.Key.Tree

/-!
What stands at a path of a tree of keys. An insertion puts its leaf at its path and goes among the
children at every path above; what stands anywhere else stays.
-/

namespace LocaleAccessors.Key
open Table (Entry)

inductive Node where
  | leaf (entry : Entry)
  | group (children : Tree)
  deriving DecidableEq

namespace Tree

def nodeAt : Tree → List String → Option Node
  | tree, [] => some (.group tree)
  | nil, _ :: _ => none
  | leaf segment entry siblings, s :: q =>
    if segment = s then if q = [] then some (.leaf entry) else none
    else siblings.nodeAt (s :: q)
  | group segment children siblings, s :: q =>
    if segment = s then children.nodeAt q else siblings.nodeAt (s :: q)

def childrenAt (tree : Tree) (q : List String) : Tree :=
  match tree.nodeAt q with
  | some (.group children) => children
  | _ => nil

@[simp] theorem nodeAt_nil (tree : Tree) : tree.nodeAt [] = some (.group tree) := by
  cases tree <;> rfl

@[simp] theorem childrenAt_nil (tree : Tree) : tree.childrenAt [] = tree := by
  simp [childrenAt]

theorem childrenAt_of_nodeAt {tree children : Tree} {q : List String}
    (h : tree.nodeAt q = some (.group children)) : tree.childrenAt q = children := by
  rw [childrenAt, h]

section insert
variable {entry : Entry} {segment s : String} {more q : List String} {tree : Tree}

theorem segments_insert :
    (tree.insert entry segment more).1.segments =
      if segment ∈ tree.segments then tree.segments else tree.segments ++ [segment] := by
  fun_induction insert entry segment more tree with
  | case1 segment more => simp [segments_single, segments]
  | case2 t old siblings => simp [segments]
  | case3 t old siblings next more => simp [segments]
  | case4 segment more t old siblings hne inserted ih =>
    simp only [segments, inserted, ih, List.mem_cons, Ne.symm hne, false_or]
    split_ifs <;> rfl
  | case5 t children siblings => simp [segments]
  | case6 t children siblings next more inserted _ => simp [segments]
  | case7 segment more t children siblings hne inserted ih =>
    simp only [segments, inserted, ih, List.mem_cons, Ne.symm hne, false_or]
    split_ifs <;> rfl

theorem nodeAt_insert_of_ne (hne : s ≠ segment) :
    (tree.insert entry segment more).1.nodeAt (s :: q) = tree.nodeAt (s :: q) := by
  fun_induction insert entry segment more tree with
  | case1 segment more => cases more <;> simp [single, nodeAt, Ne.symm hne]
  | case2 t old siblings => simp [nodeAt, Ne.symm hne]
  | case3 t old siblings next more => simp [nodeAt, Ne.symm hne]
  | case4 segment more t old siblings _ inserted ih => simp [nodeAt, inserted, ih hne]
  | case5 t children siblings => simp [nodeAt, Ne.symm hne]
  | case6 t children siblings next more inserted _ => simp [nodeAt, Ne.symm hne]
  | case7 segment more t children siblings _ inserted ih => simp [nodeAt, inserted, ih hne]

theorem nodeAt_cons (tree : Tree) (segment : String) (hq : q ≠ []) :
    tree.nodeAt (segment :: q) = (tree.childrenAt [segment]).nodeAt q := by
  obtain ⟨next, more, rfl⟩ := List.exists_cons_of_ne_nil hq
  induction tree with
  | nil => rfl
  | leaf t old siblings ih =>
    by_cases h : t = segment
    · simp [childrenAt, nodeAt, h]
    · simpa [childrenAt, nodeAt, h] using ih
  | group t children siblings _ ih =>
    by_cases h : t = segment
    · simp [childrenAt, nodeAt, h]
    · simpa [childrenAt, nodeAt, h] using ih

theorem childrenAt_cons (tree : Tree) (segment : String) (q : List String) :
    tree.childrenAt (segment :: q) = (tree.childrenAt [segment]).childrenAt q := by
  by_cases hq : q = []
  · rw [hq, childrenAt_nil]
  · rw [childrenAt, nodeAt_cons tree segment hq]
    rfl

theorem nodeAt_insert_leaf :
    (tree.insert entry segment []).1.nodeAt (segment :: q) =
      if q = [] then some (.leaf entry) else none := by
  induction tree with
  | nil => simp [insert, single, nodeAt]
  | leaf t old siblings ih =>
    by_cases h : t = segment
    · simp [insert, nodeAt, h]
    · simpa [insert, nodeAt, h] using ih
  | group t children siblings _ ih =>
    by_cases h : t = segment
    · simp [insert, nodeAt, h]
    · simpa [insert, nodeAt, h] using ih

theorem nodeAt_insert_group (hmore : more ≠ []) :
    (tree.insert entry segment more).1.nodeAt (segment :: q) =
      (insertAt entry more (tree.childrenAt [segment])).1.nodeAt q := by
  obtain ⟨next, more, rfl⟩ := List.exists_cons_of_ne_nil hmore
  induction tree with
  | nil => simp [insert, single, nodeAt, childrenAt, insertAt]
  | leaf t old siblings ih =>
    by_cases h : t = segment
    · simp [insert, nodeAt, childrenAt, insertAt, h]
    · simpa [insert, nodeAt, childrenAt, h] using ih
  | group t children siblings _ ih =>
    by_cases h : t = segment
    · simp [insert, nodeAt, childrenAt, insertAt, h]
    · simpa [insert, nodeAt, childrenAt, h] using ih

end insert

section paths
variable {entry : Entry} {p q : List String}

theorem nodeAt_insertAt_of_prefix (hp : p ≠ []) (h : p <+: q) (tree : Tree) :
    (insertAt entry p tree).1.nodeAt q = if q = p then some (.leaf entry) else none := by
  induction p generalizing q tree with
  | nil => exact absurd rfl hp
  | cons segment more ih =>
    obtain ⟨rest, rfl⟩ := h
    by_cases hmore : more = []
    · simp [insertAt, hmore, nodeAt_insert_leaf]
    · have hinner := ih hmore (List.prefix_append more rest) (tree.childrenAt [segment])
      simpa [insertAt, nodeAt_insert_group hmore] using hinner

theorem childrenAt_insertAt_of_prefix (hp : p ≠ []) (h : p <+: q) (tree : Tree) :
    (insertAt entry p tree).1.childrenAt q = nil := by
  rw [childrenAt, nodeAt_insertAt_of_prefix hp h]
  split_ifs <;> rfl

theorem nodeAt_insertAt_below (q : List String) (segment : String) (more : List String)
    (tree : Tree) :
    (insertAt entry (q ++ segment :: more) tree).1.nodeAt q =
      some (.group ((tree.childrenAt q).insert entry segment more).1) := by
  induction q generalizing tree with
  | nil => simp [insertAt]
  | cons first q ih =>
    have hmore : q ++ segment :: more ≠ [] := by simp
    rw [List.cons_append, insertAt, nodeAt_insert_group hmore, ih, ← childrenAt_cons]

theorem nodeAt_insertAt_apart (h : ¬ Overlap p q) (tree : Tree) :
    (insertAt entry p tree).1.nodeAt q = tree.nodeAt q := by
  induction p generalizing q tree with
  | nil => exact absurd (overlap_nil_left q) h
  | cons segment more ih =>
    cases q with
    | nil => exact absurd (overlap_nil_right _) h
    | cons s q =>
      rw [overlap_cons_cons] at h
      rw [insertAt]
      by_cases hs : s = segment
      · subst hs
        have hover : ¬ Overlap more q := fun ho => h ⟨rfl, ho⟩
        have hmore : more ≠ [] := fun hnil => hover (hnil ▸ overlap_nil_left q)
        have hq : q ≠ [] := fun hnil => hover (hnil ▸ overlap_nil_right more)
        rw [nodeAt_insert_group hmore, ih hover, ← nodeAt_cons tree s hq]
      · exact nodeAt_insert_of_ne hs

end paths

end Tree
end LocaleAccessors.Key
