import LocaleAccessors.Proofs.Key.Lookup

/-!
What one insertion does to a tree of keys. It puts its leaf at its path, adds at most one child to each
group on the way, behind the others, and changes nothing elsewhere. A warning tells of a translation on
the way that becomes a group and of a group at the path that becomes a leaf, and of nothing else.
-/

namespace LocaleAccessors.Key
open Table (Entry)

namespace Tree

/-- What the warning of an insertion tells: a translation stood on the way, or a group at the path. -/
inductive Loses (tree : Tree) (entry : Entry) (p : List String) : Warning → Prop where
  | translation {q : List String} {old : Entry} : q <+: p → q ≠ p →
      tree.nodeAt q = some (.leaf old) → Loses tree entry p (.translationDropped entry.key old.key)
  | group {children : Tree} : tree.nodeAt p = some (.group children) →
      Loses tree entry p (.groupReplaced entry.key children.size)

section warnings
variable {entry old : Entry} {segment : String} {more p : List String} {tree : Tree} {w : Warning}

theorem warning_insert_leaf :
    (tree.insert entry segment []).2 =
      match tree.nodeAt [segment] with
      | some (.group children) => some (.groupReplaced entry.key children.size)
      | _ => none := by
  induction tree with
  | nil => rfl
  | leaf t old siblings ih =>
    by_cases h : t = segment
    · simp [insert, nodeAt, h]
    · simpa [insert, nodeAt, h] using ih
  | group t children siblings _ ih =>
    by_cases h : t = segment
    · simp [insert, nodeAt, h]
    · simpa [insert, nodeAt, h] using ih

theorem warning_insert_group (hmore : more ≠ []) :
    (tree.insert entry segment more).2 =
      match tree.nodeAt [segment] with
      | some (.leaf old) => some (.translationDropped entry.key old.key)
      | _ => (insertAt entry more (tree.childrenAt [segment])).2 := by
  obtain ⟨next, more, rfl⟩ := List.exists_cons_of_ne_nil hmore
  induction tree with
  | nil => rfl
  | leaf t old siblings ih =>
    by_cases h : t = segment
    · simp [insert, nodeAt, h]
    · simpa [insert, nodeAt, childrenAt, h] using ih
  | group t children siblings _ ih =>
    by_cases h : t = segment
    · simp [insert, nodeAt, childrenAt, insertAt, h]
    · simpa [insert, nodeAt, childrenAt, h] using ih

theorem exists_on_way {q : List String} (hstart : q <+: segment :: more) (hne : q ≠ segment :: more)
    (hold : tree.nodeAt q = some (.leaf old)) : ∃ r, q = segment :: r ∧ r <+: more ∧ r ≠ more := by
  cases q with
  | nil => simp at hold
  | cons s r =>
    obtain ⟨rfl, hrest⟩ := List.cons_prefix_cons.mp hstart
    exact ⟨r, rfl, hrest, fun heq => hne (heq ▸ rfl)⟩

theorem loses_single :
    Loses tree entry [segment] w ↔
      ∃ children, tree.nodeAt [segment] = some (.group children) ∧
        w = .groupReplaced entry.key children.size := by
  constructor
  · intro h
    cases h with
    | translation hstart hne hold =>
      obtain ⟨r, -, hr, hne⟩ := exists_on_way hstart hne hold
      exact absurd (List.prefix_nil.mp hr) hne
    | group hgroup => exact ⟨_, hgroup, rfl⟩
  · rintro ⟨children, hgroup, rfl⟩
    exact .group hgroup

theorem loses_of_leaf (hmore : more ≠ []) (hold : tree.nodeAt [segment] = some (.leaf old)) :
    Loses tree entry (segment :: more) w ↔ w = .translationDropped entry.key old.key := by
  have hbelow : ∀ q ≠ [], tree.nodeAt (segment :: q) = none := by
    intro q hq
    obtain ⟨next, rest, rfl⟩ := List.exists_cons_of_ne_nil hq
    rw [nodeAt_cons tree segment hq, childrenAt, hold]
    rfl
  constructor
  · intro h
    cases h with
    | translation hstart hne hother =>
      obtain ⟨r, rfl, -, -⟩ := exists_on_way hstart hne hother
      by_cases hr : r = []
      · rw [hr, hold] at hother
        cases hother
        rfl
      · rw [hbelow r hr] at hother
        cases hother
    | group hgroup =>
      rw [hbelow more hmore] at hgroup
      cases hgroup
  · rintro rfl
    exact .translation (List.cons_prefix_cons.mpr ⟨rfl, List.nil_prefix⟩) (by simpa using hmore.symm)
      hold

theorem loses_below (hmore : more ≠ []) (hnot : ∀ old, tree.nodeAt [segment] ≠ some (.leaf old)) :
    Loses tree entry (segment :: more) w ↔ Loses (tree.childrenAt [segment]) entry more w := by
  constructor
  · intro h
    cases h with
    | @translation q old hstart hne hold =>
      obtain ⟨r, rfl, hstart, hne⟩ := exists_on_way hstart hne hold
      have hr : r ≠ [] := by
        rintro rfl
        exact hnot old hold
      rw [nodeAt_cons tree segment hr] at hold
      exact .translation hstart hne hold
    | group hgroup =>
      rw [nodeAt_cons tree segment hmore] at hgroup
      exact .group hgroup
  · intro h
    cases h with
    | @translation q old hstart hne hold =>
      have hq : q ≠ [] := by
        rintro rfl
        simp at hold
      rw [← nodeAt_cons tree segment hq] at hold
      exact .translation (List.cons_prefix_cons.mpr ⟨rfl, hstart⟩) (by simpa using hne) hold
    | group hgroup =>
      rw [← nodeAt_cons tree segment hmore] at hgroup
      exact .group hgroup

theorem warning_insertAt_iff (hp : p ≠ []) :
    (insertAt entry p tree).2 = some w ↔ Loses tree entry p w := by
  induction p generalizing tree with
  | nil => exact absurd rfl hp
  | cons segment more ih =>
    rw [insertAt]
    by_cases hmore : more = []
    · subst hmore
      rw [warning_insert_leaf, loses_single]
      split
      · next children hgroup => simp [hgroup, eq_comm]
      · next hnot => simpa using fun children hgroup => absurd hgroup (hnot children)
    · rw [warning_insert_group hmore]
      split
      · next old hold => simp [loses_of_leaf hmore hold, eq_comm]
      · next hnot => rw [loses_below hmore hnot, ih hmore]

theorem exists_loses_iff (tree : Tree) (entry : Entry) (p : List String) :
    (∃ w, Loses tree entry p w) ↔
      (∃ q old, q <+: p ∧ q ≠ p ∧ tree.nodeAt q = some (.leaf old)) ∨
        ∃ children, tree.nodeAt p = some (.group children) := by
  constructor
  · rintro ⟨w, h⟩
    cases h with
    | translation hstart hne hold => exact .inl ⟨_, _, hstart, hne, hold⟩
    | group hgroup => exact .inr ⟨_, hgroup⟩
  · rintro (⟨q, old, hstart, hne, hold⟩ | ⟨children, hgroup⟩)
    · exact ⟨_, .translation hstart hne hold⟩
    · exact ⟨_, .group hgroup⟩

end warnings

/-- A group on the way has the children that it had, and the next segment behind them if it is new. -/
theorem segments_insertAt_below (entry : Entry) (tree : Tree) (q : List String) (segment : String)
    (more : List String) :
    ∃ group, (insertAt entry (q ++ segment :: more) tree).1.nodeAt q = some (.group group) ∧
      group.segments = if segment ∈ (tree.childrenAt q).segments then (tree.childrenAt q).segments
        else (tree.childrenAt q).segments ++ [segment] :=
  ⟨_, nodeAt_insertAt_below q segment more tree, segments_insert⟩

theorem childrenAt_of_not_group {tree : Tree} {q : List String}
    (h : ∀ group, tree.nodeAt q ≠ some (.group group)) : tree.childrenAt q = nil := by
  unfold childrenAt
  split
  · next children hgroup => exact absurd hgroup (h children)
  · rfl

end Tree

/-- An insertion touches its own path only. A group on the way keeps its children in their order and
gets at most the next segment behind them; where no group was, the next segment is the only child.
There is one warning if a translation on the way or a group at the path is lost, and else none. -/
theorem insertion_touches_own_path (entry : Entry) {p : List String} (hp : p ≠ []) (tree : Tree) :
    (tree.insertAt entry p).1.nodeAt p = some (.leaf entry) ∧
    (∀ q, ¬ Overlap p q → (tree.insertAt entry p).1.nodeAt q = tree.nodeAt q) ∧
    (∀ q segment more, p = q ++ segment :: more →
      ∃ group, (tree.insertAt entry p).1.nodeAt q = some (.group group) ∧
        (∀ old, tree.nodeAt q = some (.group old) → group.segments =
          if segment ∈ old.segments then old.segments else old.segments ++ [segment]) ∧
        ((∀ old, tree.nodeAt q ≠ some (.group old)) → group.segments = [segment])) ∧
    (∀ w, (tree.insertAt entry p).2 = some w ↔ Tree.Loses tree entry p w) ∧
    ((tree.insertAt entry p).2.isSome ↔
      (∃ q old, q <+: p ∧ q ≠ p ∧ tree.nodeAt q = some (.leaf old)) ∨
        ∃ children, tree.nodeAt p = some (.group children)) := by
  refine ⟨?_, fun q hapart => Tree.nodeAt_insertAt_apart hapart tree, ?_,
    fun w => Tree.warning_insertAt_iff hp, ?_⟩
  · rw [Tree.nodeAt_insertAt_of_prefix hp (List.prefix_refl p), if_pos rfl]
  · rintro q segment more rfl
    obtain ⟨group, hgroup, hsegments⟩ := Tree.segments_insertAt_below entry tree q segment more
    refine ⟨group, hgroup, fun old hold => ?_, fun hnot => ?_⟩
    · rwa [Tree.childrenAt_of_nodeAt hold] at hsegments
    · rw [Tree.childrenAt_of_not_group hnot] at hsegments
      simpa [Tree.segments] using hsegments
  · rw [← Tree.exists_loses_iff tree entry p, Option.isSome_iff_exists]
    exact exists_congr fun w => Tree.warning_insertAt_iff hp

/-- A translation at `a` makes room for a group; what is at `b` stays. -/
theorem insertion_through_translation :
    let tree : Tree := .leaf "a" ⟨"a", "1"⟩ (.group "b" (.leaf "c" ⟨"b.c", "2"⟩ .nil) .nil)
    let after := tree.insertAt ⟨"a.x.y", "3"⟩ ["a", "x", "y"]
    ["a", "x", "y"] ≠ [] ∧ after.1.nodeAt ["a", "x", "y"] = some (.leaf ⟨"a.x.y", "3"⟩) ∧
      after.1.nodeAt ["b", "c"] = tree.nodeAt ["b", "c"] ∧
      (∃ group, after.1.nodeAt ["a"] = some (.group group) ∧ group.segments = ["x"]) ∧
      after.2 = some (.translationDropped "a.x.y" "a") := by
  intro tree after
  have hpath : ["a", "x", "y"] ≠ [] := by decide
  obtain ⟨hleaf, helsewhere, hway, hwarning, -⟩ :=
    insertion_touches_own_path ⟨"a.x.y", "3"⟩ hpath tree
  obtain ⟨group, hgroup, -, hnew⟩ := hway ["a"] "x" ["y"] rfl
  have hold : tree.nodeAt ["a"] = some (.leaf ⟨"a", "1"⟩) := rfl
  have hsegments : group.segments = ["x"] := hnew (by simp [hold])
  have hlost : Tree.Loses tree ⟨"a.x.y", "3"⟩ ["a", "x", "y"] (.translationDropped "a.x.y" "a") :=
    .translation (by simp) (by simp) hold
  exact ⟨hpath, hleaf, helsewhere ["b", "c"] (by simp), ⟨group, hgroup, hsegments⟩,
    (hwarning _).mpr hlost⟩

end LocaleAccessors.Key
