import LocaleAccessors.Proofs.Key.Lookup
import LocaleAccessors.Proofs.Table.Dictionary
import Mathlib.Data.List.DropRight

/-!
The children of a group stand in the order in which their segments came since the group was last made.
An entry that puts a leaf at a group or on the way to it ends the group; one that goes below it has a
child replaced where it stands, or adds one at the end.
-/

namespace LocaleAccessors.Key
open Table (Entry)
open Text (Separator)

theorem Tree.addAll_concat (delimiter : Separator) (entries : List Entry) (entry : Entry) (tree : Tree) :
    (Tree.addAll delimiter (entries ++ [entry]) tree).1 =
      (Tree.insertAt entry (path delimiter entry.key) (Tree.addAll delimiter entries tree).1).1 := by
  induction entries generalizing tree with
  | nil => rfl
  | cons first entries ih => exact ih _

/-- The segment that follows the path `q` in the path `p`. -/
def next? : List String → List String → Option String
  | [], p => p.head?
  | _ :: _, [] => none
  | s :: q, t :: p => if s = t then next? q p else none

theorem next?_eq_some_iff {q p : List String} {segment : String} :
    next? q p = some segment ↔ ∃ more, p = q ++ segment :: more := by
  induction q generalizing p with
  | nil => cases p <;> simp [next?]
  | cons s q ih =>
    cases p with
    | nil => simp [next?]
    | cons t p =>
      by_cases h : s = t
      · simp [next?, h, ih]
      · simp [next?, h, Ne.symm h]

/-- The entry has a path, and its leaf comes to stand at `q` or on the way to it. -/
def Ends (delimiter : Separator) (q : List String) (entry : Entry) : Prop :=
  path delimiter entry.key ≠ [] ∧ path delimiter entry.key <+: q

instance (delimiter : Separator) (q : List String) : DecidablePred (Ends delimiter q) :=
  fun _ => inferInstanceAs (Decidable (_ ∧ _))

/-- The entries after the last one that ends the group at `q`. -/
def entriesSince (delimiter : Separator) (q : List String) (entries : List Entry) : List Entry :=
  entries.rtakeWhile fun entry => ¬ Ends delimiter q entry

/-- The segments that follow `q` in the paths of some entries, one after the other. -/
def arrivals (delimiter : Separator) (q : List String) (entries : List Entry) : List String :=
  entries.filterMap fun entry => next? q (path delimiter entry.key)

section history
variable {delimiter : Separator} {q : List String} {entry : Entry}

theorem entriesSince_concat (entries : List Entry) :
    entriesSince delimiter q (entries ++ [entry]) =
      if Ends delimiter q entry then [] else entriesSince delimiter q entries ++ [entry] := by
  by_cases h : Ends delimiter q entry <;> simp [entriesSince, h]

theorem arrivals_concat (entries : List Entry) :
    arrivals delimiter q (entries ++ [entry]) =
      arrivals delimiter q entries ++ (next? q (path delimiter entry.key)).toList := by
  cases h : next? q (path delimiter entry.key) <;> simp [arrivals, h]

/-- A path is empty, ends at `q` or on the way to it, goes on below `q`, or leads elsewhere. -/
theorem path_cases (p q : List String) :
    p = [] ∨ (p ≠ [] ∧ p <+: q) ∨ (∃ segment more, p = q ++ segment :: more) ∨
      (p ≠ [] ∧ ¬ Overlap p q) := by
  by_cases hnil : p = []
  · exact .inl hnil
  by_cases hstart : p <+: q
  · exact .inr (.inl ⟨hnil, hstart⟩)
  by_cases hbelow : q <+: p
  · obtain ⟨rest, rfl⟩ := hbelow
    cases rest with
    | nil => exact absurd (by simp) hstart
    | cons segment more => exact .inr (.inr (.inl ⟨segment, more, rfl⟩))
  · exact .inr (.inr (.inr ⟨hnil, not_or.mpr ⟨hstart, hbelow⟩⟩))

theorem next?_below (q : List String) (segment : String) (more : List String) :
    next? q (q ++ segment :: more) = some segment :=
  next?_eq_some_iff.mpr ⟨more, rfl⟩

theorem next?_of_not_prefix {p : List String} (h : ¬ q <+: p) : next? q p = none := by
  rw [Option.eq_none_iff_forall_ne_some]
  intro segment hsome
  obtain ⟨more, rfl⟩ := next?_eq_some_iff.mp hsome
  exact h (List.prefix_append q _)

theorem Tree.segments_insertAt (tree : Tree) :
    ((Tree.insertAt entry (path delimiter entry.key) tree).1.childrenAt q).segments =
      if Ends delimiter q entry then [] else
        match next? q (path delimiter entry.key) with
        | none => (tree.childrenAt q).segments
        | some segment =>
          if segment ∈ (tree.childrenAt q).segments then (tree.childrenAt q).segments
          else (tree.childrenAt q).segments ++ [segment] := by
  generalize hp : path delimiter entry.key = p
  have hends : Ends delimiter q entry ↔ p ≠ [] ∧ p <+: q := by rw [Ends, hp]
  rcases path_cases p q with rfl | ⟨hnil, hstart⟩ | ⟨segment, more, rfl⟩ | ⟨hnil, hapart⟩
  · have hnone : next? q [] = none := by cases q <;> rfl
    simp [hends, hnone, Tree.insertAt]
  · rw [if_pos (hends.mpr ⟨hnil, hstart⟩), Tree.childrenAt_insertAt_of_prefix hnil hstart]
    rfl
  · have hnot : ¬ Ends delimiter q entry := by
      intro h
      have hle := (hends.mp h).2.length_le
      rw [List.length_append, List.length_cons] at hle
      omega
    rw [if_neg hnot, next?_below,
      Tree.childrenAt_of_nodeAt (Tree.nodeAt_insertAt_below q segment more tree)]
    exact Tree.segments_insert
  · obtain ⟨hstart, hbelow⟩ := not_or.mp hapart
    have hnot : ¬ Ends delimiter q entry := fun h => hstart (hends.mp h).2
    rw [if_neg hnot, next?_of_not_prefix hbelow, Tree.childrenAt,
      Tree.nodeAt_insertAt_apart hapart]
    rfl

theorem segments_childrenAt_build (delimiter : Separator) (entries : List Entry)
    (q : List String) :
    ((Tree.build delimiter entries).1.childrenAt q).segments =
      (arrivals delimiter q (entriesSince delimiter q entries)).eraseDups := by
  induction entries using List.reverseRecOn with
  | nil => cases q <;> rfl
  | append_singleton entries entry ih =>
    rw [Tree.build] at ih ⊢
    rw [Tree.addAll_concat, Tree.segments_insertAt, entriesSince_concat, ih]
    split_ifs with hends
    · rfl
    · rw [arrivals_concat]
      cases next? q (path delimiter entry.key) with
      | none => simp
      | some segment => simp [Table.eraseDups_concat]

end history

/-- The children of a group are, in order, the segments that first came since the last entry that put a
leaf at the group or on the way to it. A further entry moves none of them: at most it adds one
behind them. -/
theorem children_in_first_order (delimiter : Separator) (entries : List Entry) (q : List String)
    {group : Tree} (h : (Tree.build delimiter entries).1.nodeAt q = some (.group group)) :
    group.segments = (arrivals delimiter q (entriesSince delimiter q entries)).eraseDups ∧
      ∀ entry grown,
        (Tree.build delimiter (entries ++ [entry])).1.nodeAt q = some (.group grown) →
        grown.segments = group.segments ∨
          ∃ segment, next? q (path delimiter entry.key) = some segment ∧
            segment ∉ group.segments ∧ grown.segments = group.segments ++ [segment] := by
  rw [← Tree.childrenAt_of_nodeAt h]
  refine ⟨segments_childrenAt_build delimiter entries q, fun entry grown hgrown => ?_⟩
  rw [Tree.build, Tree.addAll_concat, ← Tree.build] at hgrown
  have hends : ¬ Ends delimiter q entry := by
    rintro ⟨hp, hstart⟩
    rw [Tree.nodeAt_insertAt_of_prefix hp hstart] at hgrown
    split_ifs at hgrown with heq
    cases hgrown
  rw [← Tree.childrenAt_of_nodeAt hgrown, Tree.segments_insertAt, if_neg hends]
  cases hnext : next? q (path delimiter entry.key) with
  | none => exact .inl rfl
  | some segment =>
    by_cases hold : segment ∈ ((Tree.build delimiter entries).1.childrenAt q).segments
    · exact .inl (if_pos hold)
    · exact .inr ⟨segment, rfl, hold, if_neg hold⟩

/-- The group at `a` is ended by a leaf and made again, and then its first child is replaced. -/
theorem children_of_group_made_again :
    let entries : List Entry :=
      [⟨"a.b.x", "1"⟩, ⟨"a.c", "2"⟩, ⟨"a", "3"⟩, ⟨"a.c.y", "4"⟩, ⟨"a.b", "5"⟩, ⟨"a.c", "6"⟩]
    let group : Tree := .leaf "c" ⟨"a.c", "6"⟩ (.leaf "b" ⟨"a.b", "5"⟩ .nil)
    (Tree.build ⟨'.', []⟩ entries).1.nodeAt ["a"] = some (.group group) ∧
      ["c", "b"] = (arrivals ⟨'.', []⟩ ["a"] (entriesSince ⟨'.', []⟩ ["a"] entries)).eraseDups := by
  intro entries group
  have hgroup : (Tree.build ⟨'.', []⟩ entries).1.nodeAt ["a"] = some (.group group) := by
    decide +kernel
  exact ⟨hgroup, (children_in_first_order ⟨'.', []⟩ entries ["a"] hgroup).1⟩

end LocaleAccessors.Key
