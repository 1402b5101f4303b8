import LocaleAccessors.Key.Tree
import Mathlib.Data.List.Infix

/-!
The leaves of a tree of keys. Siblings differ in their segments and no group is empty, so no leaf
lies on the way to another one. An insertion puts one leaf in the place of those that its path
overlaps and keeps the others.
-/

namespace LocaleAccessors.Key
open Table (Entry)

/-- One of two paths leads to the other one or through it. -/
def Overlap (p q : List String) : Prop :=
  p <+: q ∨ q <+: p

theorem Overlap.symm {p q : List String} (h : Overlap p q) : Overlap q p :=
  Or.symm h

@[simp] theorem overlap_nil_right (p : List String) : Overlap p [] :=
  .inr List.nil_prefix

@[simp] theorem overlap_nil_left (p : List String) : Overlap [] p :=
  .inl List.nil_prefix

@[simp] theorem overlap_cons_cons {a b : String} {p q : List String} :
    Overlap (a :: p) (b :: q) ↔ a = b ∧ Overlap p q := by
  simp only [Overlap, List.cons_prefix_cons, eq_comm (a := b), and_or_left]

namespace Tree

def segments : Tree → List String
  | nil => []
  | leaf segment _ siblings => segment :: siblings.segments
  | group segment _ siblings => segment :: siblings.segments

/-- Siblings have different segments, and every group has a child. -/
inductive Proper : Tree → Prop where
  | nil : Proper nil
  | leaf {segment : String} {entry : Entry} {siblings : Tree} :
      segment ∉ siblings.segments → Proper siblings → Proper (leaf segment entry siblings)
  | group {segment : String} {children siblings : Tree} :
      segment ∉ siblings.segments → children ≠ nil → Proper children → Proper siblings →
        Proper (group segment children siblings)

variable {tree : Tree} {entry e : Entry} {p : List String}

theorem segments_single (entry : Entry) (segment : String) (more : List String) :
    (single entry segment more).segments = [segment] := by
  cases more <;> rfl

theorem single_ne_nil (entry : Entry) (segment : String) (more : List String) :
    single entry segment more ≠ nil := by
  cases more <;> nofun

theorem proper_single (entry : Entry) (segment : String) (more : List String) :
    (single entry segment more).Proper := by
  induction more generalizing segment with
  | nil => exact .leaf List.not_mem_nil .nil
  | cons next more ih =>
    exact .group List.not_mem_nil (single_ne_nil entry next more) (ih next) .nil

theorem leaves_single (entry : Entry) (segment : String) (more : List String) :
    (single entry segment more).leaves = [(segment :: more, entry)] := by
  induction more generalizing segment with
  | nil => rfl
  | cons next more ih => simp [single, leaves, ih]

theorem mem_leaves_leaf {segment : String} {old : Entry} {siblings : Tree} :
    (p, e) ∈ (leaf segment old siblings).leaves ↔
      p = [segment] ∧ e = old ∨ (p, e) ∈ siblings.leaves := by
  simp [leaves]

theorem mem_leaves_group {segment : String} {children siblings : Tree} :
    (p, e) ∈ (group segment children siblings).leaves ↔
      (∃ more, p = segment :: more ∧ (more, e) ∈ children.leaves) ∨ (p, e) ∈ siblings.leaves := by
  simp only [leaves, List.mem_append, List.mem_map, Prod.mk.injEq, Prod.exists]
  grind

theorem exists_segment (h : (p, e) ∈ tree.leaves) :
    ∃ segment more, p = segment :: more ∧ segment ∈ tree.segments := by
  induction tree with
  | nil => cases h
  | leaf segment old siblings ih =>
    rcases mem_leaves_leaf.mp h with ⟨rfl, -⟩ | h
    · exact ⟨segment, [], rfl, List.mem_cons_self⟩
    · obtain ⟨s, more, rfl, hs⟩ := ih h
      exact ⟨s, more, rfl, List.mem_cons_of_mem _ hs⟩
  | group segment children siblings _ ih =>
    rcases mem_leaves_group.mp h with ⟨more, rfl, -⟩ | h
    · exact ⟨segment, more, rfl, List.mem_cons_self⟩
    · obtain ⟨s, more, rfl, hs⟩ := ih h
      exact ⟨s, more, rfl, List.mem_cons_of_mem _ hs⟩

theorem not_overlap_of_mem {segment : String} (hs : segment ∉ tree.segments)
    (h : (p, e) ∈ tree.leaves) (more : List String) : ¬ Overlap p (segment :: more) := by
  obtain ⟨s, rest, rfl, hmem⟩ := exists_segment h
  rw [overlap_cons_cons]
  rintro ⟨rfl, -⟩
  exact hs hmem

theorem Proper.apart (h : tree.Proper) :
    (tree.leaves.map Prod.fst).Pairwise fun p q => ¬ Overlap p q := by
  induction h with
  | nil => exact .nil
  | @leaf segment old siblings hs _ ih =>
    refine List.pairwise_cons.mpr ⟨fun p hp hover => ?_, ih⟩
    obtain ⟨⟨q, e⟩, hmem, rfl⟩ := List.mem_map.mp hp
    exact not_overlap_of_mem hs hmem [] hover.symm
  | @group segment children siblings hs _ _ _ ihc ihs =>
    have hmap : (leaves children).map (fun l => segment :: l.1) =
        ((leaves children).map Prod.fst).map (segment :: ·) := by
      rw [List.map_map]
      rfl
    rw [leaves, List.map_append, List.map_map]
    refine List.pairwise_append.mpr ⟨?_, ihs, ?_⟩
    · refine hmap ▸ List.pairwise_map.mpr (ihc.imp fun hnot hover => hnot ?_)
      exact (overlap_cons_cons.mp hover).2
    · intro p hp q hq hover
      obtain ⟨⟨more, d⟩, -, rfl⟩ := List.mem_map.mp hp
      obtain ⟨⟨q, e⟩, hmem, rfl⟩ := List.mem_map.mp hq
      exact not_overlap_of_mem hs hmem more hover.symm

section insert
variable {segment : String} {more : List String}

theorem mem_segments_insert {s : String} :
    s ∈ (insert entry segment more tree).1.segments ↔ s = segment ∨ s ∈ tree.segments := by
  fun_induction insert entry segment more tree with
  | case1 segment more => simp [segments_single, segments]
  | case2 t old siblings => simp [segments]
  | case3 t old siblings next more => simp [segments]
  | case4 segment more t old siblings hne inserted ih =>
    simp only [segments, List.mem_cons, inserted, ih]
    exact or_left_comm
  | case5 t children siblings => simp [segments]
  | case6 t children siblings next more inserted _ => simp [segments]
  | case7 segment more t children siblings hne inserted ih =>
    simp only [segments, List.mem_cons, inserted, ih]
    exact or_left_comm

theorem insert_ne_nil : (insert entry segment more tree).1 ≠ nil := by
  intro h
  have hmem : segment ∈ (insert entry segment more tree).1.segments :=
    mem_segments_insert.mpr (.inl rfl)
  rw [h] at hmem
  cases hmem

theorem not_mem_segments_insert {s : String} (hne : s ≠ segment) (hs : s ∉ tree.segments) :
    s ∉ (insert entry segment more tree).1.segments := by
  intro hmem
  rcases mem_segments_insert.mp hmem with rfl | hmem
  · exact hne rfl
  · exact hs hmem

theorem Proper.insert (h : tree.Proper) : (insert entry segment more tree).1.Proper := by
  fun_induction Tree.insert entry segment more tree with
  | case1 segment more => exact proper_single entry segment more
  | case2 t old siblings =>
    cases h with
    | leaf hs hsiblings => exact .leaf hs hsiblings
  | case3 t old siblings next more =>
    cases h with
    | leaf hs hsiblings =>
      exact .group hs (single_ne_nil entry next more) (proper_single entry next more) hsiblings
  | case4 segment more t old siblings hne inserted ih =>
    cases h with
    | leaf hs hsiblings => exact .leaf (not_mem_segments_insert hne hs) (ih hsiblings)
  | case5 t children siblings =>
    cases h with
    | group hs _ _ hsiblings => exact .leaf hs hsiblings
  | case6 t children siblings next more inserted ih =>
    cases h with
    | group hs _ hchildren hsiblings => exact .group hs insert_ne_nil (ih hchildren) hsiblings
  | case7 segment more t children siblings hne inserted ih =>
    cases h with
    | group hs hfull hchildren hsiblings =>
      exact .group (not_mem_segments_insert hne hs) hfull hchildren (ih hsiblings)

theorem Proper.mem_leaves_insert (h : tree.Proper) :
    (p, e) ∈ (Tree.insert entry segment more tree).1.leaves ↔
      p = segment :: more ∧ e = entry ∨
        (p, e) ∈ tree.leaves ∧ ¬ Overlap p (segment :: more) := by
  revert p
  fun_induction Tree.insert entry segment more tree with
  | case1 segment more => simp [leaves_single, leaves]
  | case2 t old siblings =>
    intro p
    cases h with
    | leaf hs hsiblings =>
      have hkeep := fun hmem => not_overlap_of_mem (p := p) (e := e) hs hmem []
      rw [mem_leaves_leaf, mem_leaves_leaf]
      grind [overlap_cons_cons, overlap_nil_left]
  | case3 t old siblings next more =>
    intro p
    cases h with
    | leaf hs hsiblings =>
      have hkeep := fun hmem => not_overlap_of_mem (p := p) (e := e) hs hmem (next :: more)
      rw [mem_leaves_group, mem_leaves_leaf, leaves_single]
      grind [overlap_cons_cons, overlap_nil_left]
  | case4 segment more t old siblings hne inserted ih =>
    intro p
    cases h with
    | leaf hs hsiblings =>
      rw [mem_leaves_leaf, mem_leaves_leaf, ih hsiblings]
      grind [overlap_cons_cons]
  | case5 t children siblings =>
    intro p
    cases h with
    | group hs _ _ hsiblings =>
      -- All leaves of the group are lost, since their paths lead through the new leaf.
      have hkeep := fun hmem => not_overlap_of_mem (p := p) (e := e) hs hmem []
      rw [mem_leaves_leaf, mem_leaves_group]
      grind [overlap_cons_cons, overlap_nil_right]
  | case6 t children siblings next more inserted ih =>
    intro p
    cases h with
    | group hs _ hchildren hsiblings =>
      have hkeep := fun hmem => not_overlap_of_mem (p := p) (e := e) hs hmem (next :: more)
      rw [mem_leaves_group, mem_leaves_group]
      simp only [inserted, ih hchildren]
      grind [overlap_cons_cons]
  | case7 segment more t children siblings hne inserted ih =>
    intro p
    cases h with
    | group hs _ hchildren hsiblings =>
      rw [mem_leaves_group, mem_leaves_group, ih hsiblings]
      grind [overlap_cons_cons]

end insert

end Tree
end LocaleAccessors.Key
