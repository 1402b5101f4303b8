import LocaleAccessors.Proofs.Key.Tree

/-!
The history of a tree of keys. An entry survives just when no later entry has a path that overlaps
its own, and the leaves of the tree are the entries that survive.
-/

namespace LocaleAccessors.Key
open Table (Entry)
open Text (Separator)

def Undisturbed (delimiter : Separator) (p : List String) (entries : List Entry) : Prop :=
  ∀ e ∈ entries, path delimiter e.key ≠ [] → ¬ Overlap p (path delimiter e.key)

/-- The entry has a path, and at one of its places in the list nothing later disturbs it. -/
def Survives (delimiter : Separator) (entries : List Entry) (entry : Entry) : Prop :=
  path delimiter entry.key ≠ [] ∧ ∃ before later, entries = before ++ entry :: later ∧
    Undisturbed delimiter (path delimiter entry.key) later

section survivors
variable {delimiter : Separator} {first entry : Entry} {entries : List Entry}

theorem not_survives_nil : ¬ Survives delimiter [] entry := by
  rintro ⟨-, before, later, h, -⟩
  simp at h

theorem survives_cons :
    Survives delimiter (first :: entries) entry ↔
      (entry = first ∧ path delimiter first.key ≠ [] ∧
        Undisturbed delimiter (path delimiter first.key) entries) ∨
      Survives delimiter entries entry := by
  constructor
  · rintro ⟨hpath, before, later, heq, hlater⟩
    rcases List.cons_eq_append_iff.mp heq with ⟨rfl, heq⟩ | ⟨before, rfl, rfl⟩
    · cases heq
      exact .inl ⟨rfl, hpath, hlater⟩
    · exact .inr ⟨hpath, before, later, rfl, hlater⟩
  · rintro (⟨rfl, hpath, hlater⟩ | ⟨hpath, before, later, rfl, hlater⟩)
    · exact ⟨hpath, [], entries, rfl, hlater⟩
    · exact ⟨hpath, first :: before, later, rfl, hlater⟩

theorem undisturbed_cons {p : List String} :
    Undisturbed delimiter p (first :: entries) ↔
      (path delimiter first.key ≠ [] → ¬ Overlap p (path delimiter first.key)) ∧
        Undisturbed delimiter p entries :=
  List.forall_mem_cons

namespace Tree
variable {tree : Tree} {p : List String}

theorem Proper.insertAt (h : tree.Proper) (entry : Entry) (p : List String) :
    (insertAt entry p tree).1.Proper := by
  cases p with
  | nil => exact h
  | cons segment more => exact h.insert

theorem Proper.mem_leaves_insertAt (h : tree.Proper) {q : List String} {e : Entry} :
    (q, e) ∈ (Tree.insertAt entry p tree).1.leaves ↔
      p ≠ [] ∧ q = p ∧ e = entry ∨ (q, e) ∈ tree.leaves ∧ (p ≠ [] → ¬ Overlap q p) := by
  cases p with
  | nil => simp [Tree.insertAt]
  | cons segment more =>
    have hne : segment :: more ≠ [] := List.cons_ne_nil segment more
    simpa only [Tree.insertAt, hne, ne_eq, not_false_eq_true, true_and, forall_const] using
      h.mem_leaves_insert

/-- What a run leaves behind: the entries of its list that survive in it, and the leaves of the tree
it began with that it does not disturb. -/
theorem Proper.addAll (h : tree.Proper) (delimiter : Separator) (entries : List Entry) :
    (addAll delimiter entries tree).1.Proper ∧
      ∀ p e, (p, e) ∈ (Tree.addAll delimiter entries tree).1.leaves ↔
        p = path delimiter e.key ∧ Survives delimiter entries e ∨
          (p, e) ∈ tree.leaves ∧ Undisturbed delimiter p entries := by
  induction entries generalizing tree with
  | nil =>
    refine ⟨h, fun p e => ?_⟩
    simp [Tree.addAll, not_survives_nil, Undisturbed]
  | cons first entries ih =>
    obtain ⟨hproper, hmem⟩ := ih (h.insertAt first (path delimiter first.key))
    refine ⟨hproper, fun p e => ?_⟩
    rw [Tree.addAll, hmem, h.mem_leaves_insertAt, survives_cons, undisturbed_cons]
    constructor
    · rintro (⟨hp, hs⟩ | ⟨⟨hne, rfl, rfl⟩ | ⟨hold, hfirst⟩, hrest⟩)
      · exact .inl ⟨hp, .inr hs⟩
      · exact .inl ⟨rfl, .inl ⟨rfl, hne, hrest⟩⟩
      · exact .inr ⟨hold, hfirst, hrest⟩
    · rintro (⟨rfl, ⟨rfl, hne, hrest⟩ | hs⟩ | ⟨hold, hfirst, hrest⟩)
      · exact .inr ⟨.inl ⟨hne, rfl, rfl⟩, hrest⟩
      · exact .inl ⟨rfl, hs⟩
      · exact .inr ⟨.inr ⟨hold, hfirst⟩, hrest⟩

end Tree

theorem Survives.mem (h : Survives delimiter entries entry) : entry ∈ entries := by
  obtain ⟨-, before, later, rfl, -⟩ := h
  simp

theorem mem_of_mem_leaves_build {x : List String × Entry}
    (h : x ∈ (Tree.build delimiter entries).1.leaves) : x.2 ∈ entries := by
  obtain ⟨-, hsurvives⟩ | ⟨hnil, -⟩ := ((Tree.Proper.nil.addAll delimiter entries).2 x.1 x.2).mp h
  · exact hsurvives.mem
  · cases hnil

/-- The leaves of the tree are exactly the entries that survive, each at its own path. No two
leaves overlap, and no group below the root is empty. -/
theorem build_exact (delimiter : Separator) (entries : List Entry) :
    (∀ p entry, (p, entry) ∈ (Tree.build delimiter entries).1.leaves ↔
      p = path delimiter entry.key ∧ Survives delimiter entries entry) ∧
    ((Tree.build delimiter entries).1.leaves.map Prod.fst).Pairwise (fun p q => ¬ Overlap p q) ∧
    (Tree.build delimiter entries).1.Proper := by
  obtain ⟨hproper, hmem⟩ := Tree.Proper.nil.addAll delimiter entries
  refine ⟨fun p entry => ?_, hproper.apart, hproper⟩
  rw [Tree.build, hmem]
  simp [Tree.leaves]

end survivors

end LocaleAccessors.Key
