import LocaleAccessors.Proofs.Name.Suffix
import LocaleAccessors.Proofs.Namespace.Counts

/-!
How the members of the groups of a tree come to their names. The leaves of a group, and then its groups,
are named one after the other, and each gets the first of its candidates that no earlier one has. So a
name is that of a member if and only if it is the turn of a member that wants it, or that finds all its
candidates before it taken.
-/

namespace LocaleAccessors
open Key (Tree)
open Name (Rules candidate distinctName distinctName_candidate distinctName_eq_candidate
  distinctName_congr)
open Source.ObjectiveC (nameEach nameEach_append)
open Table (Entry)

namespace Name

theorem nameEach_congr {taken others : List String} (h : ∀ x, x ∈ taken ↔ x ∈ others)
    (wanted : List String) : nameEach taken wanted = nameEach others wanted := by
  induction wanted generalizing taken others with
  | nil => rfl
  | cons own wanted ih =>
    rw [nameEach, nameEach, distinctName_congr h]
    refine congrArg (_ :: ·) (ih fun x => ?_)
    rw [List.mem_cons, List.mem_cons, h]

/-- Among members that want these names it is the turn of one for which the name is a candidate, with all
those before it taken by members before. -/
def Given (wanted : List String) (name : String) : Prop :=
  ∃ before own after i, wanted = before ++ own :: after ∧ candidate own i = name ∧
    ∀ j < i, candidate own j ∈ nameEach [] before

theorem nameEach_concat (wanted : List String) (own : String) :
    nameEach [] (wanted ++ [own]) = nameEach [] wanted ++ [distinctName own (nameEach [] wanted)] := by
  have hown : distinctName own ((nameEach [] wanted).reverse ++ []) =
      distinctName own (nameEach [] wanted) := distinctName_congr (by simp) own
  rw [nameEach_append, nameEach, nameEach, hown]

theorem given_of_mem {wanted : List String} {name : String} (h : name ∈ nameEach [] wanted) :
    Given wanted name := by
  induction wanted using List.reverseRecOn with
  | nil => cases h
  | append_singleton wanted own ih =>
    rw [nameEach_concat, List.mem_append, List.mem_singleton] at h
    cases h with
    | inl h =>
      obtain ⟨before, other, after, i, rfl, heq, hall⟩ := ih h
      exact ⟨before, other, after ++ [own], i, by simp, heq, hall⟩
    | inr h =>
      obtain ⟨i, heq, -, hall⟩ := distinctName_candidate own (nameEach [] wanted)
      exact ⟨wanted, own, [], i, rfl, heq.symm.trans h.symm, hall⟩

theorem mem_of_given {wanted : List String} {name : String} (h : Given wanted name) :
    name ∈ nameEach [] wanted := by
  obtain ⟨before, own, after, i, rfl, rfl, hall⟩ := h
  rw [List.append_cons, nameEach_append, nameEach_concat]
  refine List.mem_append_left _ ?_
  -- A member before may have the name already; otherwise it is the first candidate that is free.
  by_cases htaken : candidate own i ∈ nameEach [] before
  · exact List.mem_append_left _ htaken
  · rw [distinctName_eq_candidate htaken hall]
    exact List.mem_append_right _ List.mem_cons_self

theorem mem_nameEach_iff {wanted : List String} {name : String} :
    name ∈ nameEach [] wanted ↔ Given wanted name :=
  ⟨given_of_mem, mem_of_given⟩

end Name

namespace Key.Tree

def leafSegments : Tree → List String
  | nil => []
  | leaf segment _ siblings => segment :: siblings.leafSegments
  | group _ _ siblings => siblings.leafSegments

def groupSegments : Tree → List String
  | nil => []
  | leaf _ _ siblings => siblings.groupSegments
  | group segment _ siblings => segment :: siblings.groupSegments

/-- The segments of the children of a group in the order in which these are named. -/
def memberSegments (tree : Tree) : List String :=
  tree.leafSegments ++ tree.groupSegments

def innerGroups : Tree → List Tree
  | nil => []
  | leaf _ _ siblings => siblings.innerGroups
  | group _ children siblings => children :: (children.innerGroups ++ siblings.innerGroups)

def groups (tree : Tree) : List Tree :=
  tree :: tree.innerGroups

end Key.Tree

section naming
variable (rules : Rules)

theorem map_fst_namedLeaves (taken : List String) (tree : Tree) :
    (namedLeaves rules taken tree).map Prod.fst =
      nameEach taken (tree.leafSegments.map rules.identifier) := by
  induction tree generalizing taken with
  | nil => rfl
  | leaf segment entry siblings ih => exact congrArg (_ :: ·) (ih _)
  | group segment children siblings _ ih => exact ih taken

theorem names_ofGroups (taken : List String) (tree : Tree) :
    (Namespaces.ofGroups rules taken tree).names =
      nameEach taken (tree.groupSegments.map rules.identifier) := by
  induction tree generalizing taken with
  | nil => rfl
  | leaf segment entry siblings ih => exact ih taken
  | group segment children siblings _ ih => exact congrArg (_ :: ·) (ih _)

def groupNames (tree : Tree) : List String :=
  (Namespaces.ofGroups rules ((namedLeaves rules [] tree).map Prod.fst) tree).names

theorem memberNames_eq (tree : Tree) :
    (namedLeaves rules [] tree).map Prod.fst ++ groupNames rules tree =
      nameEach [] (tree.memberSegments.map rules.identifier) := by
  have hgroups : groupNames rules tree =
      nameEach ((nameEach [] (tree.leafSegments.map rules.identifier)).reverse ++ [])
        (tree.groupSegments.map rules.identifier) := by
    rw [groupNames, names_ofGroups, map_fst_namedLeaves]
    exact Name.nameEach_congr (by simp) _
  rw [hgroups, map_fst_namedLeaves, Tree.memberSegments, List.map_append, nameEach_append]

theorem map_located_ofGroups (taken : List String) (tree : Tree) :
    (Namespaces.ofGroups rules taken tree).located.map (fun e => (e.2.inner.names, e.2.accessors)) =
      tree.innerGroups.map fun g => (groupNames rules g, accessorsOf rules g) := by
  induction tree generalizing taken with
  | nil => rfl
  | leaf segment entry siblings ih => exact ih taken
  | group segment children siblings ihchildren ihsiblings =>
    have hchildren := ihchildren ((namedLeaves rules [] children).map Prod.fst)
    rw [Namespaces.ofGroups, Namespaces.located, Tree.innerGroups, List.cons_append, List.map_cons,
      List.map_append, ihsiblings, List.map_cons, List.map_append, ← hchildren, List.map_map]
    rfl

theorem map_located_ofTree (name : String) (tree : Tree) :
    (Namespace.ofTree rules name tree).located.map (fun e => (e.2.inner.names, e.2.accessors)) =
      tree.groups.map fun g => (groupNames rules g, accessorsOf rules g) := by
  rw [Namespace.located, Tree.groups, List.map_cons, List.map_cons, ← map_located_ofGroups]
  rfl

end naming

section failures
variable {tree : Tree}

theorem groupFailures_eq_flatMap (tree : Tree) :
    groupFailures tree = tree.innerGroups.flatMap leafFailures := by
  induction tree with
  | nil => rfl
  | leaf segment entry siblings ih => exact ih
  | group segment children siblings ihchildren ihsiblings =>
    rw [groupFailures, Tree.innerGroups, List.flatMap_cons, List.flatMap_append, ihchildren,
      ihsiblings, List.append_assoc]

theorem leafFailures_of_mem_groups (h : failures tree = []) {g : Tree} (hg : g ∈ tree.groups) :
    leafFailures g = [] := by
  have hall : tree.groups.flatMap leafFailures = [] := by
    rw [Tree.groups, List.flatMap_cons, ← groupFailures_eq_flatMap]
    exact h
  exact List.flatMap_eq_nil_iff.mp hall g hg

theorem map_name_accessorsOf (rules : Rules) {g : Tree} (h : leafFailures g = []) :
    (accessorsOf rules g).map (·.name) = (namedLeaves rules [] g).map Prod.fst := by
  refine (accessorsOf_names_sublist rules g).eq_of_length ?_
  have hinferred := congrArg List.length (inferred_accessorsOf rules g)
  have hleaves := congrArg List.length (map_snd_namedLeaves rules [] g)
  have htotal := length_inferred_add_failures g.ownLeaves
  rw [← leafFailures_eq, h, List.length_nil, Nat.add_zero] at htotal
  rw [List.length_map] at hinferred hleaves
  rw [List.length_map, List.length_map, hinferred, htotal, hleaves]

end failures

end LocaleAccessors
