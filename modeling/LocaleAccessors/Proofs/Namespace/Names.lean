import LocaleAccessors.Namespace
import LocaleAccessors.Proofs.Name.Usable

/-!
The names in the namespaces of a tree. The members of each namespace have different names that the
language takes, and so no two namespaces have the same path.
-/

namespace LocaleAccessors
open Key (Tree)
open Name (Rules Usable distinctName distinctName_not_mem usable_identifier)

namespace Namespaces

def names : Namespaces → List String
  | .nil => []
  | .cons name _ _ siblings => name :: names siblings

/-- The namespaces with their paths, each before those inside it. -/
def located : Namespaces → List (List String × Namespace)
  | .nil => []
  | .cons name accessors inner siblings =>
    ([name], ⟨name, accessors, inner⟩) ::
      ((located inner).map fun (path, n) => (name :: path, n)) ++ located siblings

theorem map_fst_located (ns : Namespaces) : ns.located.map Prod.fst = ns.paths := by
  induction ns with
  | nil => rfl
  | cons name accessors inner siblings ihinner ihsiblings =>
    rw [paths, ← ihinner, ← ihsiblings]
    simp [located, Function.comp_def]

theorem head_of_mem_paths {ns : Namespaces} {path : List String} (h : path ∈ ns.paths) :
    ∃ name ∈ ns.names, ∃ rest, path = name :: rest := by
  induction ns with
  | nil => cases h
  | cons name accessors inner siblings _ ihsiblings =>
    rw [paths, List.mem_append, List.mem_cons, List.mem_map] at h
    obtain (rfl | ⟨rest, -, rfl⟩) | h := h
    · exact ⟨name, List.mem_cons_self, [], rfl⟩
    · exact ⟨name, List.mem_cons_self, rest, rfl⟩
    · obtain ⟨other, hother, hpath⟩ := ihsiblings h
      exact ⟨other, List.mem_cons_of_mem name hother, hpath⟩

theorem paths_nodup {ns : Namespaces} (h : ns.names.Nodup)
    (hinner : ∀ e ∈ ns.located, e.2.inner.names.Nodup) : ns.paths.Nodup := by
  induction ns with
  | nil => exact List.nodup_nil
  | cons name accessors inner siblings ihinner ihsiblings =>
    rw [names, List.nodup_cons] at h
    rw [located, List.cons_append, List.forall_mem_cons, List.forall_mem_append,
      List.forall_mem_map] at hinner
    obtain ⟨hhere, hbelow, hbeside⟩ := hinner
    have hdeeper : ((paths inner).map (name :: ·)).Nodup :=
      (ihinner hhere hbelow).map fun p q hpq => (List.cons.inj hpq).2
    have hother : ∀ path ∈ paths siblings, ∀ rest, path ≠ name :: rest := by
      rintro path hpath rest rfl
      obtain ⟨other, hother, _, heq⟩ := head_of_mem_paths hpath
      cases heq
      exact h.1 hother
    rw [paths, List.cons_append, List.nodup_cons, List.mem_append, not_or, List.nodup_append]
    refine ⟨⟨?_, fun hmem => hother _ hmem [] rfl⟩, hdeeper, ihsiblings h.2 hbeside, ?_⟩
    · intro hmem
      obtain ⟨path, hpath, heq⟩ := List.mem_map.mp hmem
      cases heq
      obtain ⟨_, -, _, hnil⟩ := head_of_mem_paths hpath
      cases hnil
    · intro p hp q hq hpq
      obtain ⟨rest, -, rfl⟩ := List.mem_map.mp hp
      exact hother q hq rest hpq.symm

end Namespaces

namespace Namespace

def names (n : Namespace) : List String :=
  n.accessors.map (·.name) ++ n.inner.names

/-- The root, at the empty path, and the namespaces inside it. -/
def located (root : Namespace) : List (List String × Namespace) :=
  ([], root) :: root.inner.located

theorem map_fst_located (root : Namespace) : root.located.map Prod.fst = root.paths := by
  rw [located, List.map_cons, Namespaces.map_fst_located]
  rfl

end Namespace

section naming
variable {rules : Rules} {taken : List String} {tree : Tree} {x : String}

theorem mem_namedLeaves_names (h : x ∈ (namedLeaves rules taken tree).map Prod.fst) :
    x ∉ taken ∧ ∃ segment others, x = distinctName (rules.identifier segment) others := by
  induction tree generalizing taken with
  | nil => cases h
  | group segment children siblings _ ih => exact ih h
  | leaf segment entry siblings ih =>
    rw [namedLeaves, List.map_cons, List.mem_cons] at h
    cases h with
    | inl h =>
      rw [h]
      exact ⟨distinctName_not_mem _ taken, segment, taken, rfl⟩
    | inr h =>
      obtain ⟨hnot, hname⟩ := ih h
      exact ⟨fun htaken => hnot (List.mem_cons_of_mem _ htaken), hname⟩

theorem nodup_namedLeaves (rules : Rules) (taken : List String) (tree : Tree) :
    ((namedLeaves rules taken tree).map Prod.fst).Nodup := by
  induction tree generalizing taken with
  | nil => exact List.nodup_nil
  | group segment children siblings _ ih => exact ih taken
  | leaf segment entry siblings ih =>
    rw [namedLeaves, List.map_cons, List.nodup_cons]
    refine ⟨fun hmem => ?_, ih _⟩
    exact (mem_namedLeaves_names hmem).1 List.mem_cons_self

theorem mem_names_ofGroups (h : x ∈ (Namespaces.ofGroups rules taken tree).names) :
    x ∉ taken ∧ ∃ segment others, x = distinctName (rules.identifier segment) others := by
  induction tree generalizing taken with
  | nil => cases h
  | leaf segment entry siblings ih => exact ih h
  | group segment children siblings _ ih =>
    rw [Namespaces.ofGroups, Namespaces.names, List.mem_cons] at h
    cases h with
    | inl h =>
      rw [h]
      exact ⟨distinctName_not_mem _ taken, segment, taken, rfl⟩
    | inr h =>
      obtain ⟨hnot, hname⟩ := ih h
      exact ⟨fun htaken => hnot (List.mem_cons_of_mem _ htaken), hname⟩

theorem nodup_names_ofGroups (rules : Rules) (taken : List String) (tree : Tree) :
    (Namespaces.ofGroups rules taken tree).names.Nodup := by
  induction tree generalizing taken with
  | nil => exact List.nodup_nil
  | leaf segment entry siblings ih => exact ih taken
  | group segment children siblings _ ih =>
    rw [Namespaces.ofGroups, Namespaces.names, List.nodup_cons]
    refine ⟨fun hmem => ?_, ih _⟩
    exact (mem_names_ofGroups hmem).1 List.mem_cons_self

theorem accessorsOf_names_sublist (rules : Rules) (tree : Tree) :
    ((accessorsOf rules tree).map (·.name)).Sublist ((namedLeaves rules [] tree).map Prod.fst) := by
  rw [accessorsOf]
  generalize namedLeaves rules [] tree = named
  induction named with
  | nil => exact List.Sublist.slnil
  | cons leaf named ih =>
    obtain ⟨name, entry⟩ := leaf
    cases haccessor : Accessor.ofEntry? name entry with
    | none =>
      simp only [List.filterMap_cons, haccessor, List.map_cons]
      exact ih.cons name
    | some a =>
      have hname : a.name = name := by
        unfold Accessor.ofEntry? at haccessor
        split at haccessor
        · cases haccessor
          rfl
        · cases haccessor
      simp only [List.filterMap_cons, haccessor, List.map_cons, hname]
      exact ih.cons_cons name

theorem nodup_names_ofTree (rules : Rules) (name : String) (tree : Tree) :
    (Namespace.ofTree rules name tree).names.Nodup := by
  have hsub := accessorsOf_names_sublist rules tree
  rw [Namespace.names, List.nodup_append]
  refine ⟨hsub.nodup (nodup_namedLeaves rules [] tree), nodup_names_ofGroups rules _ tree, ?_⟩
  intro x hx y hy hxy
  exact (mem_names_ofGroups hy).1 (hxy ▸ hsub.subset hx)

theorem usable_of_mem_names {language : Language} {capitalize : Bool} {name : String}
    (h : x ∈ (Namespace.ofTree (.of language capitalize) name tree).names) :
    Usable language.reserved x := by
  have hname : ∃ segment others,
      x = distinctName ((Rules.of language capitalize).identifier segment) others := by
    cases List.mem_append.mp h with
    | inl h => exact (mem_namedLeaves_names ((accessorsOf_names_sublist _ tree).subset h)).2
    | inr h => exact (mem_names_ofGroups h).2
  obtain ⟨segment, others, rfl⟩ := hname
  exact (usable_identifier language capitalize segment).distinctName others

theorem exists_ofTree_of_ofGroups {e : List String × Namespace}
    (h : e ∈ (Namespaces.ofGroups rules taken tree).located) :
    ∃ name subtree, e.2 = Namespace.ofTree rules name subtree := by
  induction tree generalizing taken e with
  | nil => cases h
  | leaf segment entry siblings ih => exact ih h
  | group segment children siblings ihchildren ihsiblings =>
    rw [Namespaces.ofGroups, Namespaces.located, List.cons_append, List.mem_cons, List.mem_append,
      List.mem_map] at h
    obtain rfl | ⟨⟨path, below⟩, hbelow, rfl⟩ | h := h
    · exact ⟨_, children, rfl⟩
    · exact ihchildren (e := (path, below)) hbelow
    · exact ihsiblings h

/-- Every namespace of a tree is made from a part of the tree as the root is made from the whole. -/
theorem exists_ofTree_of_located {name : String} {e : List String × Namespace}
    (h : e ∈ (Namespace.ofTree rules name tree).located) :
    ∃ name subtree, e.2 = Namespace.ofTree rules name subtree := by
  cases List.mem_cons.mp h with
  | inl h => exact ⟨name, tree, congrArg Prod.snd h⟩
  | inr h => exact exists_ofTree_of_ofGroups h

theorem paths_nodup_ofTree (rules : Rules) (name : String) (tree : Tree) :
    (Namespace.ofTree rules name tree).paths.Nodup := by
  have hnames : ∀ e ∈ (Namespace.ofTree rules name tree).located, e.2.inner.names.Nodup := by
    intro e he
    obtain ⟨_, subtree, heq⟩ := exists_ofTree_of_located he
    rw [heq]
    exact (List.nodup_append.mp (nodup_names_ofTree rules _ subtree)).2.1
  obtain ⟨hroot, hinner⟩ := List.forall_mem_cons.mp hnames
  rw [Namespace.paths, List.nodup_cons]
  refine ⟨fun hmem => ?_, Namespaces.paths_nodup hroot hinner⟩
  obtain ⟨_, -, _, hnil⟩ := Namespaces.head_of_mem_paths hmem
  cases hnil

/-- In every namespace of a tree the accessors and the inner namespaces have different names, all of
them usable, and different namespaces have different paths. -/
theorem names_distinct_usable (language : Language) (capitalize : Bool) (name : String)
    (tree : Tree) :
    (∀ e ∈ (Namespace.ofTree (.of language capitalize) name tree).located,
      e.2.names.Nodup ∧ ∀ x ∈ e.2.names, Usable language.reserved x) ∧
    ((Namespace.ofTree (.of language capitalize) name tree).located.map Prod.fst).Nodup := by
  refine ⟨fun e he => ?_, ?_⟩
  · obtain ⟨inner, subtree, heq⟩ := exists_ofTree_of_located he
    rw [heq]
    exact ⟨nodup_names_ofTree _ inner subtree, fun x hx => usable_of_mem_names hx⟩
  · rw [Namespace.map_fst_located]
    exact paths_nodup_ofTree _ name tree

end naming

end LocaleAccessors
