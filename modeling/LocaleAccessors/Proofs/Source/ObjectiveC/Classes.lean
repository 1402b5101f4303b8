import LocaleAccessors.Proofs.Namespace.Words
import LocaleAccessors.Source.ObjectiveC

/-!
The classes of a tree of namespaces. Their names are different words that begin with an underscore,
each namespace has one class, a getter returns the class of its own namespace, and a class stands after
the classes of its getters.
-/

namespace LocaleAccessors.Source.ObjectiveC
open Name (distinctName distinctName_not_mem isWord_distinctName)
open Text (IsWord)

/-! The names. Each is taken once it is given, so the next one is another. -/

section names
variable {stem : String} {taken : List String} {x : String}

theorem mem_nameClasses_snd (stem : String) (taken : List String) (ns : Namespaces) :
    x ∈ (nameClasses stem taken ns).2 ↔ x ∈ taken ∨ x ∈ (nameClasses stem taken ns).1.names := by
  induction ns generalizing stem taken with
  | nil => simp [nameClasses, Classes.names]
  | cons name accessors inner siblings ihinner ihsiblings =>
    simp only [nameClasses, Classes.names, ihsiblings, ihinner, List.mem_cons, List.mem_append]
    tauto

theorem not_mem_names_of_mem_taken (stem : String) {taken : List String} (ns : Namespaces)
    (h : x ∈ taken) : x ∉ (nameClasses stem taken ns).1.names := by
  induction ns generalizing stem taken with
  | nil => exact List.not_mem_nil
  | cons name accessors inner siblings ihinner ihsiblings =>
    rw [nameClasses, Classes.names, List.mem_cons, List.mem_append, not_or, not_or]
    have hlater := List.mem_cons_of_mem (distinctName (stem ++ name) taken) h
    refine ⟨?_, ihinner _ hlater, ihsiblings _ ?_⟩
    · rintro rfl
      exact distinctName_not_mem _ taken h
    · exact (mem_nameClasses_snd _ _ inner).mpr (.inl hlater)

theorem nodup_names (stem : String) (taken : List String) (ns : Namespaces) :
    (nameClasses stem taken ns).1.names.Nodup := by
  induction ns generalizing stem taken with
  | nil => exact List.nodup_nil
  | cons name accessors inner siblings ihinner ihsiblings =>
    rw [nameClasses, Classes.names, List.nodup_cons, List.mem_append, not_or, List.nodup_append]
    refine ⟨⟨?_, ?_⟩, ihinner _ _, ihsiblings _ _, ?_⟩
    · exact not_mem_names_of_mem_taken _ inner List.mem_cons_self
    · exact not_mem_names_of_mem_taken _ siblings
        ((mem_nameClasses_snd _ _ inner).mpr (.inl List.mem_cons_self))
    · rintro x hx y hy rfl
      exact not_mem_names_of_mem_taken _ siblings ((mem_nameClasses_snd _ _ inner).mpr (.inr hx)) hy

structure IsClassName (name : String) : Prop where
  word : IsWord name
  underscore : name.toList.head? = some '_'

theorem IsClassName.append {stem name : String} (h : IsClassName stem) (hname : IsWord name) :
    IsClassName (stem ++ name) where
  word := h.word.append hname.chars
  underscore := by
    rw [String.toList_append, List.head?_append, h.underscore]
    rfl

theorem IsClassName.distinctName {name : String} (h : IsClassName name) (taken : List String) :
    IsClassName (Name.distinctName name taken) where
  word := isWord_distinctName h.word taken
  underscore := by
    obtain ⟨-, heq⟩ | ⟨-, k, -, heq, -⟩ := Name.distinctName_cases name taken
    · rw [heq]
      exact h.underscore
    · rw [heq, Name.suffixed, String.toList_append, String.toList_append, List.append_assoc,
        List.head?_append, h.underscore]
      rfl

theorem isClassName_underscore : IsClassName "_" :=
  ⟨by decide, rfl⟩

theorem isClassName_of_mem_names (hstem : IsClassName stem) {ns : Namespaces} (h : ns.Worded)
    (hx : x ∈ (nameClasses stem taken ns).1.names) : IsClassName x := by
  induction ns generalizing stem taken with
  | nil => cases hx
  | cons name accessors inner siblings ihinner ihsiblings =>
    obtain ⟨hname, -, hinner, hsiblings⟩ := h
    rw [nameClasses, Classes.names, List.mem_cons, List.mem_append] at hx
    obtain rfl | hx | hx := hx
    · exact (hstem.append hname).distinctName taken
    · exact ihinner (hstem.append hname) hinner hx
    · exact ihsiblings hstem hsiblings hx

structure ClassModel.Worded (c : ClassModel) : Prop where
  name : IsWord c.name
  children : ∀ g ∈ c.children, IsWord g.name ∧ IsWord g.className
  accessors : ∀ a ∈ c.accessors, a.Worded

theorem worded_getters (hstem : IsClassName stem) {ns : Namespaces} (h : ns.Worded) :
    ∀ g ∈ (nameClasses stem taken ns).1.getters, IsWord g.name ∧ IsWord g.className := by
  induction ns generalizing taken with
  | nil =>
    intro g hg
    cases hg
  | cons name accessors inner siblings _ ihsiblings =>
    obtain ⟨hname, -, -, hsiblings⟩ := h
    rw [nameClasses, Classes.getters, List.forall_mem_cons]
    exact ⟨⟨hname, ((hstem.append hname).distinctName taken).word⟩, ihsiblings hsiblings⟩

theorem worded_models (hstem : IsClassName stem) {ns : Namespaces} (h : ns.Worded)
    (isRoot : Bool) : ∀ c ∈ (nameClasses stem taken ns).1.models isRoot, c.Worded := by
  induction ns generalizing stem taken isRoot with
  | nil =>
    intro c hc
    cases hc
  | cons name accessors inner siblings ihinner ihsiblings =>
    obtain ⟨hname, haccessors, hinner, hsiblings⟩ := h
    have hdeeper := hstem.append hname
    rw [nameClasses, Classes.models, List.forall_mem_append, List.forall_mem_append,
      List.forall_mem_singleton]
    refine ⟨⟨ihinner hdeeper hinner false, ?_⟩, ihsiblings hstem hsiblings isRoot⟩
    exact ⟨(hdeeper.distinctName taken).word, worded_getters hdeeper hinner, haccessors⟩

end names

/-! The classes by the paths of their namespaces. -/

namespace Classes

/-- The classes with the paths of their namespaces, each before those inside it. -/
def located (isRoot : Bool) : Classes → List (List String × ClassModel)
  | nil => []
  | cons className name accessors inner siblings =>
    ([name], ⟨className, isRoot, inner.getters, accessors⟩) ::
      ((located false inner).map fun e => (name :: e.1, e.2)) ++ located isRoot siblings

theorem map_name_located (isRoot : Bool) (cs : Classes) :
    (cs.located isRoot).map (·.2.name) = cs.names := by
  induction cs generalizing isRoot with
  | nil => rfl
  | cons className name accessors inner siblings ihinner ihsiblings =>
    simp [located, names, Function.comp_def, ihinner, ihsiblings]

theorem models_perm_located (isRoot : Bool) (cs : Classes) :
    (cs.models isRoot).Perm ((cs.located isRoot).map Prod.snd) := by
  induction cs generalizing isRoot with
  | nil => exact .nil
  | cons className name accessors inner siblings ihinner ihsiblings =>
    have hinner : ((located false inner).map fun e => (name :: e.1, e.2)).map Prod.snd =
        (located false inner).map Prod.snd := by
      rw [List.map_map]
      rfl
    rw [models, located, List.map_append, List.map_cons, hinner]
    refine .append ?_ (ihsiblings isRoot)
    exact List.perm_append_comm.trans (.cons _ (ihinner false))

theorem ne_nil_of_mem_located {isRoot : Bool} {cs : Classes} {e : List String × ClassModel}
    (h : e ∈ cs.located isRoot) : e.1 ≠ [] := by
  induction cs generalizing isRoot with
  | nil => cases h
  | cons className name accessors inner siblings _ ihsiblings =>
    rw [located, List.mem_append, List.mem_cons, List.mem_map] at h
    obtain (rfl | ⟨below, -, rfl⟩) | h := h
    · exact List.cons_ne_nil _ _
    · exact List.cons_ne_nil _ _
    · exact ihsiblings h

theorem isRoot_of_mem_located {isRoot : Bool} {cs : Classes} {e : List String × ClassModel}
    (h : e ∈ cs.located isRoot) : e.2.isRoot = (isRoot && e.1.tail.isEmpty) := by
  induction cs generalizing isRoot e with
  | nil => cases h
  | cons className name accessors inner siblings ihinner ihsiblings =>
    rw [located, List.mem_append, List.mem_cons, List.mem_map] at h
    obtain (rfl | ⟨below, hbelow, rfl⟩) | h := h
    · simp
    · have hne : below.1.isEmpty = false := by simpa using ne_nil_of_mem_located hbelow
      simp [ihinner hbelow, hne]
    · exact ihsiblings h

theorem exists_located_of_mem_getters (isRoot : Bool) {cs : Classes} {g : ChildGetter}
    (h : g ∈ cs.getters) : ∃ e ∈ cs.located isRoot, e.1 = [g.name] ∧ e.2.name = g.className := by
  induction cs with
  | nil => cases h
  | cons className name accessors inner siblings _ ihsiblings =>
    cases List.mem_cons.mp h with
    | inl heq =>
      rw [heq]
      exact ⟨_, List.mem_append_left _ List.mem_cons_self, rfl, rfl⟩
    | inr h =>
      obtain ⟨e, he, hpath, hname⟩ := ihsiblings h
      exact ⟨e, List.mem_append_right _ he, hpath, hname⟩

theorem exists_located_of_mem_children {isRoot : Bool} {cs : Classes} {e : List String × ClassModel}
    (he : e ∈ cs.located isRoot) {g : ChildGetter} (hg : g ∈ e.2.children) :
    ∃ f ∈ cs.located isRoot, f.1 = e.1 ++ [g.name] ∧ f.2.name = g.className := by
  induction cs generalizing isRoot e with
  | nil => cases he
  | cons className name accessors inner siblings ihinner ihsiblings =>
    rw [located, List.mem_append, List.mem_cons, List.mem_map] at he
    have hinside : ∀ f ∈ located false inner, (name :: f.1, f.2) ∈
        located isRoot (cons className name accessors inner siblings) := by
      intro f hf
      exact List.mem_append_left _ (List.mem_cons_of_mem _ (List.mem_map_of_mem hf))
    obtain (rfl | ⟨below, hbelow, rfl⟩) | he := he
    · obtain ⟨f, hf, hpath, hname⟩ := exists_located_of_mem_getters false hg
      exact ⟨_, hinside f hf, congrArg (name :: ·) hpath, hname⟩
    · obtain ⟨f, hf, hpath, hname⟩ := ihinner hbelow hg
      exact ⟨_, hinside f hf, congrArg (name :: ·) hpath, hname⟩
    · obtain ⟨f, hf, hpath, hname⟩ := ihsiblings he hg
      exact ⟨f, List.mem_append_right _ hf, hpath, hname⟩

/-- What a class has of its namespace: its path, and the names of the namespaces inside it and the
accessors. -/
def outline (e : List String × ClassModel) : List String × List String × List Accessor :=
  (e.1, e.2.children.map (·.name), e.2.accessors)

theorem map_name_getters (stem : String) (taken : List String) (ns : Namespaces) :
    (nameClasses stem taken ns).1.getters.map (·.name) = ns.names := by
  induction ns generalizing taken with
  | nil => rfl
  | cons name accessors inner siblings _ ihsiblings =>
    rw [nameClasses, getters, List.map_cons, ihsiblings]
    rfl

theorem map_outline_located (isRoot : Bool) (stem : String) (taken : List String)
    (ns : Namespaces) :
    ((nameClasses stem taken ns).1.located isRoot).map outline =
      ns.located.map fun e => (e.1, e.2.inner.names, e.2.accessors) := by
  induction ns generalizing isRoot stem taken with
  | nil => rfl
  | cons name accessors inner siblings ihinner ihsiblings =>
    have hinner := congrArg (List.map fun e => (name :: e.1, e.2))
      (ihinner false (stem ++ name) (distinctName (stem ++ name) taken :: taken))
    rw [List.map_map, List.map_map] at hinner
    simp only [nameClasses, located, Namespaces.located, List.map_append, List.map_cons,
      List.map_map, ihsiblings]
    rw [outline, map_name_getters]
    congr 2

end Classes

/-! The order of the classes. -/

def ChildrenFirst (earlier : List String) : List ClassModel → Prop
  | [] => True
  | c :: others =>
    (∀ g ∈ c.children, g.className ∈ earlier) ∧ ChildrenFirst (earlier ++ [c.name]) others

namespace ChildrenFirst
variable {earlier : List String} {models others : List ClassModel}

theorem append (h : ChildrenFirst earlier models)
    (hothers : ChildrenFirst (earlier ++ models.map (·.name)) others) :
    ChildrenFirst earlier (models ++ others) := by
  induction models generalizing earlier with
  | nil => simpa using hothers
  | cons c models ih =>
    refine ⟨h.1, ih h.2 ?_⟩
    simpa using hothers

theorem mem_of_eq_append {before after : List ClassModel} {c : ClassModel}
    (h : ChildrenFirst earlier (before ++ c :: after)) {g : ChildGetter} (hg : g ∈ c.children) :
    g.className ∈ earlier ++ before.map (·.name) := by
  induction before generalizing earlier with
  | nil => exact List.mem_append_left _ (h.1 g hg)
  | cons d before ih =>
    have hmem := ih h.2
    rwa [List.append_assoc, List.singleton_append] at hmem

end ChildrenFirst

theorem className_mem_of_mem_getters {isRoot : Bool} {cs : Classes} {g : ChildGetter}
    (h : g ∈ cs.getters) : g.className ∈ (cs.models isRoot).map (·.name) := by
  induction cs with
  | nil => cases h
  | cons className name accessors inner siblings _ ihsiblings =>
    rw [Classes.models, List.map_append, List.map_append, List.mem_append, List.mem_append]
    cases List.mem_cons.mp h with
    | inl heq =>
      rw [heq]
      exact .inl (.inr List.mem_cons_self)
    | inr h => exact .inr (ihsiblings h)

theorem childrenFirst_models (earlier : List String) (isRoot : Bool) (cs : Classes) :
    ChildrenFirst earlier (cs.models isRoot) := by
  induction cs generalizing earlier isRoot with
  | nil => trivial
  | cons className name accessors inner siblings ihinner ihsiblings =>
    have hthis : ChildrenFirst (earlier ++ (inner.models false).map (·.name))
        [⟨className, isRoot, inner.getters, accessors⟩] :=
      ⟨fun g hg => List.mem_append_right _ (className_mem_of_mem_getters hg), trivial⟩
    exact ((ihinner _ _).append hthis).append (ihsiblings _ _)

/-! The number of the classes. -/

theorem length_paths_ofGroups (rules : Name.Rules) (taken : List String) (tree : Key.Tree) :
    (Namespaces.ofGroups rules taken tree).paths.length + 1 = tree.groupCount := by
  induction tree generalizing taken with
  | nil => rfl
  | leaf segment entry siblings ih => exact ih taken
  | group segment children siblings ihchildren ihsiblings =>
    have hchildren := ihchildren ((namedLeaves rules [] children).map Prod.fst)
    have hsiblings := ihsiblings (distinctName (rules.identifier segment) taken :: taken)
    rw [Namespaces.ofGroups, Namespaces.paths, Key.Tree.groupCount, List.length_append,
      List.length_cons, List.length_map]
    omega

end LocaleAccessors.Source.ObjectiveC
