import LocaleAccessors.Namespace.Building
import LocaleAccessors.Proofs.Format.Inference
import LocaleAccessors.Proofs.Key.Order
import LocaleAccessors.Proofs.Namespace.Names
import LocaleAccessors.Source.Render

/-!
The failures of a tree. They are reported one by one in the order of their leaves, and what is built
does not depend on what becomes of the reports; so a walk that notes them down and a walk that ends at
the first one agree.
-/

namespace LocaleAccessors
open Format (Argument Fault inferText specifiers)
open Key (Tree)
open Name (Rules distinctName)
open Source (Rendered RenderFault render sourceOf)
open Table (Entry)

theorem accessors_cons (name : String) (entry : Entry) (named : List (String × Entry)) :
    (((name, entry) :: named).filterMap fun (name, entry) => Accessor.ofEntry? name entry) =
      (Accessor.ofEntry? name entry).toList ++
        named.filterMap fun (name, entry) => Accessor.ofEntry? name entry := by
  cases h : Accessor.ofEntry? name entry <;> simp [h]

section walk
variable {m : Type → Type} [Monad m] [LawfulMonad m] (report : Failure → m Unit) (rules : Rules)

theorem buildAccessor_eq (name : String) (entry : Entry) :
    buildAccessor report name entry = do
      (Failure.ofEntry? entry).toList.forM report
      return (Accessor.ofEntry? name entry).toList := by
  unfold buildAccessor Failure.ofEntry? Accessor.ofEntry?
  cases inferText entry.value with
  | ok arguments => simp
  | error fault => simp

theorem buildLeaves_eq (taken : List String) (tree : Tree) :
    buildLeaves report rules taken tree = do
      (leafFailures tree).forM report
      return ((namedLeaves rules taken tree).filterMap fun (name, entry) =>
        Accessor.ofEntry? name entry, (namedLeaves rules taken tree).map Prod.fst) := by
  induction tree generalizing taken with
  | nil => simp [buildLeaves, leafFailures, namedLeaves]
  | leaf segment entry siblings ih =>
    rw [buildLeaves, buildAccessor_eq, ih, leafFailures, namedLeaves, accessors_cons]
    simp
  | group segment children siblings _ ih => exact ih taken

theorem buildGroups_eq (taken : List String) (tree : Tree) :
    buildGroups report rules taken tree = do
      (groupFailures tree).forM report
      return .ofGroups rules taken tree := by
  induction tree generalizing taken with
  | nil => simp [buildGroups, groupFailures, Namespaces.ofGroups]
  | leaf segment entry siblings ih => exact ih taken
  | group segment children siblings ihchildren ihsiblings =>
    rw [buildGroups, buildLeaves_eq, ihsiblings, groupFailures, Namespaces.ofGroups, accessorsOf]
    simp [ihchildren]

theorem build_eq (name : String) (tree : Tree) :
    Namespace.build report rules name tree = do
      (failures tree).forM report
      return .ofTree rules name tree := by
  rw [Namespace.build, buildLeaves_eq, failures, Namespace.ofTree, accessorsOf]
  simp [buildGroups_eq]

end walk

def unlessBroken {α : Type} (found : List Failure) (a : α) : Except Fault α :=
  match Failure.breakdown? found with
  | none => .ok a
  | some fault => .error fault

section broken
variable {failure : Failure} {found : List Failure}

theorem breakdown?_cons_of_breaks (h : failure.fault.breaks) :
    Failure.breakdown? (failure :: found) = some failure.fault := by
  simp [Failure.breakdown?, h]

theorem breakdown?_cons_of_not_breaks (h : ¬ failure.fault.breaks) :
    Failure.breakdown? (failure :: found) = Failure.breakdown? found := by
  simp [Failure.breakdown?, h]

theorem breakdown?_eq_none (h : ∀ f ∈ found, ¬ f.fault.breaks) : Failure.breakdown? found = none := by
  simpa [Failure.breakdown?] using h

theorem breakdown?_append_of_breaks {others : List Failure} (h : ∀ f ∈ found, ¬ f.fault.breaks)
    (hfailure : failure.fault.breaks) :
    Failure.breakdown? (found ++ failure :: others) = some failure.fault := by
  induction found with
  | nil => exact breakdown?_cons_of_breaks hfailure
  | cons f found ih =>
    obtain ⟨hf, hfound⟩ := List.forall_mem_cons.mp h
    exact (breakdown?_cons_of_not_breaks hf).trans (ih hfound)

end broken

theorem run_forM_note (found before : List Failure) :
    (found.forM noteFailure).run before = unlessBroken found ((), before ++ found) := by
  induction found generalizing before with
  | nil =>
    rw [List.append_nil]
    rfl
  | cons failure found ih =>
    rw [List.append_cons]
    by_cases h : failure.fault.breaks
    · rw [unlessBroken, breakdown?_cons_of_breaks h]
      simp only [List.forM, StateT.run_bind, noteFailure, if_pos h]
      rfl
    · rw [unlessBroken, breakdown?_cons_of_not_breaks h, ← unlessBroken, ← ih]
      simp only [List.forM, StateT.run_bind, noteFailure, if_neg h]
      rfl

theorem run_collect (rules : Rules) (name : String) (tree : Tree) (before : List Failure) :
    (Namespace.collect rules name tree).run before =
      unlessBroken (failures tree) (.ofTree rules name tree, before ++ failures tree) := by
  rw [Namespace.collect, build_eq, StateT.run_bind, run_forM_note]
  unfold unlessBroken
  split <;> rfl

def unlessFailed (root : Namespace) : List Failure → Except BuildFault Namespace
  | [] => .ok root
  | first :: _ =>
    .error (if first.fault.breaks then .breakdown first.fault else .failure first)

theorem strict_eq (rules : Rules) (name : String) (tree : Tree) :
    Namespace.strict rules name tree = unlessFailed (.ofTree rules name tree) (failures tree) := by
  rw [Namespace.strict, build_eq]
  cases failures tree <;> rfl

section order

theorem leafFailures_eq (tree : Tree) :
    leafFailures tree = tree.ownLeaves.filterMap Failure.ofEntry? := by
  induction tree with
  | nil => rfl
  | leaf segment entry siblings ih =>
    rw [leafFailures, Tree.ownLeaves, ih]
    cases h : Failure.ofEntry? entry <;> simp [h]
  | group segment children siblings _ ih => exact ih

theorem groupFailures_eq (tree : Tree) :
    groupFailures tree = (tree.ownGroups.flatMap Tree.inOrder).filterMap Failure.ofEntry? := by
  induction tree with
  | nil => rfl
  | leaf segment entry siblings ih => exact ih
  | group segment children siblings ihchildren ihsiblings =>
    rw [groupFailures, leafFailures_eq, ihchildren, ihsiblings, Tree.ownGroups, List.flatMap_cons,
      List.filterMap_append, Tree.inOrder_eq children, List.filterMap_append]

theorem failures_eq (tree : Tree) : failures tree = tree.inOrder.filterMap Failure.ofEntry? := by
  rw [failures, leafFailures_eq, groupFailures_eq, Tree.inOrder_eq, List.filterMap_append]

def inferred? (entry : Entry) : Option (Entry × List Argument) :=
  match inferText entry.value with
  | .ok arguments => some (entry, arguments)
  | .error _ => none

def Accessor.inferred (a : Accessor) : Entry × List Argument :=
  (⟨a.key, a.translation⟩, a.arguments)

theorem inferred_ofEntry? (name : String) (entry : Entry) :
    (Accessor.ofEntry? name entry).map Accessor.inferred = inferred? entry := by
  unfold Accessor.ofEntry? inferred?
  cases inferText entry.value <;> rfl

def allInferred (located : List (List String × Namespace)) : List (Entry × List Argument) :=
  located.flatMap fun (_, n) => n.accessors.map Accessor.inferred

theorem allInferred_cons (name : String) (accessors : List Accessor) (inner siblings : Namespaces) :
    allInferred (Namespaces.cons name accessors inner siblings).located =
      accessors.map Accessor.inferred ++
        (allInferred inner.located ++ allInferred siblings.located) := by
  simp [allInferred, Namespaces.located, List.flatMap_map]

variable (rules : Rules)

theorem map_snd_namedLeaves (taken : List String) (tree : Tree) :
    (namedLeaves rules taken tree).map Prod.snd = tree.ownLeaves := by
  induction tree generalizing taken with
  | nil => rfl
  | leaf segment entry siblings ih => exact congrArg (entry :: ·) (ih _)
  | group segment children siblings _ ih => exact ih taken

theorem inferred_accessorsOf (tree : Tree) :
    (accessorsOf rules tree).map Accessor.inferred = tree.ownLeaves.filterMap inferred? := by
  rw [accessorsOf, List.map_filterMap, ← map_snd_namedLeaves rules [] tree, List.filterMap_map]
  refine List.filterMap_congr fun leaf _ => ?_
  exact inferred_ofEntry? leaf.1 leaf.2

theorem inferred_ofGroups (taken : List String) (tree : Tree) :
    allInferred (Namespaces.ofGroups rules taken tree).located =
      (tree.ownGroups.flatMap Tree.inOrder).filterMap inferred? := by
  induction tree generalizing taken with
  | nil => rfl
  | leaf segment entry siblings ih => exact ih taken
  | group segment children siblings ihchildren ihsiblings =>
    rw [Namespaces.ofGroups, allInferred_cons, inferred_accessorsOf, ihchildren, ihsiblings,
      Tree.ownGroups, List.flatMap_cons, List.filterMap_append, Tree.inOrder_eq children,
      List.filterMap_append, List.append_assoc]

theorem inferred_ofTree (name : String) (tree : Tree) :
    allInferred (Namespace.ofTree rules name tree).located = tree.inOrder.filterMap inferred? := by
  rw [Tree.inOrder_eq, List.filterMap_append, ← inferred_accessorsOf rules,
    ← inferred_ofGroups rules]
  rfl

end order

/-- All numbers of the translation can be read. -/
def Legible (entry : Entry) : Prop :=
  ∃ found, specifiers entry.value = .ok found

theorem Legible.not_breaks {entry : Entry} (h : Legible entry) {failure : Failure}
    (hf : Failure.ofEntry? entry = some failure) : ¬ failure.fault.breaks := by
  obtain ⟨found, hfound⟩ := h
  unfold Failure.ofEntry? at hf
  split at hf
  · cases hf
  · rename_i fault hfault
    cases hf
    rw [inferText, hfound] at hfault
    rcases Format.kind_of_infer_eq_error hfound hfault with ⟨_, rfl⟩ | ⟨_, _, _, rfl⟩ | ⟨_, _, rfl⟩ <;> exact Bool.noConfusion

theorem not_breaks_of_legible {entries : List Entry} (h : ∀ entry ∈ entries, Legible entry) :
    ∀ f ∈ entries.filterMap Failure.ofEntry?, ¬ f.fault.breaks := by
  intro f hf
  obtain ⟨entry, hentry, hfailure⟩ := List.mem_filterMap.mp hf
  exact (h entry hentry).not_breaks hfailure

theorem specifiers_cases (text : String) :
    (∃ found, specifiers text = .ok found) ∨ ∃ digits, specifiers text = .error (.unread digits) := by
  cases h : specifiers text with
  | ok found => exact .inl ⟨found, rfl⟩
  | error fault =>
    rw [Format.specifiers_eq, Format.unlessLong_eq_error_iff] at h
    obtain ⟨_, ds, _, _, _, _, rfl⟩ := h
    exact .inr ⟨ds.length, rfl⟩

theorem legible_cases (entries : List Entry) :
    (∀ entry ∈ entries, Legible entry) ∨
    ∃ before entry after digits, entries = before ++ entry :: after ∧
      (∀ e ∈ before, Legible e) ∧ specifiers entry.value = .error (.unread digits) := by
  induction entries with
  | nil => exact .inl (List.forall_mem_nil _)
  | cons entry entries ih =>
    rcases specifiers_cases entry.value with hlegible | ⟨digits, hdigits⟩
    · rcases ih with hall | ⟨before, other, after, digits, rfl, hbefore, hdigits⟩
      · exact .inl (List.forall_mem_cons.mpr ⟨hlegible, hall⟩)
      · exact .inr ⟨entry :: before, other, after, digits, rfl,
          List.forall_mem_cons.mpr ⟨hlegible, hbefore⟩, hdigits⟩
    · exact .inr ⟨[], entry, entries, digits, rfl, List.forall_mem_nil _, hdigits⟩

theorem failures_of_illegible {tree : Tree} {before after : List Entry} {entry : Entry} {digits : Nat}
    (hsplit : tree.inOrder = before ++ entry :: after)
    (h : specifiers entry.value = .error (.unread digits)) :
    failures tree = before.filterMap Failure.ofEntry? ++
      ⟨.unread digits, entry.key, entry.value⟩ :: after.filterMap Failure.ofEntry? := by
  have hentry : Failure.ofEntry? entry = some ⟨.unread digits, entry.key, entry.value⟩ := by
    rw [Failure.ofEntry?, inferText, h]
    rfl
  rw [failures_eq, hsplit, List.filterMap_append, List.filterMap_cons_some hentry]

def renderedUnlessFailed (o : Options) (root : Namespace) : List Failure → Except RenderFault Rendered
  | [] => .ok (sourceOf o root)
  | first :: others => .error (.translations first others)

/-- What becomes of a tree whose failures are `found`: of a walk that notes them down, of one that ends
at the first, and of a source. -/
structure Reported (o : Options) (tree : Tree) (found : List Failure) (root : Namespace) : Prop where
  noted : ∀ before, (Namespace.collect (.of o.language o.capitalize) o.baseName tree).run before =
    .ok (root, before ++ found)
  kept : allInferred root.located = tree.inOrder.filterMap inferred?
  strict : Namespace.strict (.of o.language o.capitalize) o.baseName tree = unlessFailed root found
  rendered : o.fault? = none → render o tree = renderedUnlessFailed o root found

/-- What becomes of a tree with an illegible translation behind those whose failures are `found`. -/
structure Broken (o : Options) (tree : Tree) (found : List Failure) (fault : Fault) : Prop where
  noted : ∀ before, (Namespace.collect (.of o.language o.capitalize) o.baseName tree).run before =
    .error fault
  strict : Namespace.strict (.of o.language o.capitalize) o.baseName tree =
    .error ((found.head?.map .failure).getD (.breakdown fault))
  rendered : o.fault? = none → render o tree = .error (.breakdown fault)

theorem reported {tree : Tree} (h : ∀ f ∈ failures tree, ¬ f.fault.breaks) (o : Options) :
    Reported o tree (failures tree) (.ofTree (.of o.language o.capitalize) o.baseName tree) where
  noted := by
    intro before
    rw [run_collect, unlessBroken, breakdown?_eq_none h]
  kept := inferred_ofTree _ _ tree
  strict := strict_eq _ _ tree
  rendered := by
    intro hvalid
    rw [render, hvalid]
    cases hfound : failures tree with
    | nil => rfl
    | cons first others =>
      rw [hfound] at h
      simp only [Source.refusal, breakdown?_eq_none h, renderedUnlessFailed]

theorem broken {tree : Tree} {found others : List Failure} {failure : Failure}
    (h : failures tree = found ++ failure :: others) (hfound : ∀ f ∈ found, ¬ f.fault.breaks)
    (hfailure : failure.fault.breaks) (o : Options) : Broken o tree found failure.fault where
  noted := by
    intro before
    rw [run_collect, unlessBroken, h, breakdown?_append_of_breaks hfound hfailure]
  strict := by
    rw [strict_eq, h]
    cases found with
    | nil => simp [unlessFailed, hfailure]
    | cons first found => simp [unlessFailed, hfound first List.mem_cons_self]
  rendered := by
    intro hvalid
    have hbreakdown : Failure.breakdown? (found ++ failure :: others) = some failure.fault :=
      breakdown?_append_of_breaks hfound hfailure
    rw [render, hvalid, h]
    cases found with
    | nil =>
      rw [List.nil_append] at hbreakdown
      simp only [List.nil_append, Source.refusal, hbreakdown]
    | cons first found =>
      rw [List.cons_append] at hbreakdown
      simp only [List.cons_append, Source.refusal, hbreakdown]

/-- Every translation at fault is reported once, in the order of the leaves, and the list is the same
for all languages and options; the other translations have their accessors, in the same order. Where a
number of a translation is too long to be read, the first such translation ends the walk instead. -/
theorem failures_reported_once (tree : Tree) :
    tree.inOrder.Perm (tree.leaves.map Prod.snd) ∧
    ((∀ entry ∈ tree.inOrder, Legible entry) →
      ∃ found, found = tree.inOrder.filterMap Failure.ofEntry? ∧
        (∀ f ∈ found, inferText f.translation = .error f.fault ∧ ¬ f.fault.breaks) ∧
        ∀ o : Options, ∃ root, Reported o tree found root) ∧
    ∀ before entry after digits, tree.inOrder = before ++ entry :: after →
      (∀ e ∈ before, Legible e) → specifiers entry.value = .error (.unread digits) →
        ∀ o : Options, Broken o tree (before.filterMap Failure.ofEntry?) (.unread digits) := by
  refine ⟨tree.inOrder_perm, fun hlegible => ?_, fun before entry after digits hsplit hbefore h o => ?_⟩
  · have hbreaks := not_breaks_of_legible hlegible
    rw [← failures_eq] at hbreaks
    refine ⟨_, failures_eq tree, fun f hf => ⟨?_, hbreaks f hf⟩, fun o => ⟨_, reported hbreaks o⟩⟩
    rw [failures_eq] at hf
    obtain ⟨entry, -, hentry⟩ := List.mem_filterMap.mp hf
    unfold Failure.ofEntry? at hentry
    split at hentry
    · cases hentry
    · rename_i fault hfault
      cases hentry
      exact hfault
  · exact broken (failures_of_illegible hsplit h) (not_breaks_of_legible hbefore) rfl o

/-- A leaf behind a group is reported before the one in it. -/
theorem leaf_reported_before_group :
    let tree : Tree :=
      .group "g" (.leaf "b" ⟨"g.b", "%2$d"⟩ .nil)
        (.leaf "a" ⟨"a", "%1$d %d"⟩ (.leaf "c" ⟨"c", "%d"⟩ .nil))
    let o : Options := { language := .objectiveC }
    o.fault? = none ∧
      render o tree = .error (.translations ⟨.mixed "%d", "a", "%1$d %d"⟩
        [⟨.sparse [1] 1, "g.b", "%2$d"⟩]) := by
  intro tree o
  have hvalid : o.fault? = none := by decide +kernel
  have hfailures : failures tree =
      [⟨.mixed "%d", "a", "%1$d %d"⟩, ⟨.sparse [1] 1, "g.b", "%2$d"⟩] := by decide +kernel
  have hlegible : ∀ entry ∈ tree.inOrder, Legible entry := by
    have hvalues : ∀ entry ∈ tree.inOrder, (specifiers entry.value).toBool := by decide +kernel
    intro entry hentry
    have hvalue := hvalues entry hentry
    unfold Legible
    cases hfound : specifiers entry.value with
    | ok found => exact ⟨found, rfl⟩
    | error fault =>
      rw [hfound] at hvalue
      cases hvalue
  obtain ⟨-, hreported, -⟩ := failures_reported_once tree
  obtain ⟨found, hfound, -, hall⟩ := hreported hlegible
  obtain ⟨root, h⟩ := hall o
  rw [← failures_eq, hfailures] at hfound
  rw [h.rendered hvalid, hfound]
  exact ⟨hvalid, rfl⟩

theorem broken_leaf {text : String} {digits : Nat} (h : specifiers text = .error (.unread digits))
    (o : Options) : Broken o (.leaf "a" ⟨"a", text⟩ .nil) [] (.unread digits) := by
  have hsplit : Tree.inOrder (.leaf "a" ⟨"a", text⟩ .nil) = [] ++ ⟨"a", text⟩ :: [] := by
    rw [Tree.inOrder_eq]
    rfl
  exact broken (failures_of_illegible hsplit h) (List.forall_mem_nil _) rfl o

/-- A translation whose width is too long has a fault of inference, and none is reported. -/
theorem illegible_translation_unreported :
    ∃ text, inferText text = .error (.unread 4301) ∧
      (Namespace.collect (.of .swift false) "Localizations"
        (.leaf "a" ⟨"a", text⟩ .nil)).run [] = .error (.unread 4301) ∧
      render {} (.leaf "a" ⟨"a", text⟩ .nil) = .error (.breakdown (.unread 4301)) := by
  have hspecifiers := Format.specifiers_longWidth
  generalize String.ofList ('%' :: Format.longWidth.chars) = text at hspecifiers
  have hvalid : ({} : Options).fault? = none := by decide +kernel
  have hbroken := broken_leaf hspecifiers {}
  refine ⟨text, ?_, hbroken.noted [], hbroken.rendered hvalid⟩
  rw [inferText, hspecifiers]
  rfl

end LocaleAccessors
