import LocaleAccessors.Proofs.Source.ObjectiveC.Agreement

/-!
The names of classes tell the namespaces apart. A class is named after its path unless an earlier class
has that name already, and exactly the classes that are named otherwise are reported.
-/

namespace LocaleAccessors.Source.ObjectiveC
open Name (distinctName distinctName_cases distinctName_not_mem)

def nameEach (taken : List String) : List String → List String
  | [] => []
  | candidate :: others =>
    let name := distinctName candidate taken
    name :: nameEach (name :: taken) others

theorem length_nameEach (taken candidates : List String) :
    (nameEach taken candidates).length = candidates.length := by
  induction candidates generalizing taken with
  | nil => rfl
  | cons candidate others ih => rw [nameEach, List.length_cons, ih, List.length_cons]

theorem nameEach_append (taken first second : List String) :
    nameEach taken (first ++ second) =
      nameEach taken first ++ nameEach ((nameEach taken first).reverse ++ taken) second := by
  induction first generalizing taken with
  | nil => rfl
  | cons candidate others ih => simp [nameEach, ih]

def plainName (stem : String) (path : List String) : String :=
  stem ++ String.join path

theorem plainName_cons (stem name : String) (path : List String) :
    plainName stem (name :: path) = plainName (stem ++ name) path := by
  rw [plainName, String.join_cons, ← String.append_assoc]
  rfl

theorem map_plainName_paths (stem name : String) (accessors : List Accessor)
    (inner siblings : Namespaces) :
    (Namespaces.cons name accessors inner siblings).paths.map (plainName stem) =
      (stem ++ name) :: (inner.paths.map (plainName (stem ++ name)) ++
        siblings.paths.map (plainName stem)) := by
  have hname : plainName stem [name] = stem ++ name := by simp [plainName]
  have hinner : plainName stem ∘ (name :: ·) = plainName (stem ++ name) :=
    funext (plainName_cons stem name)
  rw [Namespaces.paths, List.cons_append, List.map_cons, List.map_append, List.map_map, hname, hinner]

theorem nameClasses_eq (stem : String) (taken : List String) (ns : Namespaces) :
    (nameClasses stem taken ns).1.names = nameEach taken (ns.paths.map (plainName stem)) ∧
      (nameClasses stem taken ns).2 = (nameClasses stem taken ns).1.names.reverse ++ taken := by
  induction ns generalizing stem taken with
  | nil => exact ⟨rfl, rfl⟩
  | cons name accessors inner siblings ihinner ihsiblings =>
    obtain ⟨hinner, htaken⟩ := ihinner (stem ++ name) (distinctName (stem ++ name) taken :: taken)
    obtain ⟨hsiblings, hlast⟩ := ihsiblings stem
      (nameClasses (stem ++ name) (distinctName (stem ++ name) taken :: taken) inner).2
    refine ⟨?_, ?_⟩
    · rw [map_plainName_paths, nameEach, nameEach_append, ← hinner, ← htaken, ← hsiblings]
      rfl
    · rw [nameClasses, hlast, htaken]
      simp [Classes.names]

def renamed (named : List (String × String)) : List Renaming :=
  (named.filter fun e => e.2 ≠ e.1).map fun e => ⟨e.1, e.2⟩

theorem renamings_eq (stem : String) (taken : List String) (ns : Namespaces) :
    (nameClasses stem taken ns).1.renamings stem =
      renamed ((ns.paths.map (plainName stem)).zip (nameClasses stem taken ns).1.names) := by
  induction ns generalizing stem taken with
  | nil => rfl
  | cons name accessors inner siblings ihinner ihsiblings =>
    have hlength : (inner.paths.map (plainName (stem ++ name))).length =
        (nameClasses (stem ++ name) (distinctName (stem ++ name) taken :: taken) inner).1.names.length := by
      rw [(nameClasses_eq _ _ inner).1, length_nameEach]
    rw [map_plainName_paths]
    simp only [nameClasses, Classes.renamings, Classes.names, ihinner, ihsiblings,
      List.zip_cons_cons, List.zip_append hlength, renamed, List.filter_cons, List.filter_append]
    by_cases hname : distinctName (stem ++ name) taken = stem ++ name <;> simp [hname]

theorem eq_distinctName_of_zip {plain : List String → String} {paths : List (List String)}
    {taken : List String} {before after : List (List String × String)} {path : List String}
    {name : String}
    (h : paths.zip (nameEach taken (paths.map plain)) = before ++ (path, name) :: after) :
    name = distinctName (plain path) ((before.map Prod.snd).reverse ++ taken) := by
  induction paths generalizing taken before with
  | nil => simp [nameEach] at h
  | cons first paths ih =>
    rw [List.map_cons, nameEach, List.zip_cons_cons] at h
    cases before with
    | nil =>
      cases h
      rfl
    | cons e before =>
      rw [List.cons_append, List.cons.injEq] at h
      obtain ⟨rfl, hrest⟩ := h
      simpa using ih hrest

theorem distinctName_ne_iff {candidate : String} {taken : List String} :
    distinctName candidate taken ≠ candidate ↔ candidate ∈ taken := by
  obtain ⟨hfree, heq⟩ | ⟨htaken, k, -, heq, hfree, -⟩ := distinctName_cases candidate taken
  · simp [heq, hfree]
  · refine iff_of_true (fun hsame => ?_) htaken
    rw [← heq, hsame] at hfree
    exact hfree htaken

section table
variable {root : Namespace}

theorem names_classesOf (root : Namespace) : (classesOf root).names =
    nameEach [] (root.paths.map (plainName ("_" ++ root.name))) := by
  rw [classesOf, (nameClasses_eq _ _ _).1, map_plainName_paths]
  simp [Namespaces.paths, Namespace.paths, plainName]

theorem renamings_classesOf (root : Namespace) : renamings root =
    renamed ((root.paths.map (plainName ("_" ++ root.name))).zip (classesOf root).names) := by
  rw [renamings, classesOf, renamings_eq, map_plainName_paths]
  simp [Namespaces.paths, Namespace.paths, plainName]

theorem length_names_classesOf (root : Namespace) :
    (classesOf root).names.length = root.paths.length := by
  rw [names_classesOf, length_nameEach, List.length_map]

theorem map_fst_classNames (root : Namespace) :
    (classNames root).map Prod.fst = root.paths :=
  List.map_fst_zip (Nat.le_of_eq (length_names_classesOf root).symm)

theorem map_snd_classNames (root : Namespace) :
    (classNames root).map Prod.snd = (classesOf root).names :=
  List.map_snd_zip (Nat.le_of_eq (length_names_classesOf root))

theorem lookup_classNames (hpaths : root.paths.Nodup) {e : List String × ClassModel}
    (he : e ∈ (classesOf root).located true) :
    (classNames root).lookup e.1.tail = some e.2.name := by
  have htable : classNames root =
      ((classesOf root).located true).map fun e => (e.1.tail, e.2.name) := by
    rw [classNames, ← map_path_classesOf, ← Classes.map_name_located true, List.zip_map']
  refine lookup_of_mem ?_ (htable ▸ List.mem_map_of_mem he)
  rwa [map_fst_classNames]

/-- One class for each namespace. Its name is no other's, and it is the plain one unless an earlier
class has that. Whatever class is written, and whatever its getters return, is in the table. -/
structure ClassesNamed (root : Namespace) : Prop where
  paths : (classNames root).map Prod.fst = root.paths
  once : ((classNames root).map Prod.fst).Nodup
  distinct : ((classNames root).map Prod.snd).Nodup
  renamed_iff : ∀ before path name after, classNames root = before ++ (path, name) :: after →
    (name ≠ plainName ("_" ++ root.name) path ↔
      plainName ("_" ++ root.name) path ∈ before.map Prod.snd)
  found : ∀ c ∈ (classesOf root).models true, ∃ path,
    (classNames root).lookup path = some c.name ∧
      ∀ g ∈ c.children, (classNames root).lookup (path ++ [g.name]) = some g.className

theorem classesNamed (hpaths : root.paths.Nodup) : ClassesNamed root where
  paths := map_fst_classNames root
  once := by rwa [map_fst_classNames]
  distinct := by
    rw [map_snd_classNames]
    exact nodup_names _ _ _
  renamed_iff := by
    intro before path name after htable
    rw [classNames, names_classesOf] at htable
    rw [eq_distinctName_of_zip htable, distinctName_ne_iff, List.append_nil, List.mem_reverse]
  found := by
    intro c hc
    obtain ⟨e, he, rfl⟩ := List.mem_map.mp ((Classes.models_perm_located true _).subset hc)
    refine ⟨e.1.tail, lookup_classNames hpaths he, fun g hg => ?_⟩
    obtain ⟨f, hf, hpath, hname⟩ := Classes.exists_located_of_mem_children he hg
    rw [← List.tail_append_of_ne_nil (Classes.ne_nil_of_mem_located he), ← hpath, ← hname]
    exact lookup_classNames hpaths hf

end table

/-- The classes of a tree are told apart by their names, there are as many as groups, and a warning is
recorded for exactly those that are not named plainly. -/
theorem classes_told_apart (o : Options) (tree : Key.Tree) :
    let objectiveC : Options := { o with language := .objectiveC }
    let root := namespaceOf objectiveC tree
    ClassesNamed root ∧ (classNames root).length = tree.groupCount ∧
      renamingRecords objectiveC tree =
        ((classNames root).filter fun e => e.2 ≠ plainName ("_" ++ o.baseName) e.1).map fun e =>
          ⟨.warning, .classes, (Renaming.mk (plainName ("_" ++ o.baseName) e.1) e.2).text⟩ := by
  intro objectiveC root
  refine ⟨classesNamed (paths_nodup_ofTree _ _ tree), ?_, ?_⟩
  · have hlength := congrArg List.length (map_fst_classNames root)
    rw [List.length_map, ← Namespace.map_fst_located, List.length_map] at hlength
    rw [hlength, length_located_namespaceOf]
  · have hrenamings := renamings_classesOf root
    rw [List.zip_map_left, renamed, List.filter_map, List.map_map] at hrenamings
    have hrecords : renamingRecords objectiveC tree =
        (renamings root).map fun r => ⟨.warning, .classes, r.text⟩ := rfl
    rw [hrecords, hrenamings, List.map_map]
    rfl

/-- Two paths that read the same when put together, and one that reads like the name that the second
of them got. -/
example :
    classNames ⟨"L", [], .cons "ab" [] (.cons "c" [] .nil .nil) (.cons "a" []
      (.cons "bc" [] .nil (.cons "bc_2" [] .nil .nil)) .nil)⟩ =
      [([], "_L"), (["ab"], "_Lab"), (["ab", "c"], "_Labc"), (["a"], "_La"),
        (["a", "bc"], "_Labc_2"), (["a", "bc_2"], "_Labc_2_2")] := by
  decide +kernel

end LocaleAccessors.Source.ObjectiveC
