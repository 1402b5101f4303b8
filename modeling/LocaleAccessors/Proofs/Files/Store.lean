import LocaleAccessors.Files.Store
import LocaleAccessors.Proofs.Result
import Mathlib.Tactic.SplitIfs

/-!
What a store holds after one node is put or removed, and where paths lead in two stores that have
directories in common.
-/

namespace LocaleAccessors.Files

/-- One part further on from a place where a directory is. -/
def Location.next (l : Location) (part : String) : Location :=
  if part = ".." then l.tail else part :: l

/-- Where a path leads, if it leads anywhere. -/
def Path.place (p : Path) (working : Location) : Location :=
  p.parts.foldl Location.next (match p.root with
    | .relative => working
    | _ => [])

namespace Store
variable {s s' t : Store} {l m : Location} {node : Node} {p : Path}

def file? (s : Store) (l : Location) : Option (List UInt8) :=
  match s.node? l with
  | some (.file bytes) => some bytes
  | _ => none

theorem file?_eq_some_iff {bytes : List UInt8} :
    s.file? l = some bytes ↔ s.node? l = some (.file bytes) := by
  unfold file?
  split <;> simp_all

theorem file?_of_node?_none (h : s.node? l = none) : s.file? l = none := by
  simp [file?, h]

theorem not_directory_of_file? {bytes : List UInt8} (h : s.file? l = some bytes) :
    s.node? l ≠ some .directory := by
  rw [file?_eq_some_iff] at h
  simp [h]

theorem node?_nil (s : Store) : s.node? [] = some .directory :=
  rfl

theorem ne_nil_of_not_directory (h : s.node? l ≠ some .directory) : l ≠ [] := by
  intro hl
  apply h
  rw [hl, node?_nil]

theorem ne_nil_of_free (h : s.node? l = none) : l ≠ [] := by
  intro hl
  rw [hl, node?_nil] at h
  cases h

theorem lookup_filter_ne (nodes : List (Location × Node)) (h : m ≠ l) :
    (nodes.filter (·.1 ≠ l)).lookup m = nodes.lookup m := by
  induction nodes with
  | nil => rfl
  | cons entry nodes ih =>
    obtain ⟨k, found⟩ := entry
    by_cases hk : k = l
    · have hm : (m == k) = false := by simpa [hk] using h
      rw [List.filter_cons_of_neg (by simp [hk]), ih, List.lookup_cons, hm]
    · rw [List.filter_cons_of_pos (by simp [hk]), List.lookup_cons, List.lookup_cons, ih]

theorem lookup_filter_self (nodes : List (Location × Node)) (l : Location) :
    (nodes.filter (·.1 ≠ l)).lookup l = none := by
  rw [List.lookup_eq_none_iff]
  intro entry h
  have hne : entry.1 ≠ l := of_decide_eq_true (List.mem_filter.mp h).2
  exact bne_iff_ne.mpr hne.symm

theorem node?_put (hl : l ≠ []) :
    (s.put l node).node? m = if m = l then some node else s.node? m := by
  by_cases hm : m = l
  · subst hm
    simp [node?, put, hl]
  · have hb : (m == l) = false := by simpa using hm
    rw [if_neg hm, node?, node?, put, List.lookup_cons, hb, lookup_filter_ne _ hm]

theorem node?_remove (hl : l ≠ []) :
    (s.remove l).node? m = if m = l then none else s.node? m := by
  by_cases hm : m = l
  · subst hm
    rw [if_pos rfl, node?, if_neg hl, remove, lookup_filter_self]
  · rw [if_neg hm, node?, node?, remove, lookup_filter_ne _ hm]

theorem file?_put {bytes : List UInt8} (hl : l ≠ []) :
    (s.put l (.file bytes)).file? m = if m = l then some bytes else s.file? m := by
  unfold file?
  rw [node?_put hl]
  split_ifs <;> rfl

theorem file?_remove (hl : l ≠ []) : (s.remove l).file? m = if m = l then none else s.file? m := by
  unfold file?
  rw [node?_remove hl]
  split_ifs <;> rfl

structure Keeps (s s' : Store) : Prop where
  working : s'.working = s.working
  machine : s'.machine = s.machine
  directory : ∀ l, s.node? l = some .directory → s'.node? l = some .directory

theorem Keeps.refl (s : Store) : Keeps s s :=
  ⟨rfl, rfl, fun _ h => h⟩

theorem Keeps.trans (h : Keeps s s') (h' : Keeps s' t) : Keeps s t :=
  ⟨h'.working.trans h.working, h'.machine.trans h.machine,
    fun l hl => h'.directory l (h.directory l hl)⟩

theorem Keeps.refused? (h : Keeps s s') (call : Call) : s'.refused? call = s.refused? call := by
  rw [Store.refused?, Store.refused?, h.machine]

theorem follow_eq_ok_iff {part : String} :
    s.follow l part = .ok m ↔ s.node? l = some .directory ∧
      (part = ".." ∧ m = l.tail ∨
        part ≠ ".." ∧ s.machine.size part ≤ maxName ∧ m = part :: l) := by
  unfold follow
  split
  · simp [*]
  · simp [*]
  · by_cases hup : part = ".."
    · simp [*, eq_comm]
    · by_cases hlong : maxName < s.machine.size part
      · have hnot : ¬ s.machine.size part ≤ maxName := by omega
        simp [*]
      · have hle : s.machine.size part ≤ maxName := by omega
        simp [*, eq_comm]

theorem Keeps.follow {part : String} (h : Keeps s s') (hf : s.follow l part = .ok m) :
    s'.follow l part = .ok m := by
  rw [follow_eq_ok_iff, h.machine]
  rw [follow_eq_ok_iff] at hf
  exact ⟨h.directory l hf.1, hf.2⟩

theorem Keeps.followAll {parts : List String} (h : Keeps s s')
    (hf : parts.foldlM s.follow l = .ok m) : parts.foldlM s'.follow l = .ok m := by
  induction parts generalizing l with
  | nil => exact hf
  | cons part parts ih =>
    rw [List.foldlM_cons, bind_eq_ok_iff] at hf ⊢
    obtain ⟨next, hnext, hf⟩ := hf
    exact ⟨next, h.follow hnext, ih hf⟩

theorem Keeps.locate (h : Keeps s s') (hp : s.locate p = .ok l) : s'.locate p = .ok l := by
  unfold Store.locate at hp ⊢
  rw [h.machine]
  split_ifs at hp ⊢
  rw [h.working]
  exact h.followAll hp

structure SameDirectories (s s' : Store) : Prop where
  working : s'.working = s.working
  machine : s'.machine = s.machine
  directory_iff : ∀ l, s'.node? l = some .directory ↔ s.node? l = some .directory

namespace SameDirectories

theorem refl (s : Store) : SameDirectories s s :=
  ⟨rfl, rfl, fun _ => Iff.rfl⟩

theorem symm (h : SameDirectories s s') : SameDirectories s' s :=
  ⟨h.working.symm, h.machine.symm, fun l => (h.directory_iff l).symm⟩

theorem trans (h : SameDirectories s s') (h' : SameDirectories s' t) : SameDirectories s t :=
  ⟨h'.working.trans h.working, h'.machine.trans h.machine,
    fun l => (h'.directory_iff l).trans (h.directory_iff l)⟩

theorem keeps (h : SameDirectories s s') : Keeps s s' :=
  ⟨h.working, h.machine, fun l => (h.directory_iff l).mpr⟩

theorem of_keeps (h : Keeps s s') (h' : Keeps s' s) : SameDirectories s s' :=
  ⟨h.working, h.machine, fun l => ⟨h'.directory l, h.directory l⟩⟩

theorem locate_iff (h : SameDirectories s s') : s'.locate p = .ok l ↔ s.locate p = .ok l :=
  ⟨h.symm.keeps.locate, h.keeps.locate⟩

theorem put_file {bytes : List UInt8} (hl : s.node? l ≠ some .directory) :
    SameDirectories s (s.put l (.file bytes)) := by
  refine ⟨rfl, rfl, fun m => ?_⟩
  rw [node?_put (ne_nil_of_not_directory hl)]
  by_cases hm : m = l
  · simp [hm, hl]
  · simp [hm]

theorem remove (hl : s.node? l ≠ some .directory) : SameDirectories s (s.remove l) := by
  refine ⟨rfl, rfl, fun m => ?_⟩
  rw [node?_remove (ne_nil_of_not_directory hl)]
  by_cases hm : m = l
  · simp [hm, hl]
  · simp [hm]

end SameDirectories

theorem find_of_locate (hp : s.locate p = .ok l) :
    s.find p = match s.node? l with
      | some node => .ok node
      | none => .error .notFound := by
  unfold Store.find
  rw [hp]
  rfl

theorem find_eq_ok_iff : s.find p = .ok node ↔ ∃ l, s.locate p = .ok l ∧ s.node? l = some node := by
  constructor
  · intro h
    obtain ⟨l, hl, -⟩ := bind_eq_ok_iff.mp h
    rw [find_of_locate hl] at h
    refine ⟨l, hl, ?_⟩
    split at h
    · next hnode =>
      cases h
      exact hnode
    · cases h
  · rintro ⟨l, hl, hnode⟩
    rw [find_of_locate hl, hnode]

theorem next_of_follow {part : String} (h : s.follow l part = .ok m) : m = l.next part := by
  obtain ⟨-, ⟨rfl, rfl⟩ | ⟨hup, -, rfl⟩⟩ := follow_eq_ok_iff.mp h
  · rfl
  · rw [Location.next, if_neg hup]

theorem foldl_next_of_followAll {parts : List String} (h : parts.foldlM s.follow l = .ok m) :
    m = parts.foldl Location.next l := by
  induction parts generalizing l with
  | nil =>
    cases h
    rfl
  | cons part parts ih =>
    rw [List.foldlM_cons, bind_eq_ok_iff] at h
    obtain ⟨next, hnext, h⟩ := h
    rw [List.foldl_cons, ← next_of_follow hnext]
    exact ih h

theorem place_of_locate (hp : s.locate p = .ok l) : l = p.place s.working := by
  unfold locate at hp
  split_ifs at hp
  exact foldl_next_of_followAll hp

theorem look_eq_ok_some_iff :
    s.look p = .ok (some (l, node)) ↔
      s.refused? (.look p) = none ∧ s.locate p = .ok l ∧ s.node? l = some node := by
  unfold look
  cases hlocate : s.locate p with
  | error fault => cases fault <;> cases s.refused? (.look p) <;> simp
  | ok m =>
    cases hrefused : s.refused? (.look p) with
    | some fault => simp
    | none =>
      simp only [Except.ok.injEq, Option.map_eq_some_iff, Prod.mk.injEq, true_and]
      constructor
      · rintro ⟨_, hnode, rfl, rfl⟩
        exact ⟨rfl, hnode⟩
      · rintro ⟨rfl, hnode⟩
        exact ⟨node, hnode, rfl, rfl⟩

theorem node?_of_look_none (h : s.look p = .ok none) (hp : s.locate p = .ok l) :
    s.node? l = none := by
  unfold look at h
  rw [hp] at h
  cases hrefused : s.refused? (.look p) with
  | some fault =>
    rw [hrefused] at h
    cases h
  | none => simpa [hrefused] using h

/-- The system lets a file be looked at and read. -/
structure Readable (s : Store) (p : Path) : Prop where
  look : s.machine.refuses (.look p) = none
  read : s.machine.refuses (.read p) = none

theorem look_of_bytes {bytes : List UInt8} (hread : s.Readable p) (h : s.bytes p = .ok bytes) :
    ∃ l, s.look p = .ok (some (l, .file bytes)) := by
  obtain ⟨node, hfind, hnode⟩ := bind_eq_ok_iff.mp h
  obtain ⟨l, hl, hat⟩ := find_eq_ok_iff.mp hfind
  cases node with
  | directory => cases hnode
  | file found =>
    cases hnode
    exact ⟨l, look_eq_ok_some_iff.mpr ⟨by rw [refused?, hread.look]; rfl, hl, hat⟩⟩

end Store
end LocaleAccessors.Files
