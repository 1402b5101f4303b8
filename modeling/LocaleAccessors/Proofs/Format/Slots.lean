import LocaleAccessors.Format.Slot
import Mathlib.Data.List.Sort

/-!
The slot map sums its uses. Its positions ascend and are those that were used, and each slot has the
type of all uses of its position, their roles and their groups.
-/

namespace LocaleAccessors.Format

namespace Roles

def Has (r : Roles) : Role → Prop
  | .value => r.value
  | .width => r.width
  | .precision => r.precision

@[simp] theorem has_insert {r : Roles} {a b : Role} : (r.insert a).Has b ↔ b = a ∨ r.Has b := by
  cases a <;> cases b <;> simp [insert, Has]

@[simp] theorem has_only {a b : Role} : (only a).Has b ↔ b = a := by
  rw [only, has_insert]
  cases b <;> simp [Has]

end Roles

@[simp] theorem mem_insertGroup {g group : Nat} {groups : List Nat} :
    g ∈ insertGroup group groups ↔ g = group ∨ g ∈ groups := by
  induction groups with
  | nil => simp [insertGroup]
  | cons k groups ih =>
    rw [insertGroup]
    split_ifs with hlt heq
    · simp
    · simp [heq]
    · simp only [List.mem_cons, ih]
      exact or_left_comm

theorem pairwise_insertGroup (group : Nat) {groups : List Nat} (h : groups.Pairwise (· < ·)) :
    (insertGroup group groups).Pairwise (· < ·) := by
  induction groups with
  | nil => exact List.pairwise_singleton _ _
  | cons k groups ih =>
    obtain ⟨hk, hgroups⟩ := List.pairwise_cons.mp h
    rw [insertGroup]
    split_ifs with hlt heq
    · refine List.pairwise_cons.mpr ⟨?_, h⟩
      rintro g (_ | ⟨_, hg⟩)
      · exact hlt
      · exact hlt.trans (hk g hg)
    · exact h
    · refine List.pairwise_cons.mpr ⟨fun g hg => ?_, ih hgroups⟩
      rcases mem_insertGroup.mp hg with rfl | hg
      · omega
      · exact hk g hg

structure Slot.Sums (slot : Slot) (uses : List Use) (position : Nat) : Prop where
  type : ∀ u ∈ uses, u.position = position → u.type = slot.type
  roles : ∀ r, slot.roles.Has r ↔ ∃ u ∈ uses, u.position = position ∧ u.role = r
  groups : ∀ g, g ∈ slot.groups ↔ ∃ u ∈ uses, u.position = position ∧ u.group = g
  ascending : slot.groups.Pairwise (· < ·)

structure SlotMap.Sums (slots : SlotMap) (uses : List Use) : Prop where
  ascending : (slots.map Prod.fst).Pairwise (· < ·)
  used : ∀ p, p ∈ slots.map Prod.fst ↔ ∃ u ∈ uses, u.position = p
  sums : ∀ e ∈ slots, e.2.Sums uses e.1

namespace Slot.Sums
variable {slot : Slot} {uses : List Use} {use : Use}

theorem first (h : ∀ u ∈ uses, u.position ≠ use.position) :
    use.slot.Sums (uses ++ [use]) use.position where
  type := by
    intro u hu hp
    cases List.mem_append.mp hu with
    | inl hu => exact absurd hp (h u hu)
    | inr hu =>
      rw [List.mem_singleton.mp hu]
      rfl
  roles := by
    intro r
    simp only [Use.slot, Slot.single, Roles.has_only, List.mem_append, List.mem_singleton]
    grind
  groups := by
    intro g
    simp only [Use.slot, Slot.single, List.mem_append, List.mem_singleton]
    grind
  ascending := List.pairwise_singleton _ _

theorem add (h : slot.Sums uses use.position) (ht : slot.type = use.type) :
    (slot.add use).Sums (uses ++ [use]) use.position where
  type := by
    intro u hu hp
    cases List.mem_append.mp hu with
    | inl hu => exact h.type u hu hp
    | inr hu =>
      rw [List.mem_singleton.mp hu]
      exact ht.symm
  roles := by
    intro r
    simp only [Slot.add, Roles.has_insert, h.roles, List.mem_append, List.mem_singleton]
    grind
  groups := by
    intro g
    simp only [Slot.add, mem_insertGroup, h.groups, List.mem_append, List.mem_singleton]
    grind
  ascending := pairwise_insertGroup _ h.ascending

theorem other {position : Nat} (h : slot.Sums uses position) (hp : position ≠ use.position) :
    slot.Sums (uses ++ [use]) position where
  type := by
    intro u hu hpu
    cases List.mem_append.mp hu with
    | inl hu => exact h.type u hu hpu
    | inr hu =>
      rw [List.mem_singleton.mp hu] at hpu
      exact absurd hpu.symm hp
  roles := by
    intro r
    simp only [h.roles, List.mem_append, List.mem_singleton]
    grind
  groups := by
    intro g
    simp only [h.groups, List.mem_append, List.mem_singleton]
    grind
  ascending := h.ascending

end Slot.Sums

namespace SlotMap
variable {slots : SlotMap} {uses : List Use}

/-- A use of a position finds its place among the slots, which is a new one or the one that the
position has, or it has another type than the slot of its position. -/
theorem add_cases (use : Use) (h : (slots.map Prod.fst).Pairwise (· < ·)) :
    (∃ (before after : SlotMap) (slot : Slot),
      slots.add use = .ok (before ++ (use.position, slot) :: after) ∧
      (∀ e ∈ before, e.1 < use.position) ∧ (∀ e ∈ after, use.position < e.1) ∧
      (slots = before ++ after ∧ slot = use.slot ∨
        ∃ old : Slot, slots = before ++ (use.position, old) :: after ∧ old.type = use.type ∧
          slot = old.add use)) ∨
    ∃ slot, (use.position, slot) ∈ slots ∧ slot.type ≠ use.type ∧
      slots.add use = .error (.conflicting use.position slot.type use.type) := by
  induction slots with
  | nil => exact .inl ⟨[], [], use.slot, rfl, by simp, by simp, .inl ⟨rfl, rfl⟩⟩
  | cons e slots ih =>
    obtain ⟨position, slot⟩ := e
    obtain ⟨hfirst, hslots⟩ := List.pairwise_cons.mp h
    have hafter : ∀ e ∈ slots, position < e.1 := fun e he => hfirst _ (List.mem_map_of_mem he)
    rw [SlotMap.add]
    split_ifs with hlt heq htype
    · refine .inl ⟨[], (position, slot) :: slots, use.slot, rfl, by simp, ?_, .inl ⟨rfl, rfl⟩⟩
      exact List.forall_mem_cons.mpr ⟨hlt, fun e he => hlt.trans (hafter e he)⟩
    · subst heq
      exact .inl ⟨[], slots, slot.add use, rfl, by simp, hafter, .inr ⟨slot, rfl, htype, rfl⟩⟩
    · subst heq
      exact .inr ⟨slot, List.mem_cons_self, htype, rfl⟩
    · have hbefore : position < use.position := by omega
      rcases ih hslots with ⟨before, after, s, hadd, hb, ha, hcases⟩ | ⟨s, hmem, htype, hadd⟩
      · refine .inl ⟨(position, slot) :: before, after, s, ?_, ?_, ha, ?_⟩
        · rw [hadd]
          rfl
        · exact List.forall_mem_cons.mpr ⟨hbefore, hb⟩
        · rcases hcases with ⟨rfl, hs⟩ | ⟨old, rfl, htype, hs⟩
          · exact .inl ⟨rfl, hs⟩
          · exact .inr ⟨old, rfl, htype, hs⟩
      · refine .inr ⟨s, List.mem_cons_of_mem _ hmem, htype, ?_⟩
        rw [hadd]
        rfl

theorem Sums.nil : Sums [] [] where
  ascending := .nil
  used := by simp
  sums := List.forall_mem_nil _

theorem Sums.exists_use (h : slots.Sums uses) {position : Nat} {slot : Slot}
    (hmem : (position, slot) ∈ slots) :
    ∃ u ∈ uses, u.position = position ∧ u.type = slot.type := by
  obtain ⟨u, hu, hp⟩ := (h.used position).mp (List.mem_map_of_mem (f := Prod.fst) hmem)
  exact ⟨u, hu, hp, (h.sums _ hmem).type u hu hp⟩

theorem ne_of_mem_around {position : Nat} {before after : SlotMap}
    (hbefore : ∀ e ∈ before, e.1 < position) (hafter : ∀ e ∈ after, position < e.1)
    {e : Nat × Slot} (he : e ∈ before ++ after) : e.1 ≠ position := by
  cases List.mem_append.mp he with
  | inl hb => exact (hbefore e hb).ne
  | inr ha => exact (hafter e ha).ne'

theorem Sums.place {use : Use} {before after : SlotMap} {slot : Slot}
    (h : ((before ++ after).map Prod.fst).Pairwise (· < ·))
    (hbefore : ∀ e ∈ before, e.1 < use.position) (hafter : ∀ e ∈ after, use.position < e.1)
    (hused : ∀ p, p = use.position ∨ p ∈ (before ++ after).map Prod.fst ↔
      p = use.position ∨ ∃ u ∈ uses, u.position = p)
    (hsums : ∀ e ∈ before ++ after, e.2.Sums uses e.1)
    (hslot : slot.Sums (uses ++ [use]) use.position) :
    SlotMap.Sums (before ++ (use.position, slot) :: after) (uses ++ [use]) where
  ascending := by
    rw [List.map_append, List.pairwise_append] at h
    obtain ⟨hb, ha, hba⟩ := h
    rw [List.map_append, List.map_cons, List.pairwise_append, List.pairwise_cons]
    refine ⟨hb, ⟨?_, ha⟩, ?_⟩
    · simpa using hafter
    · intro p hp q hq
      rcases List.mem_cons.mp hq with rfl | hq
      · obtain ⟨e, he, rfl⟩ := List.mem_map.mp hp
        exact hbefore e he
      · exact hba p hp q hq
  used := by
    intro p
    have hp := hused p
    simp only [List.map_append, List.map_cons, List.mem_append, List.mem_cons] at hp ⊢
    grind
  sums := by
    intro e he
    have hmem : e = (use.position, slot) ∨ e ∈ before ++ after := by
      simp only [List.mem_append, List.mem_cons] at he ⊢
      tauto
    rcases hmem with rfl | hmem
    · exact hslot
    · exact (hsums e hmem).other (ne_of_mem_around hbefore hafter hmem)

theorem Sums.add (h : slots.Sums uses) (use : Use) :
    (∃ out, slots.add use = .ok out ∧ out.Sums (uses ++ [use])) ∨
    ∃ v ∈ uses, v.position = use.position ∧ v.type ≠ use.type ∧
      slots.add use = .error (.conflicting use.position v.type use.type) := by
  rcases add_cases use h.ascending with
    ⟨before, after, slot, hadd, hbefore, hafter, hcases⟩ | ⟨slot, hmem, htype, hadd⟩
  · refine .inl ⟨_, hadd, ?_⟩
    rcases hcases with ⟨rfl, rfl⟩ | ⟨old, rfl, htype, rfl⟩
    · have hnew : ∀ u ∈ uses, u.position ≠ use.position := by
        intro u hu hp
        obtain ⟨e, he, heq⟩ := List.mem_map.mp ((h.used _).mpr ⟨u, hu, hp⟩)
        exact ne_of_mem_around hbefore hafter he heq
      exact .place h.ascending hbefore hafter (fun p => or_congr_right (h.used p)) h.sums (.first hnew)
    · have hsub : (before ++ after).Sublist (before ++ (use.position, old) :: after) := by simp
      refine .place (h.ascending.sublist (hsub.map _)) hbefore hafter (fun p => ?_)
        (fun e he => h.sums e (hsub.subset he)) ((h.sums (use.position, old) (by simp)).add htype)
      rw [← h.used p]
      simp only [List.map_append, List.map_cons, List.mem_append, List.mem_cons]
      tauto
  · obtain ⟨v, hv, hposition, hvtype⟩ := h.exists_use hmem
    rw [← hvtype] at htype hadd
    exact .inr ⟨v, hv, hposition, htype, hadd⟩

end SlotMap

def Agree (uses : List Use) : Prop :=
  ∀ u ∈ uses, ∀ v ∈ uses, u.position = v.position → u.type = v.type

/-- An item that cannot be taken after some uses, and what is wrong with it. -/
inductive Offence (taken : List Use) : Except Fault Use → Fault → Prop where
  | fault (fault : Fault) : Offence taken (.error fault) fault
  | conflict {u v : Use} : v ∈ taken → v.position = u.position → v.type ≠ u.type →
      Offence taken (.ok u) (.conflicting u.position v.type u.type)

namespace SlotMap
variable {slots : SlotMap} {uses : List Use}

theorem Sums.agree (h : slots.Sums uses) : Agree uses := by
  intro u hu v hv hp
  obtain ⟨e, he, heq⟩ := List.mem_map.mp ((h.used _).mpr ⟨u, hu, rfl⟩)
  have htype := (h.sums e he).type
  rw [htype u hu heq.symm, htype v hv (hp.symm.trans heq.symm)]

theorem addAll_ok (use : Use) (items : List (Except Fault Use)) :
    slots.addAll (.ok use :: items) = (slots.add use).bind fun next => next.addAll items :=
  rfl

/-- A run sums all its uses, or it stops at the first item that cannot be taken after those before
it. -/
theorem Sums.addAll (h : slots.Sums uses) (items : List (Except Fault Use)) :
    (∃ more out, items = more.map .ok ∧ slots.addAll items = .ok out ∧ out.Sums (uses ++ more)) ∨
    ∃ more item rest fault, items = more.map .ok ++ item :: rest ∧ Agree (uses ++ more) ∧
      Offence (uses ++ more) item fault ∧ slots.addAll items = .error fault := by
  induction items generalizing slots uses with
  | nil => exact .inl ⟨[], slots, rfl, rfl, by rwa [List.append_nil]⟩
  | cons item items ih =>
    cases item with
    | error fault =>
      refine .inr ⟨[], .error fault, items, fault, rfl, ?_, .fault fault, rfl⟩
      rw [List.append_nil]
      exact h.agree
    | ok use =>
      rw [addAll_ok]
      rcases h.add use with ⟨next, hadd, hnext⟩ | ⟨v, hv, hposition, htype, hadd⟩
      · rw [hadd, Except.bind]
        rcases ih hnext with ⟨more, out, rfl, hall, hsums⟩ |
          ⟨more, item, rest, fault, rfl, hagree, hfault, hall⟩
        · rw [← List.append_cons] at hsums
          exact .inl ⟨use :: more, out, rfl, hall, hsums⟩
        · rw [← List.append_cons] at hagree hfault
          exact .inr ⟨use :: more, item, rest, fault, rfl, hagree, hfault, hall⟩
      · rw [hadd, Except.bind]
        refine .inr ⟨[], .ok use, items, _, rfl, ?_, ?_, rfl⟩
        · rw [List.append_nil]
          exact h.agree
        · exact .conflict (List.mem_append_left _ hv) hposition htype

end SlotMap

end LocaleAccessors.Format
