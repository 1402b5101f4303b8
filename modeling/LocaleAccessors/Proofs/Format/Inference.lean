import LocaleAccessors.Format.Inference
import LocaleAccessors.Proofs.Format.Marks
import LocaleAccessors.Proofs.Format.Positions
import LocaleAccessors.Proofs.Format.Slots
import LocaleAccessors.Proofs.Format.Uses

/-!
Inference takes the consistent specifiers and no others. Its arguments stand in order, and each has
the type, the roles and the groups of its uses.
-/

namespace LocaleAccessors.Format

def Argument.slot (a : Argument) : Slot :=
  ⟨a.type, a.roles, a.groups⟩

/-- What the slot of a position says about the specifiers that take it. -/
structure Slot.Gathers (slot : Slot) (found : List Specifier) (position : Nat) : Prop where
  type : ∀ s ∈ found, ∀ {type role}, s.Takes position type role → type = slot.type
  roles : ∀ role, slot.roles.Has role ↔ ∃ s ∈ found, ∃ type, s.Takes position type role
  groups : ∀ group, group ∈ slot.groups ↔
    ∃ s ∈ found, s.position = some group ∧ ∃ type role, s.Takes position type role
  ascending : slot.groups.Pairwise (· < ·)

theorem length_nameSlots (bases : List String) (position : Nat) (taken names : List String) :
    (nameSlots bases position taken names).length = names.length := by
  induction names generalizing position taken with
  | nil => rfl
  | cons base names ih => simp only [nameSlots, List.length_cons, ih]

theorem length_parameterNames (groupCount : Nat) (slots : List Slot) :
    (parameterNames groupCount slots).length = slots.length := by
  simp only [parameterNames, length_nameSlots, List.length_map]

theorem argumentsFrom_spec {slots : List Slot} {names : List String}
    (h : names.length = slots.length) (position : Nat) :
    (argumentsFrom position slots names).map Argument.position =
        List.range' position slots.length ∧
      (argumentsFrom position slots names).map Argument.slot = slots := by
  induction slots generalizing names position with
  | nil => simp [argumentsFrom]
  | cons slot slots ih =>
    obtain ⟨name, names, rfl⟩ := List.exists_cons_of_length_eq_add_one h
    obtain ⟨hposition, hslot⟩ := ih (Nat.succ.inj h) (position + 1)
    rw [argumentsFrom, List.map_cons, List.map_cons, hposition, hslot, List.length_cons,
      List.range'_succ]
    exact ⟨rfl, rfl⟩

theorem infer_of_slots {found : List Specifier} {slots : List Slot} {groupCount : Nat}
    (h : slotsOf found = .ok (slots, groupCount)) :
    ∃ args, infer found = .ok args ∧
      args.map Argument.position = List.range' 1 args.length ∧ args.map Argument.slot = slots := by
  obtain ⟨hposition, hslot⟩ := argumentsFrom_spec (length_parameterNames groupCount slots) 1
  refine ⟨argumentsFrom 1 slots (parameterNames groupCount slots), ?_, ?_, hslot⟩
  · rw [infer, h]
    rfl
  · have hlength := congrArg List.length hposition
    rw [List.length_map, List.length_range'] at hlength
    rw [hposition, hlength]

theorem map_position_slot {args : List Argument} {slots : SlotMap}
    (hposition : args.map Argument.position = List.range' 1 args.length)
    (hslot : args.map Argument.slot = slots.map Prod.snd)
    (hrange : slots.map Prod.fst = List.range' 1 slots.length) :
    args.map (fun a => (a.position, a.slot)) = slots := by
  have hlength : args.length = slots.length := by simpa using congrArg List.length hslot
  refine (List.zip_of_prod rfl rfl).trans ?_
  rw [List.map_map, List.map_map]
  refine (congrArg₂ List.zip hposition hslot).trans ?_
  rw [hlength]
  exact (List.zip_of_prod hrange rfl).symm

theorem infer_of_fault {found : List Specifier} {fault : Fault}
    (h : slotsOf found = .error fault) : infer found = .error fault.raised := by
  rw [infer, h]
  rfl

theorem Specifier.Takes.one_le {s : Specifier} (h : s.Positive) {p : Nat} {type : ValueType}
    {role : Role} (ht : s.Takes p type role) : 1 ≤ p := by
  cases ht with
  | value hp => exact h.position p hp
  | width hp => exact h.width p hp
  | precision hp => exact h.precision p hp

theorem Specifier.Numbered.not_bare {s : Specifier} (h : s.Numbered) : ¬ s.Bare :=
  fun hbare => h.position hbare.position

section uses
variable {found : List Specifier} {uses : List Use}

theorem exists_use_iff (h : found.flatMap Specifier.uses = uses.map .ok) (p : Nat)
    (type : ValueType) (role : Role) :
    (∃ u ∈ uses, u.position = p ∧ u.type = type ∧ u.role = role) ↔
      ∃ s ∈ found, s.Takes p type role := by
  constructor
  · rintro ⟨u, hu, rfl, rfl, rfl⟩
    obtain ⟨s, hs, -, ht⟩ := (mem_uses_iff h).mp hu
    exact ⟨s, hs, ht⟩
  · rintro ⟨s, hs, ht⟩
    obtain ⟨group, hgroup⟩ := Option.ne_none_iff_exists'.mp (numbered_of_uses h s hs).position
    exact ⟨⟨p, type, role, group⟩, (mem_uses_iff h).mpr ⟨s, hs, hgroup, ht⟩, rfl, rfl, rfl⟩

theorem Slot.Sums.gathers {slot : Slot} {p : Nat} (hs : slot.Sums uses p)
    (h : found.flatMap Specifier.uses = uses.map .ok) : slot.Gathers found p where
  type := by
    intro s hsmem type role ht
    obtain ⟨u, hu, hp, htype, -⟩ := (exists_use_iff h p type role).mpr ⟨s, hsmem, ht⟩
    rw [← htype]
    exact hs.type u hu hp
  roles := by
    intro role
    rw [hs.roles]
    constructor
    · rintro ⟨u, hu, hp, hrole⟩
      obtain ⟨s, hsmem, ht⟩ := (exists_use_iff h p u.type role).mp ⟨u, hu, hp, rfl, hrole⟩
      exact ⟨s, hsmem, u.type, ht⟩
    · rintro ⟨s, hsmem, type, ht⟩
      obtain ⟨u, hu, hp, -, hrole⟩ := (exists_use_iff h p type role).mpr ⟨s, hsmem, ht⟩
      exact ⟨u, hu, hp, hrole⟩
  groups := by
    intro group
    rw [hs.groups]
    constructor
    · rintro ⟨u, hu, rfl, rfl⟩
      obtain ⟨s, hsmem, hgroup, ht⟩ := (mem_uses_iff h).mp hu
      exact ⟨s, hsmem, hgroup, u.type, u.role, ht⟩
    · rintro ⟨s, hsmem, hgroup, type, role, ht⟩
      exact ⟨⟨p, type, role, group⟩, (mem_uses_iff h).mpr ⟨s, hsmem, hgroup, ht⟩, rfl, rfl⟩
  ascending := hs.ascending

theorem SlotMap.Sums.used_iff {slots : SlotMap} (hs : slots.Sums uses)
    (h : found.flatMap Specifier.uses = uses.map .ok) (p : Nat) :
    p ∈ slots.map Prod.fst ↔ ∃ s ∈ found, ∃ type role, s.Takes p type role := by
  rw [hs.used]
  constructor
  · rintro ⟨u, hu, hp⟩
    obtain ⟨s, hsmem, ht⟩ := (exists_use_iff h p u.type u.role).mp ⟨u, hu, hp, rfl, rfl⟩
    exact ⟨s, hsmem, u.type, u.role, ht⟩
  · rintro ⟨s, hsmem, type, role, ht⟩
    obtain ⟨u, hu, hp, -⟩ := (exists_use_iff h p type role).mpr ⟨s, hsmem, ht⟩
    exact ⟨u, hu, hp⟩

theorem SlotMap.Sums.one_le {slots : SlotMap} (hs : slots.Sums uses)
    (h : found.flatMap Specifier.uses = uses.map .ok) (hpos : ∀ s ∈ found, s.Positive) :
    ∀ p ∈ slots.map Prod.fst, 1 ≤ p := by
  intro p hp
  obtain ⟨s, hsmem, type, role, ht⟩ := (hs.used_iff h p).mp hp
  exact ht.one_le (hpos s hsmem)

theorem Agree.takes (hu : Agree uses) (h : found.flatMap Specifier.uses = uses.map .ok)
    {s t : Specifier} (hs : s ∈ found) (ht : t ∈ found) {p : Nat} {a b : ValueType} {r q : Role}
    (hsa : s.Takes p a r) (htb : t.Takes p b q) : a = b := by
  obtain ⟨u, hmem, hp, rfl, -⟩ := (exists_use_iff h p a r).mpr ⟨s, hs, hsa⟩
  obtain ⟨v, hvmem, hq, rfl, -⟩ := (exists_use_iff h p b q).mpr ⟨t, ht, htb⟩
  exact hu u hmem v hvmem (hp.trans hq.symm)

/-- The positions of the slots are a range from one on just when the specifiers are numbered
arguments without a gap. -/
theorem SlotMap.Sums.numbered_iff {slots : SlotMap} (hs : slots.Sums uses)
    (h : found.flatMap Specifier.uses = uses.map .ok) (n : Nat) :
    Numbered found n ↔ slots.map Prod.fst = List.range' 1 n := by
  rw [positions_eq_range'_iff hs.ascending]
  constructor
  · intro hn p
    rw [hs.used_iff h, hn.complete]
  · intro hrange
    refine ⟨numbered_of_uses h, fun s hs' t ht p a b r q => hs.agree.takes h hs' ht, fun p => ?_⟩
    rw [← hs.used_iff h, hrange]

end uses

/-- The faults of specifiers. No number that one of them tells is beyond the positions that are
taken. -/
inductive Fault.Tells (found : List Specifier) : Fault → Prop where
  | mixed (text : String) : Tells found (.mixed text)
  | conflicting {s : Specifier} {p : Nat} {type first second : ValueType} {role : Role} :
      s ∈ found → s.Takes p type role → Tells found (.conflicting p first second)
  | sparse {s : Specifier} {p : Nat} {type : ValueType} {role : Role} {missing : List Nat}
      {count : Int} :
      s ∈ found → s.Takes p type role → (∀ m ∈ missing, m ≤ p) → count ≤ p →
        Tells found (.sparse missing count)

theorem Fault.isSpelled_iff {fault : Fault} :
    fault.isSpelled ↔ ∀ n ∈ fault.numbers, n < (10 ^ Text.maxDigits : Nat) := by
  rw [isSpelled, List.all_eq_true]
  exact forall₂_congr fun n _ => decide_eq_true_iff

theorem Fault.Tells.raised {found : List Specifier} {fault : Fault} (h : fault.Tells found)
    (hlimit : ∀ s ∈ found, ∀ {p type role}, s.Takes p type role → p < 10 ^ Text.maxDigits) :
    fault.raised = fault := by
  rw [Fault.raised, if_pos]
  rw [isSpelled_iff]
  generalize 10 ^ Text.maxDigits = limit at *
  intro n hn
  cases h with
  | mixed text => cases hn
  | conflicting hs ht =>
    have hlt := hlimit _ hs ht
    cases List.mem_singleton.mp hn
    omega
  | sparse hs ht hmissing hcount =>
    have hlt := hlimit _ hs ht
    cases List.mem_append.mp hn with
    | inl hn =>
      obtain ⟨m, hm, rfl⟩ := List.mem_map.mp hn
      have hle := hmissing m hm
      simp only [Int.ofNat_eq_natCast]
      omega
    | inr hn =>
      split at hn
      · cases List.mem_singleton.mp hn
        omega
      · cases hn

/-- An offence among the items of some specifiers is a specifier that does not name its positions, or
two that take one position with different types. -/
theorem Offence.exists_specifier {found : List Specifier} {uses : List Use}
    {item : Except Fault Use} {rest : List (Except Fault Use)} {fault : Fault}
    (h : Offence uses item fault)
    (hitems : found.flatMap Specifier.uses = uses.map .ok ++ item :: rest) :
    fault.Tells found ∧ ((∃ s ∈ found, ¬ s.Numbered) ∨
      ∃ s ∈ found, ∃ t ∈ found, ∃ p a b r q, s.Takes p a r ∧ t.Takes p b q ∧ a ≠ b) := by
  have hmem : item ∈ found.flatMap Specifier.uses := by simp [hitems]
  obtain ⟨s, hs, hitem⟩ := List.mem_flatMap.mp hmem
  cases h with
  | fault =>
    obtain ⟨hnot, rfl⟩ := Specifier.error_mem_uses.mp hitem
    exact ⟨.mixed _, .inl ⟨s, hs, hnot⟩⟩
  | @conflict u v hv hposition htype =>
    have hvmem : .ok v ∈ found.flatMap Specifier.uses := by
      rw [hitems]
      exact List.mem_append_left _ (List.mem_map_of_mem hv)
    obtain ⟨t, ht, hvitem⟩ := List.mem_flatMap.mp hvmem
    have hu := (Specifier.ok_mem_uses.mp hitem).2
    have hv := (Specifier.ok_mem_uses.mp hvitem).2
    rw [hposition] at hv
    exact ⟨.conflicting hs hu, .inr ⟨t, ht, s, hs, _, _, _, _, _, hv, hu, htype⟩⟩

theorem Offence.not_numbered {found : List Specifier} {uses : List Use}
    {item : Except Fault Use} {rest : List (Except Fault Use)} {fault : Fault}
    (h : Offence uses item fault)
    (hitems : found.flatMap Specifier.uses = uses.map .ok ++ item :: rest) :
    (∀ n, ¬ Numbered found n) ∧ fault.Tells found := by
  obtain ⟨hfault, ⟨s, hs, hnot⟩ | ⟨s, hs, t, ht, p, a, b, r, q, hsa, htb, hne⟩⟩ :=
    h.exists_specifier hitems
  · exact ⟨fun n hn => hnot (hn.numbered s hs), hfault⟩
  · exact ⟨fun n hn => hne (hn.agree s hs t ht hsa htb), hfault⟩

theorem SlotMap.Sums.tells_gaps {found : List Specifier} {uses : List Use} {slots : SlotMap}
    (hs : slots.Sums uses) (h : found.flatMap Specifier.uses = uses.map .ok) (hne : slots ≠ [])
    (limit : Nat) :
    (Fault.sparse (firstGaps limit 1 (slots.map Prod.fst))
      ((slots.map Prod.fst).getLast?.getD 0 - slots.length)).Tells found := by
  have hkeys : slots.map Prod.fst ≠ [] := by simpa using hne
  have hlast := List.getLast?_eq_some_getLast hkeys
  obtain ⟨hmem, hle⟩ := le_last_of_ascending hs.ascending hlast
  obtain ⟨s, hsmem, type, role, ht⟩ := (hs.used_iff h _).mp hmem
  refine .sparse hsmem ht (fun m hm => ?_) ?_
  · obtain ⟨k, hk, hlt⟩ := exists_lt_of_mem_firstGaps hm
    exact hlt.le.trans (hle k hk)
  · rw [hlast, Option.getD_some]
    omega

theorem numberedSlots_cases {found : List Specifier} (hpos : ∀ s ∈ found, s.Positive) :
    (∃ slots : SlotMap, Numbered found slots.length ∧
      numberedSlots found = .ok (slots.map Prod.snd) ∧
      slots.map Prod.fst = List.range' 1 slots.length ∧ ∀ e ∈ slots, e.2.Gathers found e.1) ∨
    ((∀ n, ¬ Numbered found n) ∧
      ∃ fault, fault.Tells found ∧ numberedSlots found = .error fault) := by
  rcases SlotMap.Sums.nil.addAll (found.flatMap Specifier.uses) with
    ⟨uses, slots, hitems, hall, hsums⟩ | ⟨uses, item, rest, fault, hitems, -, hoffence, hall⟩
  · rw [List.nil_append] at hsums
    have hone := hsums.one_le hitems hpos
    rw [numberedSlots, hall]
    rcases SlotMap.dense_cases hsums.ascending hone with ⟨hrange, hdense⟩ | ⟨hrange, hdense⟩
    · exact .inl ⟨slots, (hsums.numbered_iff hitems _).mpr hrange, hdense, hrange,
        fun e he => (hsums.sums e he).gathers hitems⟩
    · refine .inr ⟨?_, _, hsums.tells_gaps hitems ?_ _, hdense⟩
      · intro n hn
        have hkeys := (hsums.numbered_iff hitems n).mp hn
        have hlength : slots.length = n := by simpa using congrArg List.length hkeys
        exact hrange (hlength ▸ hkeys)
      · rintro rfl
        exact hrange rfl
  · obtain ⟨hnot, hfault⟩ := hoffence.not_numbered hitems
    refine .inr ⟨hnot, fault, hfault, ?_⟩
    rw [numberedSlots, hall]
    rfl

theorem Numbered.unique {found : List Specifier} {n m : Nat} (hn : Numbered found n)
    (hm : Numbered found m) : n = m := by
  have hle : ∀ p, 1 ≤ p ∧ p ≤ n ↔ 1 ≤ p ∧ p ≤ m := fun p => by rw [← hn.complete, hm.complete]
  have h1 := hle n
  have h2 := hle m
  omega

theorem Numbered.nil_of_unnumbered {found : List Specifier} {n : Nat} (h : Numbered found n)
    (hu : Unnumbered found) : found = [] ∧ n = 0 := by
  cases found with
  | nil =>
    have hone : ¬ (1 ≤ 1 ∧ 1 ≤ n) := by
      rw [← h.complete 1]
      simp
    exact ⟨rfl, by omega⟩
  | cons s found =>
    exact absurd (hu s List.mem_cons_self) (h.numbered s List.mem_cons_self).not_bare

section first
variable {first : Specifier} (rest : List Specifier)

theorem slotsOf_numbered {p : Nat} (h : first.position = some p) :
    slotsOf (first :: rest) = (numberedSlots (first :: rest)).map fun slots =>
      (slots, ((first :: rest).map (·.position)).eraseDups.length) := by
  rw [slotsOf, h]
  cases numberedSlots (first :: rest) <;> rfl

theorem slotsOf_unnumbered (h : first.position = none) :
    slotsOf (first :: rest) = (unnumberedSlots 1 (first :: rest)).map fun slots =>
      (slots, (first :: rest).length) := by
  rw [slotsOf, h]
  cases unnumberedSlots 1 (first :: rest) <;> rfl

end first

theorem slotsOf_cases {found : List Specifier} (hpos : ∀ s ∈ found, s.Positive) :
    (Unnumbered found ∧
      slotsOf found = .ok ((found.zipIdx 1).flatMap fun s => s.1.lineSlots s.2, found.length)) ∨
    (¬ Unnumbered found ∧ ∃ slots : SlotMap, Numbered found slots.length ∧
      slotsOf found =
        .ok (slots.map Prod.snd, (found.map (·.position)).eraseDups.length) ∧
      slots.map Prod.fst = List.range' 1 slots.length ∧ ∀ e ∈ slots, e.2.Gathers found e.1) ∨
    (¬ Unnumbered found ∧ (∀ n, ¬ Numbered found n) ∧
      ∃ fault, fault.Tells found ∧ slotsOf found = .error fault) := by
  cases hfound : found with
  | nil => exact .inl ⟨List.forall_mem_nil _, rfl⟩
  | cons first rest =>
    rw [← hfound]
    have hfirst : first ∈ found := hfound ▸ List.mem_cons_self
    cases hposition : first.position with
    | some p =>
      have hnot : ¬ Unnumbered found := by
        intro hu
        have hnone := (hu first hfirst).position
        rw [hposition] at hnone
        cases hnone
      have hslots := hfound ▸ slotsOf_numbered rest hposition
      rcases numberedSlots_cases hpos with ⟨slots, hn, heq, hrange, hgathers⟩ |
        ⟨hn, fault, hfault, heq⟩
      · refine .inr (.inl ⟨hnot, slots, hn, ?_, hrange, hgathers⟩)
        rw [hslots, heq]
        rfl
      · refine .inr (.inr ⟨hnot, hn, fault, hfault, ?_⟩)
        rw [hslots, heq]
        rfl
    | none =>
      have hslots := hfound ▸ slotsOf_unnumbered rest hposition
      rcases unnumberedSlots_cases found 1 with ⟨hu, heq⟩ | ⟨before, s, after, hs, -, hbare, heq⟩
      · refine .inl ⟨hu, ?_⟩
        rw [hslots, heq]
        rfl
      · refine .inr (.inr ⟨fun hu => hbare (hu s (by simp [hs])), fun n hn => ?_, .mixed s.text,
          .mixed s.text, ?_⟩)
        · exact (hn.numbered first hfirst).position hposition
        · rw [hslots, heq]
          rfl

theorem takes_lt_of_mem_specifiers {text : String} {found : List Specifier}
    (h : specifiers text = .ok found) {s : Specifier} (hs : s ∈ found) {p : Nat} {type : ValueType}
    {role : Role} (ht : s.Takes p type role) : p < 10 ^ Text.maxDigits := by
  obtain ⟨d, hvalid, -, hshort, hfields⟩ := exists_spelling h hs
  suffices hdigits : ∃ ds ∈ d.numbers, (∀ c ∈ ds, c.isDigit) ∧ p = Text.decimalValue ds by
    obtain ⟨ds, hds, hdigit, rfl⟩ := hdigits
    exact (Text.decimalValue_lt hdigit).trans_le (Nat.pow_le_pow_right (by decide) (hshort ds hds))
  have hstar {e : Option Extent} (hv : ∀ f ∈ e, f.Valid) (he : dimensionOf e = .star (some p)) :
      ∃ ds ∈ Extent.numbers e, (∀ c ∈ ds, c.isDigit) ∧ p = Text.decimalValue ds := by
    cases e with
    | none => cases he
    | some e =>
      cases e with
      | digits ds => cases he
      | star position =>
        obtain ⟨ds, rfl, rfl⟩ := Option.map_eq_some_iff.mp (Dimension.star.inj he)
        exact ⟨ds, Option.mem_toList.mpr rfl, (hv _ rfl ds rfl).2.1, rfl⟩
  cases ht with
  | value hp =>
    rw [hfields] at hp
    obtain ⟨ds, hds, rfl⟩ := Option.map_eq_some_iff.mp hp
    exact ⟨ds, by simp [Spelling.numbers, hds], (hvalid.position ds hds).2.1, rfl⟩
  | width hp =>
    rw [hfields] at hp
    obtain ⟨ds, hds, hdigit⟩ := hstar (fun e he => (hvalid.width e he).1) hp
    exact ⟨ds, by simp [Spelling.numbers, hds], hdigit⟩
  | precision hp =>
    rw [hfields] at hp
    obtain ⟨ds, hds, hdigit⟩ := hstar hvalid.precision hp
    exact ⟨ds, by simp [Spelling.numbers, hds], hdigit⟩

theorem kind_of_infer_eq_error {text : String} {found : List Specifier} {fault : Fault}
    (h : specifiers text = .ok found) (hinfer : infer found = .error fault) :
    (∃ specifier, fault = .mixed specifier) ∨
      (∃ p first second, fault = .conflicting p first second) ∨
      ∃ missing count, fault = .sparse missing count := by
  have hok {slots : List Slot} {groupCount : Nat} (hslots : slotsOf found = .ok (slots, groupCount)) :
      False := by
    obtain ⟨args, hargs, -⟩ := infer_of_slots hslots
    cases hargs.symm.trans hinfer
  rcases slotsOf_cases fun s hs => positive_of_mem_specifiers h hs with ⟨-, hslots⟩ |
    ⟨-, slots, -, hslots, -⟩ | ⟨-, -, raised, hraised, hslots⟩
  · exact (hok hslots).elim
  · exact (hok hslots).elim
  · rw [infer_of_fault hslots, hraised.raised fun s hs {_ _ _} => takes_lt_of_mem_specifiers h hs]
      at hinfer
    cases hinfer
    cases hraised with
    | mixed specifier => exact .inl ⟨specifier, rfl⟩
    | conflicting _ _ => exact .inr (.inl ⟨_, _, _, rfl⟩)
    | sparse _ _ _ _ => exact .inr (.inr ⟨_, _, rfl⟩)

/-- Inference succeeds exactly on the consistent specifiers of a text. It types every argument by
its uses, and all it can complain of are mixed numbering, conflicting types and gaps. -/
theorem infer_exact {text : String} {found : List Specifier} (h : specifiers text = .ok found) :
    ((∃ args, infer found = .ok args) ↔ Unnumbered found ∨ ∃ n, Numbered found n) ∧
    (∀ fault, infer found = .error fault →
      (∃ specifier, fault = .mixed specifier) ∨
      (∃ p first second, fault = .conflicting p first second) ∨
      ∃ missing count, fault = .sparse missing count) ∧
    ∀ args, infer found = .ok args →
      args.map Argument.position = List.range' 1 args.length ∧
      (Unnumbered found → args.map Argument.slot =
        (found.zipIdx 1).flatMap fun s => s.1.lineSlots s.2) ∧
      ∀ n, Numbered found n → args.length = n ∧
        ∀ a ∈ args, a.slot.Gathers found a.position := by
  have hpos : ∀ s ∈ found, s.Positive := fun s hs => positive_of_mem_specifiers h hs
  have hkinds := fun fault (hinfer : infer found = .error fault) => kind_of_infer_eq_error h hinfer
  rcases slotsOf_cases hpos with ⟨hu, heq⟩ |
    ⟨hnot, slots, hn, heq, hrange, hgathers⟩ | ⟨hnot, hn, fault, hfault, heq⟩
  · obtain ⟨args, hinfer, hposition, hslot⟩ := infer_of_slots heq
    rw [hinfer]
    refine ⟨⟨fun _ => .inl hu, fun _ => ⟨args, rfl⟩⟩, nofun, ?_⟩
    rintro _ ⟨⟩
    refine ⟨hposition, fun _ => hslot, fun n hn => ?_⟩
    obtain ⟨rfl, rfl⟩ := hn.nil_of_unnumbered hu
    obtain rfl := List.map_eq_nil_iff.mp hslot
    exact ⟨rfl, List.forall_mem_nil _⟩
  · obtain ⟨args, hinfer, hposition, hslot⟩ := infer_of_slots heq
    have hlength : args.length = slots.length := by simpa using congrArg List.length hslot
    have hpairs := map_position_slot hposition hslot hrange
    rw [hinfer]
    refine ⟨⟨fun _ => .inr ⟨_, hn⟩, fun _ => ⟨args, rfl⟩⟩, nofun, ?_⟩
    rintro _ ⟨⟩
    refine ⟨hposition, fun hu => absurd hu hnot, fun n hn' => ⟨?_, fun a ha => ?_⟩⟩
    · rw [hlength, hn.unique hn']
    · exact hgathers (a.position, a.slot) (hpairs ▸ List.mem_map_of_mem ha)
  · rw [infer_of_fault heq, hfault.raised fun s hs {_ _ _} => takes_lt_of_mem_specifiers h hs]
      at hkinds ⊢
    refine ⟨⟨nofun, ?_⟩, hkinds, nofun⟩
    rintro (hu | ⟨n, hn'⟩)
    · exact absurd hu hnot
    · exact absurd hn' (hn n)

/-- The first specifier takes the second argument, and the other one takes the first and the third. -/
theorem arguments_of_two_specifiers :
    ∃ found args, specifiers "%2$@ %1$*3$d" = .ok found ∧ infer found = .ok args ∧
      args.map Argument.name = ["value1", "value2", "width1"] ∧ Numbered found 3 ∧
      ∀ a ∈ args, a.slot.Gathers found a.position := by
  have hfound : specifiers "%2$@ %1$*3$d" =
      .ok [{ position := some 2, conversion := .object, text := "%2$@" },
        { position := some 1, width := .star (some 3), conversion := .decimal, text := "%1$*3$d",
          start := 5 }] := by
    decide +kernel
  obtain ⟨hiff, -, hargs⟩ := infer_exact hfound
  obtain ⟨args, hinfer, hnames⟩ : ∃ args,
      infer [{ position := some 2, conversion := .object, text := "%2$@" },
        { position := some 1, width := .star (some 3), conversion := .decimal, text := "%1$*3$d",
          start := 5 }] = .ok args ∧
      args.map Argument.name = ["value1", "value2", "width1"] :=
    ⟨[⟨"value1", .int, [1], 1, .only .value⟩, ⟨"value2", .object, [2], 2, .only .value⟩,
      ⟨"width1", .int, [1], 3, .only .width⟩], by decide +kernel, rfl⟩
  obtain ⟨-, -, hnumbered⟩ := hargs args hinfer
  rcases hiff.mp ⟨args, hinfer⟩ with hline | ⟨n, hn⟩
  · exact absurd (hline _ List.mem_cons_self).position nofun
  · obtain ⟨hlength, hgathers⟩ := hnumbered n hn
    have hthree : n = 3 := by simpa [← hlength] using congrArg List.length hnames
    exact ⟨_, args, hfound, hinfer, hnames, hthree ▸ hn, hgathers⟩

end LocaleAccessors.Format
