import LocaleAccessors.Proofs.Format.Inference

/-!
Numbered specifiers in any order. What they say of their arguments depends on which of them there are,
neither on their order nor on how often one of them is repeated.
-/

namespace LocaleAccessors.Format

theorem Roles.eq_of_has_iff {r q : Roles} (h : ∀ role, r.Has role ↔ q.Has role) : r = q := by
  have hvalue : r.value = q.value := Bool.eq_iff_iff.mpr (h .value)
  have hwidth : r.width = q.width := Bool.eq_iff_iff.mpr (h .width)
  have hprecision : r.precision = q.precision := Bool.eq_iff_iff.mpr (h .precision)
  cases r
  cases q
  simp_all

/-! The slots of some uses are the only ones that sum them, and they sum every list of the same uses. -/

section sums
variable {uses others : List Use}

theorem Slot.Sums.of_mem_iff {slot : Slot} {position : Nat} (h : slot.Sums uses position)
    (hsame : ∀ u, u ∈ uses ↔ u ∈ others) : slot.Sums others position where
  type := fun u hu => h.type u ((hsame u).mpr hu)
  roles := by simpa only [hsame] using h.roles
  groups := by simpa only [hsame] using h.groups
  ascending := h.ascending

theorem Slot.Sums.unique {slot other : Slot} {position : Nat} (h : slot.Sums uses position)
    (hother : other.Sums uses position) (hused : ∃ u ∈ uses, u.position = position) :
    slot = other := by
  have htype : slot.type = other.type := by
    obtain ⟨u, hu, hp⟩ := hused
    rw [← h.type u hu hp, hother.type u hu hp]
  have hroles : slot.roles = other.roles :=
    Roles.eq_of_has_iff fun role => (h.roles role).trans (hother.roles role).symm
  have hgroups : slot.groups = other.groups :=
    h.ascending.eq_of_mem_iff hother.ascending fun g => (h.groups g).trans (hother.groups g).symm
  cases slot
  cases other
  simp_all

namespace SlotMap
variable {slots other : SlotMap}

theorem Sums.of_mem_iff (h : slots.Sums uses) (hsame : ∀ u, u ∈ uses ↔ u ∈ others) :
    slots.Sums others where
  ascending := h.ascending
  used := by simpa only [hsame] using h.used
  sums := fun e he => (h.sums e he).of_mem_iff hsame

theorem Sums.mem_of_mem (h : slots.Sums uses) (hother : other.Sums uses) {e : Nat × Slot}
    (he : e ∈ slots) : e ∈ other := by
  have hused := (h.used e.1).mp (List.mem_map_of_mem he)
  obtain ⟨f, hf, hkey⟩ := List.mem_map.mp ((hother.used e.1).mpr hused)
  have hslot : e.2 = f.2 := (h.sums e he).unique (hkey ▸ hother.sums f hf) hused
  have heq : e = f := Prod.ext hkey.symm hslot
  rwa [heq]

theorem Sums.nodup (h : slots.Sums uses) : slots.Nodup :=
  .of_map Prod.fst (h.ascending.imp Nat.ne_of_lt)

theorem Sums.unique (h : slots.Sums uses) (hother : other.Sums uses) : slots = other := by
  have hperm : slots.Perm other := (List.perm_ext_iff_of_nodup h.nodup hother.nodup).mpr
    fun _ => ⟨h.mem_of_mem hother, hother.mem_of_mem h⟩
  refine List.Perm.eq_of_pairwise ?_ (List.pairwise_map.mp h.ascending)
    (List.pairwise_map.mp hother.ascending) hperm
  exact fun e f _ _ hlt hgt => absurd hlt hgt.asymm

end SlotMap

end sums

/-- Items that the slots have gathered are gathered to the same slots in any order and repetition:
nothing among them offends, since an offence would need a fault or two uses that do not agree. -/
theorem SlotMap.addAll_of_mem_iff {items others : List (Except Fault Use)} {slots : SlotMap}
    (hsame : ∀ item, item ∈ items ↔ item ∈ others) (h : addAll [] items = .ok slots) :
    addAll [] others = .ok slots := by
  rcases Sums.nil.addAll items with ⟨uses, out, rfl, hall, hsums⟩ | ⟨_, _, _, _, _, _, _, hall⟩
  · obtain rfl := Except.ok.inj (hall.symm.trans h)
    rw [List.nil_append] at hsums
    rcases Sums.nil.addAll others with
      ⟨more, other, rfl, hother, hmore⟩ | ⟨before, item, rest, fault, rfl, -, hoffence, -⟩
    · rw [List.nil_append] at hmore
      have huses : ∀ u, u ∈ uses ↔ u ∈ more := by simpa using fun u => hsame (.ok u)
      rw [hother, (hsums.of_mem_iff huses).unique hmore]
    · have hitem : item ∈ uses.map .ok := (hsame item).mpr (by simp)
      cases hoffence with
      | fault => simp at hitem
      | @conflict u v hv hposition htype =>
        have hvitem : (.ok v : Except Fault Use) ∈ uses.map .ok :=
          (hsame (.ok v)).mpr (List.mem_append_left _ (List.mem_map_of_mem hv))
        have hu : u ∈ uses := by simpa using hitem
        have hv : v ∈ uses := by simpa using hvitem
        exact absurd (hsums.agree v hv u hu hposition) htype
  · cases hall.symm.trans h

theorem length_eraseDups_of_mem_iff {α : Type} [BEq α] [LawfulBEq α] {as bs : List α}
    (h : ∀ a, a ∈ as ↔ a ∈ bs) : as.eraseDups.length = bs.eraseDups.length := by
  have hperm : as.eraseDups.Perm bs.eraseDups :=
    (List.perm_ext_iff_of_nodup (Table.nodup_eraseDups as) (Table.nodup_eraseDups bs)).mpr
      fun a => by simpa using h a
  exact hperm.length_eq

section same
variable {found other : List Specifier}

theorem numberedSlots_of_mem_iff {slots : List Slot} (hsame : ∀ s, s ∈ found ↔ s ∈ other)
    (h : numberedSlots found = .ok slots) : numberedSlots other = .ok slots := by
  obtain ⟨gathered, hgathered, hdense⟩ := bind_eq_ok_iff.mp h
  have hitems : ∀ item, item ∈ found.flatMap Specifier.uses ↔ item ∈ other.flatMap Specifier.uses := by
    simp only [List.mem_flatMap, hsame, implies_true]
  exact bind_eq_ok_iff.mpr ⟨gathered, SlotMap.addAll_of_mem_iff hitems hgathered, hdense⟩

theorem numbered_of_numberedSlots {slots : List Slot} (h : numberedSlots found = .ok slots) :
    ∀ s ∈ found, s.Numbered := by
  obtain ⟨gathered, hgathered, -⟩ := bind_eq_ok_iff.mp h
  rcases SlotMap.Sums.nil.addAll (found.flatMap Specifier.uses) with
    ⟨uses, -, huses, -⟩ | ⟨_, _, _, _, _, _, _, hall⟩
  · exact numbered_of_uses huses
  · cases hall.symm.trans hgathered

theorem slotsOf_of_mem_iff {result : List Slot × Nat} (hnumbered : ∃ s ∈ found, s.position ≠ none)
    (hsame : ∀ s, s ∈ found ↔ s ∈ other) (h : slotsOf found = .ok result) :
    slotsOf other = .ok result := by
  obtain ⟨s, hs, hposition⟩ := hnumbered
  obtain ⟨first, rest, hfound⟩ := List.exists_cons_of_ne_nil (List.ne_nil_of_mem hs)
  obtain ⟨head, tail, hother⟩ := List.exists_cons_of_ne_nil (List.ne_nil_of_mem ((hsame s).mp hs))
  have hhead : head ∈ found := (hsame head).mpr (hother ▸ List.mem_cons_self)
  rw [hfound] at h
  cases hfirst : first.position with
  | none =>
    rw [slotsOf_unnumbered rest hfirst, map_eq_ok_iff, ← hfound] at h
    obtain ⟨slots, hslots, -⟩ := h
    rcases unnumberedSlots_cases found 1 with ⟨hbare, -⟩ | ⟨_, _, _, -, -, -, herror⟩
    · exact absurd (hbare s hs).position hposition
    · cases herror.symm.trans hslots
  | some p =>
    rw [slotsOf_numbered rest hfirst, map_eq_ok_iff, ← hfound] at h
    obtain ⟨slots, hslots, rfl⟩ := h
    obtain ⟨q, hq⟩ := Option.ne_none_iff_exists'.mp
      (numbered_of_numberedSlots hslots head hhead).position
    have hgroups : (found.map (·.position)).eraseDups.length =
        (other.map (·.position)).eraseDups.length :=
      length_eraseDups_of_mem_iff fun p => by simp only [List.mem_map, hsame]
    rw [hother, slotsOf_numbered tail hq, map_eq_ok_iff, ← hother]
    exact ⟨slots, numberedSlots_of_mem_iff hsame hslots, by rw [hgroups]⟩

theorem infer_of_mem_iff {args : List Argument} (hnumbered : ∃ s ∈ found, s.position ≠ none)
    (hsame : ∀ s, s ∈ found ↔ s ∈ other) (h : infer found = .ok args) : infer other = .ok args := by
  obtain ⟨result, hslots, hargs⟩ := bind_eq_ok_iff.mp h
  rw [mapError_eq_ok_iff] at hslots
  have hother := slotsOf_of_mem_iff hnumbered hsame hslots
  exact bind_eq_ok_iff.mpr ⟨result, mapError_eq_ok_iff.mpr hother, hargs⟩

end same

/-- Where a specifier is numbered, all specifiers give the same arguments in every order, if they give
any, and give them still when some of them come again. -/
theorem arguments_in_any_order {found : List Specifier} (hnumbered : ∃ s ∈ found, s.position ≠ none) :
    (∀ other args, found.Perm other → (infer found = .ok args ↔ infer other = .ok args)) ∧
    ∀ args copies, infer found = .ok args → (∀ s ∈ copies, s ∈ found) →
      infer (found ++ copies) = .ok args := by
  constructor
  · intro other args hperm
    have hother : ∃ s ∈ other, s.position ≠ none := by simpa only [hperm.mem_iff] using hnumbered
    constructor
    · exact infer_of_mem_iff hnumbered fun s => hperm.mem_iff
    · exact infer_of_mem_iff hother fun s => hperm.symm.mem_iff
  · intro args copies h hcopies
    apply infer_of_mem_iff hnumbered _ h
    intro s
    rw [List.mem_append]
    exact ⟨.inl, fun hs => hs.elim id (hcopies s)⟩

theorem arguments_reversed_and_doubled :
    ∃ found args, specifiers "%2$@ %1$*3$d %2$@" = .ok found ∧
      (∃ s ∈ found, s.position ≠ none) ∧
      args.map Argument.name = ["value1", "value2", "width1"] ∧
      infer found = .ok args ∧ infer found.reverse = .ok args ∧ infer (found ++ found) = .ok args := by
  obtain ⟨found, args, hfound, hnumbered, hnames, hinfer⟩ : ∃ found args,
      specifiers "%2$@ %1$*3$d %2$@" = .ok found ∧ (∃ s ∈ found, s.position ≠ none) ∧
      args.map Argument.name = ["value1", "value2", "width1"] ∧ infer found = .ok args :=
    ⟨[{ position := some 2, conversion := .object, text := "%2$@" },
      { position := some 1, width := .star (some 3), conversion := .decimal, text := "%1$*3$d",
        start := 5 },
      { position := some 2, conversion := .object, text := "%2$@", start := 13 }],
      [⟨"value1", .int, [1], 1, .only .value⟩, ⟨"value2", .object, [2], 2, .only .value⟩,
        ⟨"width1", .int, [1], 3, .only .width⟩],
      by decide +kernel, ⟨_, List.mem_cons_self, nofun⟩, rfl, by decide +kernel⟩
  obtain ⟨hperm, hcopies⟩ := arguments_in_any_order hnumbered
  exact ⟨found, args, hfound, hnumbered, hnames, hinfer,
    (hperm _ _ (List.reverse_perm _).symm).mp hinfer, hcopies _ _ hinfer fun _ hs => hs⟩

end LocaleAccessors.Format
