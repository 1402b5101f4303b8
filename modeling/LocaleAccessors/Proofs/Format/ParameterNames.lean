import LocaleAccessors.Proofs.Format.BaseNames
import LocaleAccessors.Proofs.Format.Inference

/-!
The names of parameters. The arguments that share a base name are told apart by their positions. A
base name with a position behind it is never the base name of another argument, although it may look
like one, so no argument finds its name taken.
-/

namespace LocaleAccessors.Format
open Name (suffixed suffixed_inj)

theorem map_name_argumentsFrom {slots : List Slot} {names : List String}
    (h : names.length = slots.length) (position : Nat) :
    (argumentsFrom position slots names).map Argument.name = names := by
  induction slots generalizing names position with
  | nil =>
    obtain rfl := List.length_eq_zero_iff.mp h
    rfl
  | cons slot slots ih =>
    obtain ⟨name, names, rfl⟩ := List.exists_cons_of_length_eq_add_one h
    rw [argumentsFrom, List.map_cons, ih (Nat.succ.inj h)]

section groups
variable {found : List Specifier} {args : List Argument}

def SeveralGroups (args : List Argument) : Prop :=
  ∃ a ∈ args, ∃ b ∈ args, ∃ g ∈ a.groups, ∃ h ∈ b.groups, g ≠ h

instance (args : List Argument) : Decidable (SeveralGroups args) :=
  inferInstanceAs (Decidable (∃ a ∈ args, ∃ b ∈ args, ∃ g ∈ a.groups, ∃ h ∈ b.groups, g ≠ h))

structure Nameable (args : List Argument) (groupCount : Nat) : Prop where
  positions : args.map Argument.position = List.range' 1 args.length
  names : args.map Argument.name = parameterNames groupCount (args.map Argument.slot)
  filled : ∀ a ∈ args, a.groups ≠ []
  ascending : ∀ a ∈ args, a.groups.Pairwise (· < ·)
  apart : ∀ a ∈ args, ∀ b ∈ args, b.groups ≠ a.groups ++ [a.position]
  several : 1 < groupCount ↔ SeveralGroups args

theorem one_lt_length_eraseDups {α : Type} [BEq α] [LawfulBEq α] {xs : List α} :
    1 < xs.eraseDups.length ↔ ∃ a ∈ xs, ∃ b ∈ xs, a ≠ b := by
  cases xs with
  | nil => simp
  | cons x xs =>
    rw [List.eraseDups_cons, List.length_cons, Nat.lt_add_left_iff_pos,
      List.length_pos_iff_exists_mem]
    simp only [List.mem_eraseDups, List.mem_filter, Bool.not_eq_true', beq_eq_false_iff_ne]
    constructor
    · rintro ⟨b, hb, hne⟩
      exact ⟨b, List.mem_cons_of_mem x hb, x, List.mem_cons_self, hne⟩
    · rintro ⟨a, ha, b, hb, hne⟩
      by_cases hax : a = x
      · have hbx : b ≠ x := fun hbx => hne (hax.trans hbx.symm)
        exact ⟨b, List.mem_of_ne_of_mem hbx hb, hbx⟩
      · exact ⟨a, List.mem_of_ne_of_mem hax ha, hax⟩

theorem groups_of_mem_lineSlots {s : Specifier} {group : Nat} {slot : Slot}
    (h : slot ∈ s.lineSlots group) : slot.groups = [group] := by
  obtain ⟨operand, -, rfl⟩ := List.mem_map.mp h
  rfl

section unnumbered
variable (hslot : args.map Argument.slot = (found.zipIdx 1).flatMap fun s => s.1.lineSlots s.2)
include hslot

theorem group_of_unnumbered {a : Argument} (ha : a ∈ args) :
    ∃ g, a.groups = [g] ∧ 1 ≤ g ∧ g ≤ found.length := by
  have hmem : a.slot ∈ args.map Argument.slot := List.mem_map_of_mem ha
  rw [hslot] at hmem
  obtain ⟨⟨s, g⟩, hs, hmem⟩ := List.mem_flatMap.mp hmem
  have hlow := List.le_snd_of_mem_zipIdx hs
  have hhigh := List.snd_lt_add_of_mem_zipIdx hs
  exact ⟨g, groups_of_mem_lineSlots hmem, hlow, by omega⟩

theorem exists_mem_group_of_unnumbered {g : Nat} (hlow : 1 ≤ g) (hhigh : g ≤ found.length) :
    ∃ a ∈ args, g ∈ a.groups := by
  have hs : (found[g - 1], g) ∈ found.zipIdx 1 := by
    rw [List.mk_mem_zipIdx_iff_le_and_getElem?_sub]
    exact ⟨hlow, List.getElem?_eq_getElem _⟩
  have hvalue : Slot.single found[g - 1].valueType .value g ∈ found[g - 1].lineSlots g := by
    simp [Specifier.lineSlots, Specifier.operands]
  have hmem : Slot.single found[g - 1].valueType .value g ∈ args.map Argument.slot := by
    rw [hslot]
    exact List.mem_flatMap.mpr ⟨_, hs, hvalue⟩
  obtain ⟨a, ha, heq⟩ := List.mem_map.mp hmem
  have hgroups : a.groups = [g] := congrArg Slot.groups heq
  exact ⟨a, ha, by simp [hgroups]⟩

theorem several_iff_of_unnumbered : 1 < found.length ↔ SeveralGroups args := by
  constructor
  · intro hlt
    obtain ⟨a, ha, hga⟩ := exists_mem_group_of_unnumbered hslot (Nat.le_refl 1) hlt.le
    obtain ⟨b, hb, hgb⟩ := exists_mem_group_of_unnumbered hslot (by decide) hlt
    exact ⟨a, ha, b, hb, 1, hga, 2, hgb, by decide⟩
  · intro hseveral
    obtain ⟨a, ha, b, hb, g, hg, k, hk, hne⟩ := hseveral
    obtain ⟨_, heq, hbound⟩ := group_of_unnumbered hslot ha
    obtain ⟨_, heq', hbound'⟩ := group_of_unnumbered hslot hb
    rw [heq, List.mem_singleton] at hg
    rw [heq', List.mem_singleton] at hk
    omega

end unnumbered

/-- Where the position of an argument is a group, it is one of the groups of that argument, and no
groups have it twice. -/
theorem groups_ne_append_of_numbered
    (hgathers : ∀ a ∈ args, a.slot.Gathers found a.position) {a b : Argument} (ha : a ∈ args)
    (hb : b ∈ args) : b.groups ≠ a.groups ++ [a.position] := by
  intro heq
  have hmem : a.position ∈ b.groups := by simp [heq]
  obtain ⟨s, hs, hvalue, -⟩ := ((hgathers b hb).groups a.position).mp hmem
  have hown : a.position ∈ a.groups :=
    ((hgathers a ha).groups a.position).mpr ⟨s, hs, hvalue, _, _, .value hvalue⟩
  have hascending : (a.groups ++ [a.position]).Pairwise (· < ·) := heq ▸ (hgathers b hb).ascending
  have hlt := (List.pairwise_append.mp hascending).2.2 a.position hown a.position (by simp)
  exact Nat.lt_irrefl _ hlt

section numbered
variable (hposition : args.map Argument.position = List.range' 1 args.length)
  (hnumbered : Numbered found args.length)
  (hgathers : ∀ a ∈ args, a.slot.Gathers found a.position)
include hposition hnumbered hgathers

theorem groups_ne_nil_of_numbered {a : Argument} (ha : a ∈ args) : a.groups ≠ [] := by
  have hmem : a.position ∈ args.map Argument.position := List.mem_map_of_mem ha
  rw [hposition, List.mem_range'_1] at hmem
  obtain ⟨s, hs, type, role, htakes⟩ := (hnumbered.complete a.position).mpr (by omega)
  obtain ⟨g, hg⟩ := Option.ne_none_iff_exists'.mp (hnumbered.numbered s hs).position
  have hgroup := ((hgathers a ha).groups g).mpr ⟨s, hs, hg, type, role, htakes⟩
  exact List.ne_nil_of_mem hgroup

theorem exists_mem_group_of_numbered {s : Specifier} (hs : s ∈ found) {g : Nat}
    (hg : s.position = some g) : ∃ a ∈ args, g ∈ a.groups := by
  have htakes : s.Takes g s.valueType .value := .value hg
  have hbound := (hnumbered.complete g).mp ⟨s, hs, _, _, htakes⟩
  have hmem : g ∈ args.map Argument.position := by
    rw [hposition, List.mem_range'_1]
    omega
  obtain ⟨a, ha, rfl⟩ := List.mem_map.mp hmem
  exact ⟨a, ha, ((hgathers a ha).groups _).mpr ⟨s, hs, hg, _, _, htakes⟩⟩

theorem several_iff_of_numbered :
    1 < (found.map (·.position)).eraseDups.length ↔ SeveralGroups args := by
  rw [one_lt_length_eraseDups]
  constructor
  · intro hdifferent
    obtain ⟨p, hp, q, hq, hne⟩ := hdifferent
    obtain ⟨s, hs, rfl⟩ := List.mem_map.mp hp
    obtain ⟨t, ht, rfl⟩ := List.mem_map.mp hq
    obtain ⟨g, hg⟩ := Option.ne_none_iff_exists'.mp (hnumbered.numbered s hs).position
    obtain ⟨k, hk⟩ := Option.ne_none_iff_exists'.mp (hnumbered.numbered t ht).position
    obtain ⟨a, ha, hga⟩ := exists_mem_group_of_numbered hposition hnumbered hgathers hs hg
    obtain ⟨b, hb, hkb⟩ := exists_mem_group_of_numbered hposition hnumbered hgathers ht hk
    refine ⟨a, ha, b, hb, g, hga, k, hkb, ?_⟩
    rintro rfl
    exact hne (hg.trans hk.symm)
  · intro hseveral
    obtain ⟨a, ha, b, hb, g, hg, k, hk, hne⟩ := hseveral
    obtain ⟨s, hs, hsg, -⟩ := ((hgathers a ha).groups g).mp hg
    obtain ⟨t, ht, htk, -⟩ := ((hgathers b hb).groups k).mp hk
    refine ⟨_, List.mem_map_of_mem hs, _, List.mem_map_of_mem ht, ?_⟩
    rw [hsg, htk]
    exact fun h => hne (Option.some.inj h)

end numbered

section nameable
variable {groupCount : Nat}
  (hposition : args.map Argument.position = List.range' 1 args.length)
  (hnames : args.map Argument.name = parameterNames groupCount (args.map Argument.slot))
include hposition hnames

theorem nameable_of_unnumbered
    (hslot : args.map Argument.slot = (found.zipIdx 1).flatMap fun s => s.1.lineSlots s.2)
    (hcount : groupCount = found.length) : Nameable args groupCount where
  positions := hposition
  names := hnames
  filled a ha := by
    obtain ⟨g, hg, -⟩ := group_of_unnumbered hslot ha
    simp [hg]
  ascending a ha := by
    obtain ⟨g, hg, -⟩ := group_of_unnumbered hslot ha
    simp [hg]
  apart a ha b hb heq := by
    obtain ⟨g, hg, -⟩ := group_of_unnumbered hslot ha
    obtain ⟨k, hk, -⟩ := group_of_unnumbered hslot hb
    rw [hg, hk] at heq
    cases heq
  several := by
    rw [hcount]
    exact several_iff_of_unnumbered hslot

theorem nameable_of_numbered (hnumbered : Numbered found args.length)
    (hgathers : ∀ a ∈ args, a.slot.Gathers found a.position)
    (hcount : groupCount = (found.map (·.position)).eraseDups.length) :
    Nameable args groupCount where
  positions := hposition
  names := hnames
  filled a ha := groups_ne_nil_of_numbered hposition hnumbered hgathers ha
  ascending a ha := (hgathers a ha).ascending
  apart a ha b hb := groups_ne_append_of_numbered hgathers ha hb
  several := by
    rw [hcount]
    exact several_iff_of_numbered hposition hnumbered hgathers

end nameable

theorem nameable_of_infer (hpos : ∀ s ∈ found, s.Positive) (h : infer found = .ok args) :
    ∃ groupCount, Nameable args groupCount := by
  obtain ⟨⟨slots, groupCount⟩, hslots, hargs⟩ := bind_eq_ok_iff.mp h
  rw [mapError_eq_ok_iff] at hslots
  obtain rfl := Except.ok.inj hargs
  have hlength := length_parameterNames groupCount slots
  obtain ⟨hposition, hslot⟩ := argumentsFrom_spec hlength 1
  have hnames := map_name_argumentsFrom hlength 1
  generalize argumentsFrom 1 slots (parameterNames groupCount slots) = args at *
  have hcount : args.length = slots.length := by simpa using congrArg List.length hslot
  rw [← hcount] at hposition
  rw [← hslot] at hnames
  refine ⟨groupCount, ?_⟩
  rcases slotsOf_cases hpos with ⟨-, heq⟩ | ⟨-, entries, hn, heq, hrange, hgathers⟩ |
    ⟨-, -, fault, -, heq⟩
  · cases hslots.symm.trans heq
    exact nameable_of_unnumbered hposition hnames hslot rfl
  · cases hslots.symm.trans heq
    have hpairs := map_position_slot hposition hslot hrange
    rw [List.length_map] at hcount
    refine nameable_of_numbered hposition hnames (hcount ▸ hn) (fun a ha => ?_) rfl
    exact hgathers (a.position, a.slot) (hpairs ▸ List.mem_map_of_mem ha)
  · cases hslots.symm.trans heq

end groups

/-- The word for the roles of an argument, with the groups that it feeds behind it where the
arguments feed several. -/
def Argument.base (args : List Argument) (a : Argument) : String :=
  a.roles.label ++ if SeveralGroups args then joined a.groups else ""

/-- Some other argument has the same base name. -/
def Shares (args : List Argument) (a : Argument) : Prop :=
  ∃ b ∈ args, b.position ≠ a.position ∧ b.base args = a.base args

instance (args : List Argument) (a : Argument) : Decidable (Shares args a) :=
  inferInstanceAs (Decidable (∃ b ∈ args, b.position ≠ a.position ∧ b.base args = a.base args))

/-- What is taken when the argument behind `before` gets its name: the names that were given, and
the base names that no two arguments share. -/
def takenBefore (args before : List Argument) : List String :=
  (before.map Argument.name).reverse ++
    (args.filter fun a => ¬ Shares args a).map (Argument.base args)

theorem one_lt_count_iff {args : List Argument} (f : Argument → String)
    (hdistinct : args.Pairwise fun a b => a.position ≠ b.position) {a : Argument} (ha : a ∈ args) :
    1 < (args.map f).count (f a) ↔ ∃ b ∈ args, b.position ≠ a.position ∧ f b = f a := by
  obtain ⟨before, after, rfl⟩ := List.append_of_mem ha
  obtain ⟨-, hafter, hbefore⟩ := List.pairwise_append.mp hdistinct
  have hcount : 1 < ((before ++ a :: after).map f).count (f a) ↔
      f a ∈ before.map f ∨ f a ∈ after.map f := by
    rw [List.map_append, List.map_cons, List.count_append, List.count_cons_self,
      ← List.count_pos_iff, ← List.count_pos_iff]
    omega
  rw [hcount]
  simp only [List.mem_map, List.mem_append, List.mem_cons]
  constructor
  · rintro (⟨b, hb, heq⟩ | ⟨b, hb, heq⟩)
    · exact ⟨b, .inl hb, hbefore b hb a List.mem_cons_self, heq⟩
    · exact ⟨b, .inr (.inr hb), ((List.pairwise_cons.mp hafter).1 b hb).symm, heq⟩
  · rintro ⟨b, hb | rfl | hb, hne, heq⟩
    · exact .inl ⟨b, hb, heq⟩
    · exact absurd rfl hne
    · exact .inr ⟨b, hb, heq⟩

section naming
variable {args : List Argument} {groupCount : Nat} (hn : Nameable args groupCount)
include hn

theorem Nameable.base_eq (a : Argument) : a.base args = a.slot.baseName groupCount := by
  rw [Slot.baseName_eq]
  simp only [hn.several]
  rfl

theorem Nameable.distinct : args.Pairwise fun a b => a.position ≠ b.position := by
  have h : (args.map Argument.position).Pairwise (· ≠ ·) := hn.positions ▸ List.nodup_range'
  exact List.pairwise_map.mp h

theorem Nameable.one_lt_count_iff_shares {a : Argument} (ha : a ∈ args) :
    1 < (args.map (Argument.base args)).count (a.base args) ↔ Shares args a :=
  one_lt_count_iff _ hn.distinct ha

theorem Nameable.zipIdx_bases : (args.map (Argument.base args)).zipIdx 1 =
    args.map fun a => (a.base args, a.position) := by
  rw [List.zipIdx_eq_zip_range', List.length_map, ← hn.positions]
  exact (List.zip_of_prod (by simp) (by simp)).symm

theorem Nameable.suffixed_base_ne {a b : Argument} (ha : a ∈ args) (hb : b ∈ args) :
    suffixed (a.base args) a.position ≠ b.base args := by
  rw [hn.base_eq, hn.base_eq]
  exact suffixed_ne_baseName (hn.filled a ha) (hn.filled b hb) (hn.apart a ha b hb)

theorem Nameable.unshared :
    (args.map (Argument.base args)).filter
        (fun base => (args.map (Argument.base args)).count base = 1) =
      (args.filter fun a => ¬ Shares args a).map (Argument.base args) := by
  rw [List.filter_map]
  congr 1
  refine List.filter_congr fun a ha => ?_
  have hpos : 0 < (args.map (Argument.base args)).count (a.base args) :=
    List.count_pos_iff.mpr (List.mem_map_of_mem ha)
  rw [Function.comp_apply, decide_eq_decide, ← hn.one_lt_count_iff_shares ha]
  omega

theorem Nameable.map_name :
    args.map Argument.name = nameSlots (args.map (Argument.base args)) 1 (takenBefore args [])
      (args.map (Argument.base args)) := by
  have hbases : (args.map Argument.slot).map (·.baseName groupCount) =
      args.map (Argument.base args) := by
    rw [List.map_map]
    exact List.map_congr_left fun a _ => (hn.base_eq a).symm
  rw [hn.names, parameterNames, hbases, hn.unshared]
  rfl

theorem Nameable.not_mem_bases {a : Argument} (ha : a ∈ args) :
    suffixed (a.base args) a.position ∉ args.map (Argument.base args) := by
  intro hmem
  obtain ⟨b, hb, heq⟩ := List.mem_map.mp hmem
  exact hn.suffixed_base_ne ha hb heq.symm

theorem Nameable.name_eq {a : Argument} (ha : a ∈ args) :
    a.name = if Shares args a then suffixed (a.base args) a.position else a.base args := by
  have hnames := nameSlots_eq 1 (takenBefore args [])
    (fun base (h : base ∈ args.map (Argument.base args)) => h) ?_ ?_
  · rw [← hn.map_name, hn.zipIdx_bases, List.map_map] at hnames
    rw [List.map_inj_left.mp hnames a ha, Function.comp_apply, distinguished]
    simp only [gt_iff_lt, hn.one_lt_count_iff_shares ha]
  · rw [hn.zipIdx_bases]
    intro e he
    obtain ⟨b, hb, rfl⟩ := List.mem_map.mp he
    exact hn.not_mem_bases hb
  · intro t ht
    obtain ⟨b, hb, rfl⟩ := List.mem_map.mp ht
    exact .inl (List.mem_map_of_mem (List.mem_of_mem_filter hb))

theorem Nameable.nodup : (args.map Argument.name).Nodup := by
  refine List.pairwise_map.mpr (hn.distinct.imp_of_mem fun {a b} ha hb hne => ?_)
  rw [hn.name_eq ha, hn.name_eq hb]
  split_ifs with hsa hsb hsb
  · exact fun h => hne (suffixed_inj h).2
  · exact hn.suffixed_base_ne ha hb
  · exact (hn.suffixed_base_ne hb ha).symm
  · exact fun h => hsa ⟨b, hb, hne.symm, h.symm⟩

variable {before after : List Argument} {a : Argument} (hsplit : args = before ++ a :: after)
include hsplit

theorem Nameable.position_eq : a.position = 1 + before.length := by
  have h := congrArg (·[before.length]?) hn.positions
  simpa [hsplit] using h

theorem Nameable.nameSlots_rest :
    nameSlots (args.map (Argument.base args)) a.position (takenBefore args before)
        ((a :: after).map (Argument.base args)) = (a :: after).map Argument.name := by
  have hmap (f : Argument → String) : args.map f = before.map f ++ (a :: after).map f := by
    rw [hsplit, List.map_append]
  have h := hn.map_name
  rw [hmap Argument.name] at h
  conv at h => rhs; arg 4; rw [hmap]
  rw [nameSlots_append] at h
  obtain ⟨hbefore, hafter⟩ := List.append_inj h (by simp [length_nameSlots])
  rw [← hbefore, List.length_map, ← hn.position_eq hsplit] at hafter
  exact hafter.symm

theorem Nameable.not_taken :
    suffixed (a.base args) a.position ∉ takenBefore args before := by
  have ha : a ∈ args := by simp [hsplit]
  intro hmem
  rcases List.mem_append.mp hmem with hmem | hmem
  · obtain ⟨b, hb, heq⟩ := List.mem_map.mp (List.mem_reverse.mp hmem)
    have hbargs : b ∈ args := by simp [hsplit, hb]
    have hne : b.position ≠ a.position :=
      (List.pairwise_append.mp (hsplit ▸ hn.distinct)).2.2 b hb a List.mem_cons_self
    rw [hn.name_eq hbargs] at heq
    split_ifs at heq
    · exact hne (suffixed_inj heq).2
    · exact hn.suffixed_base_ne ha hbargs heq.symm
  · obtain ⟨b, hb, heq⟩ := List.mem_map.mp hmem
    exact hn.suffixed_base_ne ha (List.mem_of_mem_filter hb) heq.symm

end naming

/-- An argument has its base name, with its position behind it where another argument has the same
one. All names are different, and the name that an argument gets first is always free: `nameSlots`
comes to it with `takenBefore` and finds nothing to try again. -/
theorem names_without_retry {found : List Specifier} {args : List Argument}
    (hpos : ∀ s ∈ found, s.Positive) (h : infer found = .ok args) :
    args.map Argument.position = List.range' 1 args.length ∧
    (∀ a ∈ args, a.groups.Pairwise (· < ·)) ∧
    (∀ a ∈ args, a.name =
      if Shares args a then suffixed (a.base args) a.position else a.base args) ∧
    (args.map Argument.name).Nodup ∧
    ∀ before a after, args = before ++ a :: after →
      nameSlots (args.map (Argument.base args)) a.position (takenBefore args before)
          ((a :: after).map (Argument.base args)) = (a :: after).map Argument.name ∧
        suffixed (a.base args) a.position ∉ takenBefore args before := by
  obtain ⟨groupCount, hn⟩ := nameable_of_infer hpos h
  exact ⟨hn.positions, hn.ascending, fun a ha => hn.name_eq ha, hn.nodup,
    fun before a after hsplit => ⟨hn.nameSlots_rest hsplit, hn.not_taken hsplit⟩⟩

/-- Two arguments are the widths of the first two groups, and a third one is the width of all three.
Its base name looks like a base name of the others with a position behind it. -/
theorem names_of_shared_widths :
    ∃ args,
      inferText "%1$*4$d %2$*4$d %1$*5$d %2$*5$d %1$*6$d %2$*6$d %3$*6$d" = .ok args ∧
      args.map Argument.name =
        ["value1", "value2", "value3", "width1_2_4", "width1_2_5", "width1_2_3"] ∧
      (args.map Argument.name).Nodup ∧
      ∀ before a after, args = before ++ a :: after →
        suffixed (a.base args) a.position ∉ takenBefore args before := by
  have htext : inferText "%1$*4$d %2$*4$d %1$*5$d %2$*5$d %1$*6$d %2$*6$d %3$*6$d" =
      .ok [⟨"value1", .int, [1], 1, .only .value⟩, ⟨"value2", .int, [2], 2, .only .value⟩,
        ⟨"value3", .int, [3], 3, .only .value⟩, ⟨"width1_2_4", .int, [1, 2], 4, .only .width⟩,
        ⟨"width1_2_5", .int, [1, 2], 5, .only .width⟩,
        ⟨"width1_2_3", .int, [1, 2, 3], 6, .only .width⟩] := by
    decide +kernel
  obtain ⟨found, hfound, hinfer⟩ := bind_eq_ok_iff.mp htext
  obtain ⟨-, -, -, hnodup, hfree⟩ :=
    names_without_retry (fun s hs => positive_of_mem_specifiers hfound hs) hinfer
  exact ⟨_, htext, rfl, hnodup, fun before a after hsplit => (hfree before a after hsplit).2⟩

end LocaleAccessors.Format
