import LocaleAccessors.Format.ParameterName
import LocaleAccessors.Proofs.Name.Distinct
import LocaleAccessors.Proofs.Text.Lines
import Mathlib.Data.List.Basic

/-!
Base names and the positions behind them. A position behind joined groups reads as one more group,
so it depends on the groups alone whether such a name is another base name. Where none is, the
search for a free name ends at its first candidate.
-/

namespace LocaleAccessors.Format
open Name (suffixed distinctName suffixed_inj)
open Text (dropWhile_run forall_mem_of_all toString_injective isDigit_of_mem_toString
  toList_toString_ne_nil)

section spelling

def joined (groups : List Nat) : String :=
  "_".intercalate (groups.map toString)

theorem joined_injective {gs hs : List Nat} (hg : gs ≠ []) (hh : hs ≠ [])
    (h : joined gs = joined hs) : gs = hs := by
  have hsplit {ks : List Nat} (hk : ks ≠ []) :
      (joined ks).toList.splitOn '_' = ks.map fun k => (toString k).toList := by
    rw [joined, String.toList_intercalate, List.map_map]
    refine List.splitOn_intercalate '_' ?_ (by simpa using hk)
    intro cs hcs
    obtain ⟨k, -, rfl⟩ := List.mem_map.mp hcs
    exact fun hmem => absurd (isDigit_of_mem_toString hmem) (by decide)
  have hmap : gs.map (fun k => (toString k).toList) = hs.map fun k => (toString k).toList := by
    rw [← hsplit hg, ← hsplit hh, h]
  refine List.map_injective_iff.mpr (fun j k hjk => ?_) hmap
  exact toString_injective (String.toList_inj.mp hjk)

theorem suffixed_joined (label : String) {groups : List Nat} (h : groups ≠ []) (position : Nat) :
    suffixed (label ++ joined groups) position = label ++ joined (groups ++ [position]) := by
  have hjoined : joined (groups ++ [position]) = joined groups ++ "_" ++ toString position := by
    induction groups with
    | nil => exact absurd rfl h
    | cons g groups ih =>
      cases groups with
      | nil => simp [joined]
      | cons k groups =>
        have htail := ih (List.cons_ne_nil k groups)
        simp only [joined, List.cons_append, List.map_cons, String.intercalate_cons_cons] at htail ⊢
        rw [htail]
        simp only [String.append_assoc]
  rw [hjoined, suffixed]
  simp only [String.append_assoc]

theorem toList_joined (g : Nat) (groups : List Nat) :
    ∃ rest, (joined (g :: groups)).toList = (toString g).toList ++ rest := by
  cases groups with
  | nil => exact ⟨[], by rw [List.append_nil]; rfl⟩
  | cons k groups =>
    refine ⟨'_' :: (joined (k :: groups)).toList, ?_⟩
    simp only [joined, List.map_cons, String.intercalate_cons_cons, String.toList_append]
    rw [List.append_assoc]
    rfl

theorem head_joined {groups : List Nat} (h : groups ≠ []) :
    ∀ c ∈ (joined groups).toList.head?, c.isDigit := by
  obtain ⟨g, groups, rfl⟩ := List.exists_cons_of_ne_nil h
  obtain ⟨d, digits, hdigits⟩ := List.exists_cons_of_ne_nil (toList_toString_ne_nil g)
  obtain ⟨rest, hrest⟩ := toList_joined g groups
  intro c hc
  rw [hrest, hdigits] at hc
  cases hc
  exact isDigit_of_mem_toString (hdigits ▸ List.mem_cons_self)

theorem letters_of_label (roles : Roles) :
    '_' ∉ roles.label.toList ∧ ∀ c ∈ roles.label.toList, ¬ c.isDigit := by
  obtain ⟨value, width, precision⟩ := roles
  cases value <;> cases width <;> cases precision <;>
    exact ⟨by decide, forall_mem_of_all (by decide)⟩

theorem groups_eq_of_labelled {a b : Roles} {gs hs : List Nat} (hg : gs ≠ []) (hh : hs ≠ [])
    (h : a.label ++ joined gs = b.label ++ joined hs) : gs = hs := by
  have hlist := congrArg (List.dropWhile (fun c => !c.isDigit) ∘ String.toList) h
  simp only [Function.comp_apply, String.toList_append] at hlist
  rw [dropWhile_run (by simpa using (letters_of_label a).2) (by simpa using head_joined hg),
    dropWhile_run (by simpa using (letters_of_label b).2) (by simpa using head_joined hh)] at hlist
  exact joined_injective hg hh (String.toList_inj.mp hlist)

end spelling

theorem Slot.baseName_eq (slot : Slot) (groupCount : Nat) :
    slot.baseName groupCount =
      slot.roles.label ++ if 1 < groupCount then joined slot.groups else "" :=
  rfl

/-- A position behind a base name makes another base name only where it joins the groups of the
first one as a further group. -/
theorem suffixed_ne_baseName {s t : Slot} {groupCount position : Nat} (hs : s.groups ≠ [])
    (ht : t.groups ≠ []) (h : t.groups ≠ s.groups ++ [position]) :
    suffixed (s.baseName groupCount) position ≠ t.baseName groupCount := by
  intro heq
  rw [Slot.baseName_eq, Slot.baseName_eq] at heq
  split_ifs at heq with hseveral
  · rw [suffixed_joined _ hs] at heq
    exact h (groups_eq_of_labelled (by simp) ht heq).symm
  · have hmem : '_' ∈ (suffixed (s.roles.label ++ "") position).toList := by
      simp [suffixed]
    rw [heq, String.append_empty] at hmem
    exact (letters_of_label t.roles).1 hmem

/-- A base name, with the position behind it where it is not the only one of its kind. -/
def distinguished (bases : List String) (base : String) (position : Nat) : String :=
  if bases.count base > 1 then suffixed base position else base

/-- Where no base name with its position behind it is a base name, every candidate is free: what is
taken are base names, and names that end in smaller positions. -/
theorem nameSlots_eq {bases names : List String} (position : Nat) (taken : List String)
    (hin : ∀ base ∈ names, base ∈ bases)
    (hfree : ∀ e ∈ names.zipIdx position, suffixed e.1 e.2 ∉ bases)
    (htaken : ∀ t ∈ taken, t ∈ bases ∨ ∃ base k, k < position ∧ t = suffixed base k) :
    nameSlots bases position taken names =
      (names.zipIdx position).map fun e => distinguished bases e.1 e.2 := by
  induction names generalizing position taken with
  | nil => rfl
  | cons base names ih =>
    obtain ⟨hbase, hnames⟩ := List.forall_mem_cons.mp hin
    rw [List.zipIdx_cons] at hfree ⊢
    obtain ⟨hcandidate, hothers⟩ := List.forall_mem_cons.mp hfree
    have hsearch : distinctName (suffixed base position) taken = suffixed base position := by
      refine if_neg fun hmem => ?_
      rcases htaken _ hmem with hmem | ⟨other, k, hk, heq⟩
      · exact hcandidate hmem
      · exact absurd (suffixed_inj heq).2 hk.ne'
    rw [nameSlots, List.map_cons, hsearch]
    refine congrArg (_ :: ·) (ih _ _ hnames hothers ?_)
    refine List.forall_mem_cons.mpr ⟨?_, fun t ht => ?_⟩
    · split_ifs
      · exact .inr ⟨base, position, Nat.lt_succ_self position, rfl⟩
      · exact .inl hbase
    · rcases htaken t ht with hmem | ⟨other, k, hk, heq⟩
      · exact .inl hmem
      · exact .inr ⟨other, k, Nat.lt_succ_of_lt hk, heq⟩

theorem nameSlots_append (bases : List String) (position : Nat) (taken before after : List String) :
    nameSlots bases position taken (before ++ after) =
      nameSlots bases position taken before ++
        nameSlots bases (position + before.length)
          ((nameSlots bases position taken before).reverse ++ taken) after := by
  induction before generalizing position taken with
  | nil => rfl
  | cons base before ih =>
    simp only [List.cons_append, nameSlots, ih, List.reverse_cons, List.append_assoc,
      List.nil_append, List.length_cons, Nat.add_right_comm, Nat.add_assoc]

end LocaleAccessors.Format
