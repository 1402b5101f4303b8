import LocaleAccessors.Format.Slot
import Mathlib.Data.List.Basic

/-!
What specifiers ask of their arguments. A specifier without numbers takes the next arguments in
line, and a numbered one names each argument that it takes.
-/

namespace LocaleAccessors.Format

namespace Specifier

/-- The specifier takes the argument at a position, for its value or for one of its stars. -/
inductive Takes (s : Specifier) : Nat → ValueType → Role → Prop where
  | value {p : Nat} : s.position = some p → s.Takes p s.valueType .value
  | width {p : Nat} : s.width = .star (some p) → s.Takes p .int .width
  | precision {p : Nat} : s.precision = .star (some p) → s.Takes p .int .precision

structure Bare (s : Specifier) : Prop where
  position : s.position = none
  width : ∀ p, s.width ≠ .star (some p)
  precision : ∀ p, s.precision ≠ .star (some p)

/-- The specifier names the position of its value, and of each star that it has. -/
structure Numbered (s : Specifier) : Prop where
  position : s.position ≠ none
  width : s.width ≠ .star none
  precision : s.precision ≠ .star none

end Specifier

def starOperand (role : Role) : Dimension → List (ValueType × Role)
  | .star _ => [(.int, role)]
  | _ => []

def Specifier.operands (s : Specifier) : List (ValueType × Role) :=
  starOperand .width s.width ++ starOperand .precision s.precision ++ [(s.valueType, .value)]

def Specifier.lineSlots (s : Specifier) (group : Nat) : List Slot :=
  s.operands.map fun operand => .single operand.1 operand.2 group

def Unnumbered (found : List Specifier) : Prop :=
  ∀ s ∈ found, s.Bare

/-- Every argument from one to `n` is taken, no other is, and none is taken with two types. -/
structure Numbered (found : List Specifier) (n : Nat) : Prop where
  numbered : ∀ s ∈ found, s.Numbered
  agree : ∀ s ∈ found, ∀ t ∈ found, ∀ {p a b r q}, s.Takes p a r → t.Takes p b q → a = b
  complete : ∀ p, (∃ s ∈ found, ∃ type role, s.Takes p type role) ↔ 1 ≤ p ∧ p ≤ n

namespace Specifier

theorem star_unnumberedSlots (group : Nat) (dimension : Dimension) (role : Role) :
    unnumberedSlots.star group dimension role =
      (starOperand role dimension).map fun operand => .single operand.1 operand.2 group := by
  cases dimension <;> rfl

theorem unnumberedSlots_of_bare {s : Specifier} (h : s.Bare) (group : Nat) :
    s.unnumberedSlots group = .ok (s.lineSlots group) := by
  unfold unnumberedSlots
  split
  · rename_i hposition
    rw [h.position] at hposition
    cases hposition
  · rename_i hwidth _
    exact absurd hwidth (h.width _)
  · rename_i hprecision _ _
    exact absurd hprecision (h.precision _)
  · simp only [star_unnumberedSlots, lineSlots, operands, List.map_append, List.map_singleton]

theorem unnumberedSlots_of_not_bare {s : Specifier} (h : ¬ s.Bare) (group : Nat) :
    s.unnumberedSlots group = .error (.mixed s.text) := by
  unfold unnumberedSlots
  split
  · rfl
  · rfl
  · rfl
  · rename_i hposition hwidth hprecision
    exact absurd ⟨hposition, hwidth, hprecision⟩ h

end Specifier

theorem unnumberedSlots_cases (found : List Specifier) (group : Nat) :
    (Unnumbered found ∧ unnumberedSlots group found =
      .ok ((found.zipIdx group).flatMap fun s => s.1.lineSlots s.2)) ∨
    ∃ before s after, found = before ++ s :: after ∧ Unnumbered before ∧ ¬ s.Bare ∧
      unnumberedSlots group found = .error (.mixed s.text) := by
  induction found generalizing group with
  | nil => exact .inl ⟨List.forall_mem_nil _, rfl⟩
  | cons s found ih =>
    by_cases hs : s.Bare
    · have hslots := Specifier.unnumberedSlots_of_bare hs group
      rcases ih (group + 1) with ⟨hfound, heq⟩ | ⟨before, t, after, rfl, hbefore, ht, heq⟩
      · refine .inl ⟨List.forall_mem_cons.mpr ⟨hs, hfound⟩, ?_⟩
        rw [unnumberedSlots, hslots, heq]
        rfl
      · refine .inr ⟨s :: before, t, after, rfl, List.forall_mem_cons.mpr ⟨hs, hbefore⟩, ht, ?_⟩
        rw [unnumberedSlots, hslots, heq]
        rfl
    · refine .inr ⟨[], s, found, rfl, List.forall_mem_nil _, hs, ?_⟩
      rw [unnumberedSlots, Specifier.unnumberedSlots_of_not_bare hs]
      rfl

namespace Specifier

theorem ok_mem_star {s : Specifier} {dimension : Dimension} {role : Role} {group : Nat} {u : Use} :
    .ok u ∈ uses.star s dimension role group ↔
      dimension = .star (some u.position) ∧ u.type = .int ∧ u.role = role ∧ u.group = group := by
  obtain ⟨position, type, r, g⟩ := u
  cases dimension with
  | absent => simp [uses.star]
  | literal value => simp [uses.star]
  | star position =>
    cases position with
    | none => simp [uses.star]
    | some p => simp [uses.star, eq_comm]

theorem error_mem_star {s : Specifier} {dimension : Dimension} {role : Role} {group : Nat}
    {fault : Fault} :
    .error fault ∈ uses.star s dimension role group ↔
      dimension = .star none ∧ fault = .mixed s.text := by
  cases dimension with
  | absent => simp [uses.star]
  | literal value => simp [uses.star]
  | star position =>
    cases position with
    | none => simp [uses.star]
    | some p => simp [uses.star]

theorem ok_mem_uses {s : Specifier} {u : Use} :
    .ok u ∈ s.uses ↔ s.position = some u.group ∧ s.Takes u.position u.type u.role := by
  obtain ⟨position, type, role, g⟩ := u
  unfold uses
  cases hposition : s.position with
  | none => simp
  | some group =>
    simp only [List.mem_append, ok_mem_star, List.mem_singleton, Except.ok.injEq,
      Option.some.injEq]
    constructor
    · rintro ((⟨h, rfl, rfl, rfl⟩ | ⟨h, rfl, rfl, rfl⟩) | h)
      · exact ⟨rfl, .width h⟩
      · exact ⟨rfl, .precision h⟩
      · obtain ⟨rfl, rfl, rfl, rfl⟩ := Use.mk.inj h
        exact ⟨rfl, .value hposition⟩
    · rintro ⟨rfl, h⟩
      cases h with
      | value h =>
        rw [hposition] at h
        cases h
        exact .inr rfl
      | width h => exact .inl (.inl ⟨h, rfl, rfl, rfl⟩)
      | precision h => exact .inl (.inr ⟨h, rfl, rfl, rfl⟩)

theorem error_mem_uses {s : Specifier} {fault : Fault} :
    .error fault ∈ s.uses ↔ ¬ s.Numbered ∧ fault = .mixed s.text := by
  have hnumbered : s.Numbered ↔
      s.position ≠ none ∧ s.width ≠ .star none ∧ s.precision ≠ .star none :=
    ⟨fun h => ⟨h.position, h.width, h.precision⟩, fun h => ⟨h.1, h.2.1, h.2.2⟩⟩
  rw [hnumbered]
  unfold uses
  cases s.position with
  | none => simp
  | some group =>
    simp only [List.mem_append, error_mem_star, List.mem_singleton, reduceCtorEq]
    grind

end Specifier

theorem numbered_of_uses {found : List Specifier} {uses : List Use}
    (h : found.flatMap Specifier.uses = uses.map .ok) : ∀ s ∈ found, s.Numbered := by
  intro s hs
  by_contra hn
  have hmem : .error (.mixed s.text) ∈ found.flatMap Specifier.uses :=
    List.mem_flatMap.mpr ⟨s, hs, Specifier.error_mem_uses.mpr ⟨hn, rfl⟩⟩
  rw [h] at hmem
  simp at hmem

theorem mem_uses_iff {found : List Specifier} {uses : List Use}
    (h : found.flatMap Specifier.uses = uses.map .ok) {u : Use} :
    u ∈ uses ↔ ∃ s ∈ found, s.position = some u.group ∧ s.Takes u.position u.type u.role := by
  have hmem : u ∈ uses ↔ .ok u ∈ found.flatMap Specifier.uses := by simp [h]
  simp only [hmem, List.mem_flatMap, Specifier.ok_mem_uses]

end LocaleAccessors.Format
