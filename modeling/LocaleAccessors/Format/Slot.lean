import LocaleAccessors.Format.ArgumentType
import LocaleAccessors.Format.Fault

/-!
Slots: what the specifiers of a translation say about each argument. Without numbers every value,
star width and star precision takes a slot of its own. With numbers each use names its slot, and all
uses of one slot must agree in type.
-/

namespace LocaleAccessors.Format

structure Slot where
  type : ValueType
  roles : Roles
  groups : List Nat
  deriving DecidableEq

def Slot.single (type : ValueType) (role : Role) (group : Nat) : Slot :=
  ⟨type, .only role, [group]⟩

def Specifier.unnumberedSlots (s : Specifier) (group : Nat) : Except Fault (List Slot) :=
  match s.position, s.width, s.precision with
  | some _, _, _ | _, .star (some _), _ | _, _, .star (some _) => .error (.mixed s.text)
  | none, width, precision =>
    .ok (star width .width ++ star precision .precision ++ [.single s.valueType .value group])
where
  star (dimension : Dimension) (role : Role) : List Slot :=
    match dimension with
    | .star _ => [.single .int role group]
    | _ => []

def unnumberedSlots (group : Nat) : List Specifier → Except Fault (List Slot)
  | [] => .ok []
  | s :: rest => do
    let here ← s.unnumberedSlots group
    let others ← unnumberedSlots (group + 1) rest
    return here ++ others

structure Use where
  position : Nat
  type : ValueType
  role : Role
  group : Nat
  deriving DecidableEq

def Use.slot (use : Use) : Slot :=
  .single use.type use.role use.group

/-- What one specifier uses in a text with numbers, in reading order. A place that names no position
is a fault; what comes after it does not matter. -/
def Specifier.uses (s : Specifier) : List (Except Fault Use) :=
  match s.position with
  | none => [.error (.mixed s.text)]
  | some group =>
    star s.width .width group ++ star s.precision .precision group ++
      [.ok ⟨group, s.valueType, .value, group⟩]
where
  star (dimension : Dimension) (role : Role) (group : Nat) : List (Except Fault Use) :=
    match dimension with
    | .star (some position) => [.ok ⟨position, .int, role, group⟩]
    | .star none => [.error (.mixed s.text)]
    | _ => []

def insertGroup (group : Nat) : List Nat → List Nat
  | [] => [group]
  | g :: rest =>
    if group < g then group :: g :: rest
    else if group = g then g :: rest
    else g :: insertGroup group rest

def Slot.add (slot : Slot) (use : Use) : Slot :=
  { slot with roles := slot.roles.insert use.role, groups := insertGroup use.group slot.groups }

abbrev SlotMap := List (Nat × Slot)

def SlotMap.add (use : Use) : SlotMap → Except Fault SlotMap
  | [] => .ok [(use.position, use.slot)]
  | (position, slot) :: rest =>
    if use.position < position then .ok ((use.position, use.slot) :: (position, slot) :: rest)
    else if use.position = position then
      if slot.type = use.type then .ok ((position, slot.add use) :: rest)
      else .error (.conflicting position slot.type use.type)
    else (SlotMap.add use rest).map ((position, slot) :: ·)

def SlotMap.addAll : SlotMap → List (Except Fault Use) → Except Fault SlotMap
  | slots, [] => .ok slots
  | slots, use :: rest => do (← slots.add (← use)).addAll rest

def firstGaps : Nat → Nat → List Nat → List Nat
  | _, _, [] => []
  | limit, expected, position :: rest =>
    let here := min limit (position - expected)
    List.range' expected here ++ firstGaps (limit - here) (position + 1) rest

def SlotMap.dense (slots : SlotMap) : Except Fault (List Slot) :=
  let positions := slots.map Prod.fst
  let highest := positions.getLast?.getD 0
  if slots.length = highest then
    (List.range' 1 highest).mapM fun position =>
      match slots.lookup position with
      | some slot => .ok slot
      | none => .error (.unfilled position)
  else
    .error (.sparse (firstGaps Fault.maxListed 1 positions) (highest - slots.length : Int))

def numberedSlots (specifiers : List Specifier) : Except Fault (List Slot) := do
  (← SlotMap.addAll [] (specifiers.flatMap Specifier.uses)).dense

end LocaleAccessors.Format
