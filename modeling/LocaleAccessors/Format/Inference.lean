import LocaleAccessors.Format.ParameterName
import LocaleAccessors.Format.Scan

/-!
The arguments of a translation. The first specifier decides whether all of them name the positions
of their arguments or none does.
-/

namespace LocaleAccessors.Format

def slotsOf (specifiers : List Specifier) : Except Fault (List Slot × Nat) :=
  match specifiers with
  | [] => .ok ([], 0)
  | first :: _ =>
    match first.position with
    | some _ => do
      let slots ← numberedSlots specifiers
      return (slots, (specifiers.map (·.position)).eraseDups.length)
    | none => do
      let slots ← unnumberedSlots 1 specifiers
      return (slots, specifiers.length)

def argumentsFrom (position : Nat) : List Slot → List String → List Argument
  | slot :: slots, name :: names =>
    ⟨name, slot.type, slot.groups, position, slot.roles⟩ :: argumentsFrom (position + 1) slots names
  | _, _ => []

def infer (specifiers : List Specifier) : Except Fault (List Argument) := do
  let (slots, groupCount) ← (slotsOf specifiers).mapError Fault.raised
  return argumentsFrom 1 slots (parameterNames groupCount slots)

def inferText (text : String) : Except Fault (List Argument) := do
  infer (← specifiers text)

end LocaleAccessors.Format
