import LocaleAccessors.Format.Argument
import LocaleAccessors.Text.Numeral

/-!
What can be wrong with the specifiers of a translation. Only mixed numbering, conflicting types and
gaps are faults of the translation; the others break the reading off.
-/

namespace LocaleAccessors.Format

/-- The positions listed as missing are the first ones. How many are missing is the highest position
less the number of the used ones, which falls below zero only where the position zero is used. -/
inductive Fault where
  | mixed (specifier : String)
  | conflicting (position : Nat) (first second : ValueType)
  | sparse (missing : List Nat) (count : Int)
  | unfilled (position : Nat)
  | unread (digits : Nat)
  | unspelled
  deriving DecidableEq

def Fault.breaks : Fault → Bool
  | .unfilled _ | .unread _ | .unspelled => true
  | _ => false

def Fault.maxListed : Nat := 10

def Fault.message : Fault → String
  | .mixed specifier => "Numbered and unnumbered arguments are mixed at '" ++ specifier ++ "'"
  | .conflicting position first second =>
    "Argument " ++ toString position ++ " is used as both " ++ first.name ++ " and " ++ second.name
  | .sparse missing count =>
    let more := count - missing.length
    "Argument positions are not contiguous; missing " ++
      ", ".intercalate (missing.map toString) ++
      (if 0 < more then " and " ++ toString more ++ " more" else "")
  | .unfilled position => toString position
  | .unread digits => Text.unreadNumber digits
  | .unspelled => Text.unspelledNumber

def Fault.numbers : Fault → List Int
  | .conflicting position _ _ => [(position : Int)]
  | .sparse missing count =>
    let more := count - missing.length
    missing.map Int.ofNat ++ if 0 < more then [more] else []
  | _ => []

def Fault.isSpelled (fault : Fault) : Bool :=
  fault.numbers.all fun n => n < (Nat.pow 10 Text.maxDigits : Nat)

/-- The fault that is raised. The message is spelled at once, and no number of it may be too long. -/
def Fault.raised (fault : Fault) : Fault :=
  if fault.isSpelled then fault else .unspelled

end LocaleAccessors.Format
