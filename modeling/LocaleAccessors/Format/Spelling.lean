import LocaleAccessors.Format.Fault
import LocaleAccessors.Format.Specifier
import LocaleAccessors.Text.Numeral

/-!
Spellings of specifiers. A spelling keeps the characters of every part; its numbers are read one by
one, and the first one that has too many digits ends the reading.
-/

namespace LocaleAccessors.Format
open Text (decimalValue maxDigits)

inductive Extent where
  | digits (ds : List Char)
  | star (position : Option (List Char))
  deriving DecidableEq

structure Spelling where
  position : Option (List Char)
  flags : List Char
  width : Option Extent
  precision : Option Extent
  length : Option Length
  conversion : Conversion
  deriving DecidableEq

/-- The number that some digits spell. Zeros in front count as digits, too. -/
def readNumber (digits : List Char) : Except Fault Nat :=
  if digits.length ≤ maxDigits then .ok (decimalValue digits) else .error (.unread digits.length)

def readPositionNumber (position : Option (List Char)) : Except Fault (Option Nat) :=
  match position with
  | none => .ok none
  | some ds => (readNumber ds).map some

def Extent.read : Option Extent → Except Fault Dimension
  | none => .ok .absent
  | some (.digits ds) => (readNumber ds).map .literal
  | some (.star position) => (readPositionNumber position).map .star

def Spelling.read (s : Spelling) : Except Fault Fields := do
  let position ← readPositionNumber s.position
  let width ← Extent.read s.width
  let precision ← Extent.read s.precision
  return ⟨position, Flags.ofChars s.flags, width, precision, s.length, s.conversion⟩

end LocaleAccessors.Format
