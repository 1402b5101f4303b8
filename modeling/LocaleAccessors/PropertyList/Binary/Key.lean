import LocaleAccessors.PropertyList.Binary.Object
import LocaleAccessors.Table.Entry

/-!
Which keys of a dictionary are one and the same: numbers of one value, however they are written, and
other objects of one kind and value.
-/

namespace LocaleAccessors.PropertyList.Binary
open Table (Item Label)
open Text (CodePoint Double)

/-- What tells keys apart. Truth values are the numbers zero and one, and numbers are counted in units
so small that all of them are whole. A number that is none is equal to nothing but itself, and so its
place tells it. -/
inductive Identity where
  | null
  | number (units : Int)
  | infinite (negative : Bool)
  | unequal (place : Nat)
  | date (m : Moment)
  | bytes (bs : List UInt8)
  | text (s : List CodePoint)
  | reference (n : Nat)
  deriving DecidableEq

def inUnits (n : Int) : Int :=
  n * ((1 <<< 1074 : Nat) : Int)

def floatIdentity (place : Nat) : Double → Identity
  | .nan => .unequal place
  | .infinite negative => .infinite negative
  | .finite negative significand exponent =>
    let units : Int := significand <<< (exponent + 1074).toNat
    .number (if negative then -units else units)

def Object.identity (place : Nat) : Object → Identity
  | .null => .null
  | .bool b => .number (inUnits (if b then 1 else 0))
  | .integer n => .number (inUnits n)
  | .float x => floatIdentity place x
  | .date m => .date m
  | .bytes bs => .bytes bs
  | .text s => .text s
  | .reference n => .reference n
  | .array _ | .dictionary _ _ => .unequal place

structure Member where
  identity : Identity
  label : Label
  item : Item

/-- The dictionary that some members make up one after the other. A key keeps the form in which it
first came. -/
def assignMembers (members : List Member) : List (Label × Item) :=
  (Table.assignAll (members.map fun m => (m.identity, m.item))).filterMap fun (identity, item) =>
    (members.find? (·.identity = identity)).map fun m => (m.label, item)

end LocaleAccessors.PropertyList.Binary
