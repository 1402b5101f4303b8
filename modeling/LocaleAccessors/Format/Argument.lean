/-!
Arguments of a translation: what a caller passes to fill the specifiers in.
-/

namespace LocaleAccessors.Format

inductive ValueType where
  | object | char | unichar
  | int | int8 | int16 | long | int64
  | uint | uint8 | uint16 | ulong | uint64
  | double | pointer
  deriving DecidableEq

def ValueType.name : ValueType → String
  | .object => "object" | .char => "char" | .unichar => "unichar"
  | .int => "int" | .int8 => "int8" | .int16 => "int16" | .long => "long" | .int64 => "int64"
  | .uint => "uint" | .uint8 => "uint8" | .uint16 => "uint16" | .ulong => "ulong"
  | .uint64 => "uint64"
  | .double => "double" | .pointer => "pointer"

inductive Role where
  | value
  | width
  | precision
  deriving DecidableEq

structure Roles where
  value : Bool := false
  width : Bool := false
  precision : Bool := false
  deriving DecidableEq

namespace Roles

def insert (r : Roles) : Role → Roles
  | .value => { r with value := true }
  | .width => { r with width := true }
  | .precision => { r with precision := true }

def only (role : Role) : Roles :=
  insert {} role

def names (r : Roles) : List String :=
  [(r.precision, "precision"), (r.value, "value"), (r.width, "width")].filterMap
    fun (plays, name) => if plays then some name else none

def label (r : Roles) : String :=
  if r.value then "value"
  else if r.width && r.precision then "options"
  else if r.width then "width"
  else "precision"

end Roles

/-- A parameter of an accessor. Its groups are the numbers, in ascending order, of the specifiers
that it feeds. -/
structure Argument where
  name : String
  type : ValueType
  groups : List Nat
  position : Nat
  roles : Roles
  deriving DecidableEq

end LocaleAccessors.Format
