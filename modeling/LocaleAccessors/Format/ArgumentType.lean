import LocaleAccessors.Format.Argument
import LocaleAccessors.Format.Specifier

/-!
The type of the argument that a specifier prints.
-/

namespace LocaleAccessors.Format

def signedType : Option Length → ValueType
  | none => .int
  | some .hh => .int8
  | some .h => .int16
  | some .l | some .z | some .t => .long
  | some .ll | some .q | some .j | some .upperL => .int64

def unsignedType : Option Length → ValueType
  | none => .uint
  | some .hh => .uint8
  | some .h => .uint16
  | some .l | some .z | some .t => .ulong
  | some .ll | some .q | some .j | some .upperL => .uint64

/-- The conversions `D`, `U` and `O` read at least a `long`. -/
def Conversion.widened : Conversion → Option Length → Option Length
  | .longDecimal, length | .longUnsigned, length | .longOctal, length =>
    match length with
    | some .ll | some .q | some .j | some .upperL => length
    | _ => some .l
  | _, length => length

def Specifier.valueType (s : Specifier) : ValueType :=
  match s.kind with
  | .object => .object
  | .float | .scientific | .hexFloat => .double
  | .character => .char
  | .unichar => .unichar
  | .pointer => .pointer
  | .signed => signedType (s.conversion.widened s.length)
  | .unsigned | .hex | .octal => unsignedType (s.conversion.widened s.length)

end LocaleAccessors.Format
