/-!
Format specifiers: the placeholders of a translation, such as `%@` or `%2$-8.*1$ld`. A specifier may
name the position of its argument, and its width and precision may be taken from arguments too.
-/

namespace LocaleAccessors.Format

inductive Conversion where
  | object
  | decimal | longDecimal | integer
  | unsigned | longUnsigned
  | hex | upperHex
  | octal | longOctal
  | fixed | upperFixed
  | exponent | upperExponent | general | upperGeneral
  | hexFloat | upperHexFloat
  | character | unichar | pointer
  deriving DecidableEq

def Conversion.char : Conversion → Char
  | .object => '@'
  | .decimal => 'd' | .longDecimal => 'D' | .integer => 'i'
  | .unsigned => 'u' | .longUnsigned => 'U'
  | .hex => 'x' | .upperHex => 'X'
  | .octal => 'o' | .longOctal => 'O'
  | .fixed => 'f' | .upperFixed => 'F'
  | .exponent => 'e' | .upperExponent => 'E' | .general => 'g' | .upperGeneral => 'G'
  | .hexFloat => 'a' | .upperHexFloat => 'A'
  | .character => 'c' | .unichar => 'C' | .pointer => 'p'

def Conversion.ofChar? : Char → Option Conversion
  | '@' => some .object
  | 'd' => some .decimal | 'D' => some .longDecimal | 'i' => some .integer
  | 'u' => some .unsigned | 'U' => some .longUnsigned
  | 'x' => some .hex | 'X' => some .upperHex
  | 'o' => some .octal | 'O' => some .longOctal
  | 'f' => some .fixed | 'F' => some .upperFixed
  | 'e' => some .exponent | 'E' => some .upperExponent
  | 'g' => some .general | 'G' => some .upperGeneral
  | 'a' => some .hexFloat | 'A' => some .upperHexFloat
  | 'c' => some .character | 'C' => some .unichar | 'p' => some .pointer
  | _ => none

inductive Kind where
  | object | signed | unsigned | hex | octal | float | scientific | hexFloat
  | character | unichar | pointer
  deriving DecidableEq

def Kind.name : Kind → String
  | .object => "object" | .signed => "signed" | .unsigned => "unsigned" | .hex => "hex"
  | .octal => "octal" | .float => "float" | .scientific => "scientific"
  | .hexFloat => "hex_float" | .character => "character" | .unichar => "unichar"
  | .pointer => "pointer"

def Conversion.kind : Conversion → Kind
  | .object => .object
  | .decimal | .longDecimal | .integer => .signed
  | .unsigned | .longUnsigned => .unsigned
  | .hex | .upperHex => .hex
  | .octal | .longOctal => .octal
  | .fixed | .upperFixed => .float
  | .exponent | .upperExponent | .general | .upperGeneral => .scientific
  | .hexFloat | .upperHexFloat => .hexFloat
  | .character => .character | .unichar => .unichar | .pointer => .pointer

inductive Length where
  | hh | h | l | ll | q | upperL | z | t | j
  deriving DecidableEq

def Length.text : Length → String
  | .hh => "hh" | .h => "h" | .l => "l" | .ll => "ll" | .q => "q" | .upperL => "L"
  | .z => "z" | .t => "t" | .j => "j"

/-- The set of flags of a specifier; repeating a flag changes nothing. -/
structure Flags where
  space : Bool := false
  alternate : Bool := false
  grouping : Bool := false
  sign : Bool := false
  left : Bool := false
  zero : Bool := false
  deriving DecidableEq

def isFlag (c : Char) : Bool :=
  c ∈ [' ', '#', '\'', '+', '-', '0']

def Flags.ofChars (cs : List Char) : Flags where
  space := ' ' ∈ cs
  alternate := '#' ∈ cs
  grouping := '\'' ∈ cs
  sign := '+' ∈ cs
  left := '-' ∈ cs
  zero := '0' ∈ cs

def Flags.chars (f : Flags) : List Char :=
  [(f.space, ' '), (f.alternate, '#'), (f.grouping, '\''), (f.sign, '+'), (f.left, '-'),
    (f.zero, '0')].filterMap fun (on, c) => if on then some c else none

/-- A width or a precision: absent, a number, or an argument, at an explicit position or next in
line. -/
inductive Dimension where
  | absent
  | literal (value : Nat)
  | star (position : Option Nat)
  deriving DecidableEq

structure Fields where
  position : Option Nat := none
  flags : Flags := {}
  width : Dimension := .absent
  precision : Dimension := .absent
  length : Option Length := none
  conversion : Conversion
  deriving DecidableEq

/-- A specifier of a translation: its parts, its spelling, and the offset of its percent sign. The
kind is the conversion's own, unless the specifier was built otherwise. -/
structure Specifier extends Fields where
  kind : Kind := conversion.kind
  text : String := ""
  start : Nat := 0
  deriving DecidableEq

end LocaleAccessors.Format
