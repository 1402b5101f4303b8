import LocaleAccessors.Format.Scan

/-!
The grammar of specifiers. One specifier can be spelled in several ways, and each spelling has its own
meaning.
-/

namespace LocaleAccessors.Format
open Text (decimalValue)

/-- The digits of a position: a number from one on, without a leading zero. -/
def IsPosition (digits : List Char) : Prop :=
  digits ≠ [] ∧ (∀ d ∈ digits, d.isDigit) ∧ digits.head? ≠ some '0'

def positionChars : Option (List Char) → List Char
  | none => []
  | some ds => ds ++ ['$']

namespace Extent

def Valid : Extent → Prop
  | digits ds => ∀ d ∈ ds, d.isDigit
  | star position => ∀ ds ∈ position, IsPosition ds

def chars : Extent → List Char
  | digits ds => ds
  | star position => '*' :: positionChars position

def dimension : Extent → Dimension
  | digits ds => .literal (decimalValue ds)
  | star position => .star (position.map decimalValue)

end Extent

def widthChars : Option Extent → List Char
  | none => []
  | some e => e.chars

def precisionChars : Option Extent → List Char
  | none => []
  | some e => '.' :: e.chars

def lengthChars : Option Length → List Char
  | none => []
  | some length => length.text.toList

def dimensionOf : Option Extent → Dimension
  | none => .absent
  | some e => e.dimension

namespace Spelling

/-- Only a precision may have no digits after its point. -/
structure Valid (s : Spelling) : Prop where
  position : ∀ ds ∈ s.position, IsPosition ds
  flags : ∀ c ∈ s.flags, isFlag c
  width : ∀ e ∈ s.width, e.Valid ∧ e ≠ .digits []
  precision : ∀ e ∈ s.precision, e.Valid

def chars (s : Spelling) : List Char :=
  positionChars s.position ++ s.flags ++ widthChars s.width ++ precisionChars s.precision ++
    lengthChars s.length ++ [s.conversion.char]

def fields (s : Spelling) : Fields :=
  ⟨s.position.map decimalValue, Flags.ofChars s.flags, dimensionOf s.width,
    dimensionOf s.precision, s.length, s.conversion⟩

/-- No zero that could be a flag is counted to the width. -/
def Normal (s : Spelling) : Prop :=
  ∀ ds, s.width = some (.digits ds) → ds.head? ≠ some '0'

def widthOf : List Char → Option Extent
  | [] => none
  | ds => some (.digits ds)

/-- The same characters with the zeros in front of the width counted as flags. -/
def normal (s : Spelling) : Spelling :=
  match s.width with
  | some (.digits ds) =>
    { s with
      flags := s.flags ++ ds.takeWhile (· = '0')
      width := widthOf (ds.dropWhile (· = '0')) }
  | _ => s

end Spelling

/-- A doubled percent sign or a specifier stands at the front of the text. -/
def Opens (text : List Char) : Prop :=
  (∃ rest, text = '%' :: '%' :: rest) ∨
    ∃ (s : Spelling) (rest : List Char), s.Valid ∧ text = '%' :: (s.chars ++ rest)

inductive Mark where
  | doubled (start : Nat)
  | found (f : Found)

namespace Mark

def found? : Mark → Option Found
  | doubled _ => none
  | found f => some f

def start : Mark → Nat
  | doubled start => start
  | found f => f.start

def stop : Mark → Nat
  | doubled start => start + 2
  | found f => f.start + f.text.toList.length

/-- The text has at the start of the mark what the mark says. -/
def Stands (text : List Char) : Mark → Prop
  | doubled start => ['%', '%'] <+: text.drop start
  | found f => f.text.toList <+: text.drop f.start ∧ f.spelling.Valid ∧ f.spelling.Normal ∧
      f.text.toList = '%' :: f.spelling.chars

end Mark

structure Specifier.Positive (s : Specifier) : Prop where
  position : ∀ p, s.position = some p → 1 ≤ p
  width : ∀ p, s.width = .star (some p) → 1 ≤ p
  precision : ∀ p, s.precision = .star (some p) → 1 ≤ p

end LocaleAccessors.Format
