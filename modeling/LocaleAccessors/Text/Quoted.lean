import LocaleAccessors.Text.CodePoint
import LocaleAccessors.Text.Numeral
import LocaleAccessors.Text.Printable

/-!
The quoted form of a text in diagnostics. It stands in single quotes, or in double quotes where the
text holds single quotes only, and it shows every character that does not print as an escape.
-/

namespace LocaleAccessors.Text

def quoteMark (cs : List CodePoint) : Char :=
  if .scalar '\'' ∈ cs ∧ .scalar '"' ∉ cs then '"' else '\''

def numericEscape (n : Nat) : List Char :=
  if n < 0x100 then '\\' :: 'x' :: numeral 16 2 n
  else if n < 0x10000 then '\\' :: 'u' :: numeral 16 4 n
  else '\\' :: 'U' :: numeral 16 8 n

def quotedChar (mark : Char) : CodePoint → List Char
  | .surrogate half => numericEscape (0xD800 + half)
  | .scalar '\\' => ['\\', '\\']
  | .scalar '\t' => ['\\', 't']
  | .scalar '\n' => ['\\', 'n']
  | .scalar '\r' => ['\\', 'r']
  | .scalar c =>
    if c = mark then ['\\', c]
    else if isPrintable c then [c]
    else numericEscape c.toNat

def quoted (cs : List CodePoint) : String :=
  let mark := quoteMark cs
  String.ofList (mark :: cs.flatMap (quotedChar mark) ++ [mark])

/-- The quoted form of bytes, in which only the printable characters of ASCII show as such. -/
def quotedBytes (bytes : List UInt8) : String :=
  let cs := bytes.map fun b => CodePoint.scalar (Char.ofNat b.toNat)
  let mark := quoteMark cs
  let shown (c : CodePoint) : List Char :=
    match c with
    | .scalar c => if c < '\x7f' then quotedChar mark (.scalar c) else numericEscape c.toNat
    | c => quotedChar mark c
  String.ofList ('b' :: mark :: cs.flatMap shown ++ [mark])

end LocaleAccessors.Text
