import LocaleAccessors.Text.Numeral

/-!
What can be wrong with a JSON text, and where.
-/

namespace LocaleAccessors.Json

inductive Reason where
  | byteOrderMark
  | value
  | propertyName
  | colon
  | comma
  | extraData
  | unterminatedText
  | controlCharacter
  | escape
  | unicodeEscape
  | longInteger (digits : Nat)
  | nestedArray
  | nestedObject
  deriving DecidableEq

/-- A fault and what is left of the text from its place on. -/
structure Fault where
  reason : Reason
  rest : List Char
  deriving DecidableEq

def Reason.text : Reason → String
  | .byteOrderMark => "Unexpected UTF-8 BOM (decode using utf-8-sig)"
  | .value => "Expecting value"
  | .propertyName => "Expecting property name enclosed in double quotes"
  | .colon => "Expecting ':' delimiter"
  | .comma => "Expecting ',' delimiter"
  | .extraData => "Extra data"
  | .unterminatedText => "Unterminated string starting at"
  | .controlCharacter => "Invalid control character at"
  | .escape => "Invalid \\escape"
  | .unicodeEscape => "Invalid \\uXXXX escape"
  | .longInteger digits => Text.unreadNumber digits
  | .nestedArray =>
    "maximum recursion depth exceeded while decoding a JSON array from a unicode string"
  | .nestedObject =>
    "maximum recursion depth exceeded while decoding a JSON object from a unicode string"

/-- Long integers and deep nesting are faults of no place: the text may well be sound, but its reading
is given up. -/
def Reason.isLimit : Reason → Bool
  | .longInteger _ | .nestedArray | .nestedObject => true
  | _ => false

/-- The place of a fault. Lines and columns count from one, characters from zero, and only a newline
ends a line. -/
def place (text rest : List Char) : String :=
  let before := text.take (text.length - rest.length)
  let line := before.count '\n' + 1
  let column := (before.reverse.takeWhile (· ≠ '\n')).length + 1
  "line " ++ toString line ++ " column " ++ toString column ++ " (char " ++
    toString before.length ++ ")"

def Fault.message (f : Fault) (text : List Char) : String :=
  if f.reason.isLimit then f.reason.text else f.reason.text ++ ": " ++ place text f.rest

end LocaleAccessors.Json
