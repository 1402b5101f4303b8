import LocaleAccessors.Text.Numeral

/-!
What can be wrong with a strings file, and on which line.
-/

namespace LocaleAccessors.Strings
open Text (upperHex)

/-- The marker of a Unicode escape is its letter, in the case that the text has. -/
inductive Reason where
  | unterminatedComment
  | unterminatedString
  | unterminatedEscape
  | unpairedLow (marker : Char) (code : Nat)
  | unpairedHigh (marker : Char) (code : Nat)
  | unicodeEscape (marker : Char) (digits : List Char)
  | expectedString (found : Option Char)
  | expected (char : Char) (found : Option Char)
  | afterBrace
  | missingBrace
  deriving DecidableEq

/-- A fault and what is left of the text from its place on. -/
structure Fault where
  reason : Reason
  rest : List Char
  deriving DecidableEq

def foundText : Option Char → String
  | some c => String.singleton c
  | none => "end of file"

def Reason.text : Reason → String
  | .unterminatedComment => "unterminated comment"
  | .unterminatedString => "unterminated string"
  | .unterminatedEscape => "unterminated escape sequence"
  | .unpairedLow marker code =>
    "unpaired low surrogate '\\" ++ String.ofList (marker :: upperHex 4 code) ++ "'"
  | .unpairedHigh marker code =>
    "unpaired high surrogate '\\" ++ String.ofList (marker :: upperHex 4 code) ++ "'"
  | .unicodeEscape marker digits =>
    "invalid unicode escape '\\" ++ String.ofList (marker :: digits) ++ "'"
  | .expectedString found => "expected a string but found '" ++ foundText found ++ "'"
  | .expected char found =>
    "expected '" ++ String.singleton char ++ "' but found '" ++ foundText found ++ "'"
  | .afterBrace => "unexpected content after closing brace"
  | .missingBrace => "missing closing brace"

/-- The line of the place from which `rest` is left of the text, counted from one. -/
def lineOf (text rest : List Char) : Nat :=
  1 + (text.take (text.length - rest.length)).count '\n'

end LocaleAccessors.Strings
