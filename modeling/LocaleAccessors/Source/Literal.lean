import LocaleAccessors.Language
import LocaleAccessors.Text.Numeral

/-!
The bodies of string literals. Quotes, backslashes and control characters are escaped; every other
character stands for itself.
-/

namespace LocaleAccessors.Source
open Text (numeral)

/-- The escape of a control character without a name. Three octal digits are the most that an escape
of C takes, so that a digit after it stays outside. -/
def controlEscape (language : Language) (c : Char) : List Char :=
  match language with
  | .swift => '\\' :: 'u' :: '\x7b' :: numeral 16 0 c.toNat ++ ['\x7d']
  | .objectiveC => '\\' :: numeral 8 3 c.toNat

def escapeChar (language : Language) : Char → List Char
  | '\\' => ['\\', '\\']
  | '"' => ['\\', '"']
  | '\n' => ['\\', 'n']
  | '\r' => ['\\', 'r']
  | '\t' => ['\\', 't']
  | c => if c.toNat < 0x20 ∨ c.toNat = 0x7F then controlEscape language c else [c]

def escape (language : Language) (text : String) : String :=
  String.ofList (text.toList.flatMap (escapeChar language))

end LocaleAccessors.Source
