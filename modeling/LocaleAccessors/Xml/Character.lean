/-!
The characters of XML texts.
-/

namespace LocaleAccessors.Xml

def isSpace (c : Char) : Bool :=
  c ∈ [' ', '\t', '\n', '\r']

def isAllowed (n : Nat) : Bool :=
  n ∈ [0x09, 0x0A, 0x0D] || (0x20 ≤ n && n < 0xD800) || (0xE000 ≤ n && n < 0xFFFE) ||
    (0x10000 ≤ n && n < 0x110000)

def isCharacter (c : Char) : Bool :=
  isAllowed c.toNat

def normalizeBreaks : List Char → List Char
  | [] => []
  | '\r' :: '\n' :: rest => '\n' :: normalizeBreaks rest
  | '\r' :: rest => '\n' :: normalizeBreaks rest
  | c :: rest => c :: normalizeBreaks rest

end LocaleAccessors.Xml
