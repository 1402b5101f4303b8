/-!
Text that may hold surrogates on their own. JSON can spell such text, so it is kept as a list of code
points until it is known to be made of characters.
-/

namespace LocaleAccessors.Text

/-- A character, or one of the 2048 code points that stand for half a character in UTF-16. -/
inductive CodePoint where
  | scalar (c : Char)
  | surrogate (half : Fin 0x800)
  deriving DecidableEq

def CodePoint.value : CodePoint → Nat
  | .scalar c => c.toNat
  | .surrogate half => 0xD800 + half

/-- Every number below `0x110000` names a code point; the others are read as the last one. -/
def CodePoint.ofNat (n : Nat) : CodePoint :=
  if h : 0xD800 ≤ n ∧ n < 0xE000 then .surrogate ⟨n - 0xD800, by omega⟩
  else if n < 0x110000 then .scalar (Char.ofNat n)
  else .scalar (Char.ofNat 0x10FFFF)

def CodePoint.char? : CodePoint → Option Char
  | .scalar c => some c
  | .surrogate _ => none

def codePoints (s : String) : List CodePoint :=
  s.toList.map .scalar

def characters? (cs : List CodePoint) : Option String :=
  (cs.mapM CodePoint.char?).map String.ofList

end LocaleAccessors.Text
