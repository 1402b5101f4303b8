/-!
Numerals in small bases: digits of a number, padded to a width, and the number of some digits.
-/

namespace LocaleAccessors.Text

/-- The digits of `n` from the most significant on, with zeros in front up to `width` digits. -/
def numeral (base width n : Nat) : List Char :=
  (Nat.toDigits base n).leftpad width '0'

def hexValue? (c : Char) : Option Nat :=
  if '0' ≤ c ∧ c ≤ '9' then some (c.toNat - '0'.toNat)
  else if 'a' ≤ c ∧ c ≤ 'f' then some (c.toNat - 'a'.toNat + 10)
  else if 'A' ≤ c ∧ c ≤ 'F' then some (c.toNat - 'A'.toNat + 10)
  else none

def octalValue? (c : Char) : Option Nat :=
  if '0' ≤ c ∧ c ≤ '7' then some (c.toNat - '0'.toNat) else none

def numeralValue (base : Nat) (digits : List Nat) : Nat :=
  digits.foldl (fun n d => base * n + d) 0

def decimalValue (digits : List Char) : Nat :=
  numeralValue 10 (digits.map fun d => d.toNat - '0'.toNat)

/-- The most digits that a decimal number is read from, and the most that it is spelled with. -/
def maxDigits : Nat := 4300

def unreadNumber (digits : Nat) : String :=
  "Exceeds the limit (4300 digits) for integer string conversion: value has " ++ toString digits ++
    " digits; use sys.set_int_max_str_digits() to increase the limit"

def unspelledNumber : String :=
  "Exceeds the limit (4300 digits) for integer string conversion; use " ++
    "sys.set_int_max_str_digits() to increase the limit"

def upperHex (width n : Nat) : List Char :=
  (numeral 16 width n).map Char.toUpper

end LocaleAccessors.Text
