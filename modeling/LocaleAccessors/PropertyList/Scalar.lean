import LocaleAccessors.Text.Ranges
import LocaleAccessors.Text.Number
import LocaleAccessors.Text.Numeral

/-!
Which texts spell the numbers and data of property lists.
-/

namespace LocaleAccessors.PropertyList
open Text (isBlank isDecimalDigit hexValue? decimalValue maxDigits trimBlanks)

def isDigitRun (p : Char → Bool) : List Char → Bool
  | [] => false
  | [c] => p c
  | c :: '_' :: rest => p c && isDigitRun p rest
  | c :: rest => p c && isDigitRun p rest

def withoutSign : List Char → List Char
  | '+' :: rest => rest
  | '-' :: rest => rest
  | cs => cs

def isHexDigit (c : Char) : Bool :=
  (hexValue? c).isSome || isDecimalDigit c

def isHexRun (cs : List Char) : Bool :=
  let digits :=
    match cs with
    | '_' :: digits => digits
    | digits => digits
  isDigitRun isHexDigit (digits.takeWhile fun c => !isBlank c) &&
    (digits.dropWhile fun c => !isBlank c).all isBlank

def isInteger (cs : List Char) : Bool :=
  match cs with
  | '0' :: 'x' :: digits | '0' :: 'X' :: digits => isHexRun digits
  | cs =>
    let digits := withoutSign (trimBlanks cs)
    isDigitRun isDecimalDigit digits && (digits.filter (· ≠ '_')).length ≤ maxDigits

def cutAt (p : Char → Bool) (cs : List Char) : List Char × Option (List Char) :=
  match cs.dropWhile fun c => !p c with
  | [] => (cs, none)
  | _ :: rest => (cs.takeWhile fun c => !p c, some rest)

def isDecimal (cs : List Char) : Bool :=
  match cutAt (· = '.') cs with
  | (digits, none) => isDigitRun isDecimalDigit digits
  | ([], some fraction) => isDigitRun isDecimalDigit fraction
  | (whole, some []) => isDigitRun isDecimalDigit whole
  | (whole, some fraction) =>
    isDigitRun isDecimalDigit whole && isDigitRun isDecimalDigit fraction

def isReal (cs : List Char) : Bool :=
  let number := withoutSign (trimBlanks cs)
  if String.ofList (number.map Char.toLower) ∈ ["inf", "infinity", "nan"] then true
  else
    match cutAt (fun c => c = 'e' || c = 'E') number with
    | (decimal, none) => isDecimal decimal
    | (decimal, some exponent) =>
      isDecimal decimal && isDigitRun isDecimalDigit (withoutSign exponent)

/-- Where a reader of Base64 stands: how many characters of a group of four it has, and how many
signs of padding came since the last of them. -/
structure Base64 where
  taken : Nat
  padding : Nat

def isBase64Digit (c : Char) : Bool :=
  c.isAlphanum || c ∈ ['+', '/']

/-- Characters outside the alphabet are passed over, and so is everything after a padded group. -/
def Base64.accepts (s : Base64) : List Char → Bool
  | [] => s.taken = 0
  | c :: rest =>
    if c = '=' then
      if 2 ≤ s.taken then
        if 4 ≤ s.taken + s.padding + 1 then true
        else Base64.accepts ⟨s.taken, s.padding + 1⟩ rest
      else s.accepts rest
    else if isBase64Digit c then Base64.accepts ⟨(s.taken + 1) % 4, 0⟩ rest
    else s.accepts rest

def isData (cs : List Char) : Bool :=
  Base64.accepts ⟨0, 0⟩ cs

end LocaleAccessors.PropertyList
