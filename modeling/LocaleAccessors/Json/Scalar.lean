import LocaleAccessors.Json.Fault
import LocaleAccessors.Json.Value
import LocaleAccessors.Text.Numeral
import LocaleAccessors.Text.Read
import LocaleAccessors.Text.Utf16

/-!
Texts and numbers of JSON, read from the front of a list of characters.
-/

namespace LocaleAccessors.Json
open Text (CodePoint Read readChar readRun hexValue? numeralValue decimalValue maxDigits)
open Text.Utf16 (isHigh isLow joinPair)

/-- Four hexadecimal digits. They need something after them, for a text cannot end there. -/
def readHex4 (cs : List Char) : Option (Read Nat cs) :=
  match cs with
  | a :: b :: c :: d :: _ :: _ =>
    ([a, b, c, d].mapM hexValue?).map fun digits =>
      (Read.first (numeralValue 16 digits)).after.after.after
  | _ => none

def readLowEscape (cs : List Char) : Except Fault (Option (Read Nat cs)) :=
  match cs with
  | '\\' :: 'u' :: digits =>
    match readHex4 digits with
    | none => .error ⟨.unicodeEscape, 'u' :: digits⟩
    | some low => .ok (if isLow low.value then some low.after.after else none)
  | _ => .ok none

/-- The code point of the escape `\u` at `cs`, which starts at the letter. A high surrogate takes the
escape after it along, if that one is a low surrogate. -/
def readUnicode (cs : List Char) : Except Fault (Read CodePoint cs) :=
  match cs with
  | [] => .error ⟨.unicodeEscape, []⟩
  | u :: digits =>
    match readHex4 digits with
    | none => .error ⟨.unicodeEscape, u :: digits⟩
    | some high =>
      if isHigh high.value then do
        match ← readLowEscape high.rest with
        | some low => return (high.follow (fun h l => .ofNat (joinPair h l)) low).after
        | none => return (high.map .ofNat).after
      else .ok (high.map .ofNat).after

def simpleEscape? : Char → Option Char
  | '"' => some '"'
  | '\\' => some '\\'
  | '/' => some '/'
  | 'b' => some '\x08'
  | 'f' => some '\x0C'
  | 'n' => some '\n'
  | 'r' => some '\r'
  | 't' => some '\t'
  | _ => none

/-- The rest of a text after its opening quote. The whole of it, quote included, is `opening`, where
a text without end is at fault. -/
def readText (opening cs : List Char) : Except Fault (Read (List CodePoint) cs) :=
  match cs with
  | [] => .error ⟨.unterminatedText, opening⟩
  | '"' :: _ => .ok (.first [])
  | '\\' :: [] => .error ⟨.unterminatedText, opening⟩
  | '\\' :: 'u' :: digits => do
    let c ← readUnicode ('u' :: digits)
    let s ← readText opening c.rest
    return (c.follow List.cons s).after
  | '\\' :: e :: rest =>
    match simpleEscape? e with
    | some c => do
      let s ← readText opening rest
      return (s.map (.scalar c :: ·)).after.after
    | none => .error ⟨.escape, '\\' :: e :: rest⟩
  | c :: rest =>
    if c.toNat < 0x20 then .error ⟨.controlCharacter, c :: rest⟩
    else do
      let s ← readText opening rest
      return (s.map (.scalar c :: ·)).after
termination_by cs.length
decreasing_by
  · exact Nat.lt_succ_of_lt c.shorter
  · simp only [List.length_cons]; omega
  · exact Nat.lt_succ_self _

def readWhole (cs : List Char) : Option (Read (List Char) cs) :=
  match cs with
  | '0' :: _ => some (.first ['0'])
  | cs => readRun Char.isDigit cs

def readFraction (cs : List Char) : Option (Read Unit cs) := do
  let point ← readChar (· = '.') cs
  let digits ← point.andThen (readRun Char.isDigit)
  return digits.map fun _ => ()

def readExponent (cs : List Char) : Option (Read Unit cs) := do
  let mark ← readChar (fun c => c = 'e' || c = 'E') cs
  let signed := do
    let sign ← mark.andThen (readChar fun c => c = '+' || c = '-')
    sign.andThen (readRun Char.isDigit)
  let digits ← signed <|> mark.andThen (readRun Char.isDigit)
  return digits.map fun _ => ()

def readDecimals (cs : List Char) : Option (Read Unit cs) :=
  match readFraction cs with
  | some fraction => fraction.andThen readExponent <|> some fraction
  | none => readExponent cs

def readUnsigned (sign : Int) (cs : List Char) : Option (Except Fault (Read Value cs)) :=
  (readWhole cs).map fun digits =>
    match digits.andThen readDecimals with
    | some number => .ok (number.map fun _ => .float)
    | none =>
      if maxDigits < digits.value.length then
        .error ⟨.longInteger digits.value.length, cs⟩
      else .ok (digits.map fun ds => .integer (sign * decimalValue ds))

end LocaleAccessors.Json
