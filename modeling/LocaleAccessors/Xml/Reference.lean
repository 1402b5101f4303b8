import LocaleAccessors.Text.Numeral
import LocaleAccessors.Text.Read
import LocaleAccessors.Xml.Character
import LocaleAccessors.Xml.Name

/-!
Names, quoted texts, and references to characters and entities. Readers of names are told which
letters the encoding of the text adds.
-/

namespace LocaleAccessors.Xml
open Text (Read readChar readHeaded readRun readUntil hexValue? numeralValue decimalValue)

def readName (added cs : List Char) : Option (Read (List Char) cs) :=
  readHeaded (startsName added) (continuesName added) cs

def readLiteral (cs : List Char) : Option (Read (List Char) cs) :=
  match cs with
  | [] => none
  | quote :: rest =>
    if quote = '"' ∨ quote = '\'' then do
      let r ← readUntil [quote] rest
      if r.value.all isCharacter then return r.after else none
    else none

/-- A reference stands for a character, or for an entity that is not declared. -/
inductive Reference where
  | char (c : Char)
  | undeclared
  deriving DecidableEq

def characterOf (n : Nat) : Option Reference :=
  if isAllowed n then some (.char (Char.ofNat n)) else none

def knownEntity? (name : List Char) : Option Char :=
  match String.ofList name with
  | "lt" => some '<'
  | "gt" => some '>'
  | "amp" => some '&'
  | "quot" => some '"'
  | "apos" => some '\''
  | _ => none

def entityOf (name : List Char) : Reference :=
  ((knownEntity? name).map .char).getD .undeclared

def semicolon (c : Char) : Bool := c = ';'

def readReference (added cs : List Char) : Option (Read Reference cs) :=
  match cs with
  | '#' :: 'x' :: digits => do
    let r ← readRun (fun c => (hexValue? c).isSome) digits
    let reference ← characterOf (numeralValue 16 (r.value.filterMap hexValue?))
    let done ← r.andThen (readChar semicolon)
    return (done.map fun _ => reference).after.after
  | '#' :: digits => do
    let r ← readRun Char.isDigit digits
    let reference ← characterOf (decimalValue r.value)
    let done ← r.andThen (readChar semicolon)
    return (done.map fun _ => reference).after
  | name => do
    let r ← readName added name
    let done ← r.andThen (readChar semicolon)
    return done.map fun _ => entityOf r.value

def references (added cs : List Char) : Option (List Reference) :=
  match cs with
  | [] => some []
  | c :: rest =>
    if c = '&' then do
      let reference ← readReference added rest
      return reference.value :: (← references added reference.rest)
    else references added rest
termination_by cs.length
decreasing_by
  · exact Nat.lt_succ_of_lt reference.shorter
  · exact Nat.lt_succ_self _

def valueReferences (added value : List Char) : Option (List Reference) :=
  if '<' ∈ value then none else references added value

def areSound (lenient : Bool) (references : List Reference) : Bool :=
  lenient || references.all (· ≠ .undeclared)

end LocaleAccessors.Xml
