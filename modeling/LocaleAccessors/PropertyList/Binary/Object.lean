import LocaleAccessors.PropertyList.Date
import LocaleAccessors.Table.Content
import LocaleAccessors.Text.Quoted
import LocaleAccessors.Text.Utf16

/-!
The objects of binary property lists. An object refers to others by their places in a table.
-/

namespace LocaleAccessors.PropertyList.Binary
open Table (Item Label)
open Text (CodePoint Double)

def number (bytes : List UInt8) : Nat :=
  bytes.foldl (fun n b => 256 * n + b.toNat) 0

def takeExactly (count : Nat) (bytes : List UInt8) : Option (List UInt8) :=
  let front := bytes.take count
  if front.length = count then some front else none

def numbers (width : Nat) : Nat → List UInt8 → List Nat
  | 0, _ => []
  | count + 1, bytes => number (bytes.take width) :: numbers width count (bytes.drop width)

def readNumbers (width count : Nat) (bytes : List UInt8) : Option (List Nat) :=
  if width = 0 then none
  else if bytes.length < width * count then none
  else some (numbers width count bytes)

/-- An object by itself. The others that it refers to are places in the table. -/
inductive Object where
  | null
  | bool (b : Bool)
  | integer (n : Int)
  | float (x : Double)
  | date (m : Moment)
  | bytes (bs : List UInt8)
  | text (s : List CodePoint)
  | reference (n : Nat)
  | array (items : List Nat)
  | dictionary (keys values : List Nat)

/-- The size of an object, which stands in the low half of its first byte or in a number of its own,
and what follows it. -/
def readSize (low : Nat) (bytes : List UInt8) : Option (Nat × List UInt8) :=
  if low = 15 then
    match bytes with
    | [] => none
    | b :: rest => do
      let width := 1 <<< (b.toNat % 4)
      let digits ← takeExactly width rest
      return (number digits, rest.drop width)
  else some (low, bytes)

def readAscii (bytes : List UInt8) : Option Object :=
  if bytes.all (· < 0x80) then some (.text (bytes.map fun b => .scalar (Char.ofNat b.toNat)))
  else none

def readUtf16 (bytes : List UInt8) : Option Object :=
  match Text.Utf16.decode .big bytes with
  | .ok cs => some (.text (cs.map .scalar))
  | .error _ => none

def signed (bytes : List UInt8) : Int :=
  let n := number bytes
  let size := 1 <<< (8 * bytes.length)
  if 2 * n < size then n else (n : Int) - size

def readObject (referenceWidth : Nat) (first : UInt8) (rest : List UInt8) : Option Object := do
  let high := first.toNat / 16
  let low := first.toNat % 16
  match high, low with
  | 0x0, 0x0 => return .null
  | 0x0, 0x8 => return .bool false
  | 0x0, 0x9 => return .bool true
  | 0x0, 0xF => return .bytes []
  | 0x1, low =>
    let digits := rest.take (1 <<< low)
    return .integer (if low < 3 then number digits else signed digits)
  | 0x2, 0x2 => return .float (.ofSingleBits (number (← takeExactly 4 rest)))
  | 0x2, 0x3 => return .float (.ofDoubleBits (number (← takeExactly 8 rest)))
  | 0x3, 0x3 =>
    return .date (← Moment.ofSeconds? (.ofDoubleBits (number (← takeExactly 8 rest))))
  | 0x4, low =>
    let (size, rest) ← readSize low rest
    return .bytes (← takeExactly size rest)
  | 0x5, low =>
    let (size, rest) ← readSize low rest
    readAscii (← takeExactly size rest)
  | 0x6, low =>
    let (size, rest) ← readSize low rest
    readUtf16 (← takeExactly (2 * size) rest)
  | 0x8, low =>
    let n := number (rest.take (low + 1))
    if n < 1 <<< 64 then return .reference n else none
  | 0xA, low =>
    let (size, rest) ← readSize low rest
    return .array (← readNumbers referenceWidth size rest)
  | 0xD, low =>
    let (size, rest) ← readSize low rest
    let keys ← readNumbers referenceWidth size rest
    let values ← readNumbers referenceWidth size (rest.drop (referenceWidth * size))
    return .dictionary keys values
  | _, _ => none

namespace Object

def isContainer : Object → Bool
  | .array _ | .dictionary _ _ => true
  | _ => false

def item : Object → Item
  | .null => .other .null
  | .bool _ => .other .bool
  | .integer _ => .other .integer
  | .float _ => .other .float
  | .date _ => .other .date
  | .bytes _ => .other .bytes
  | .text s => .text s
  | .reference _ => .other .reference
  | .array _ => .other .list
  | .dictionary _ _ => .other .dictionary

def label : Object → Label
  | .null => .other "None"
  | .bool b => .other (if b then "True" else "False")
  | .integer n => .other (toString n)
  | .float x => .other x.text
  | .date m => .other m.text
  | .bytes bs => .other (Text.quotedBytes bs)
  | .text s => .text s
  | .reference n => .other ("UID(" ++ toString n ++ ")")
  | .array _ | .dictionary _ _ => .other ""

end Object

end LocaleAccessors.PropertyList.Binary
