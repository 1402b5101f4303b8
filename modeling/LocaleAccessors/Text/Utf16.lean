/-!
UTF-16 in both byte orders. A character above U+FFFF takes two units, a high and a low surrogate;
decoding refuses a surrogate without its partner and a byte without its partner.
-/

namespace LocaleAccessors.Text.Utf16

inductive ByteOrder where
  | little
  | big
  deriving DecidableEq

def ByteOrder.unit : ByteOrder → UInt8 → UInt8 → Nat
  | .little, a, b => 256 * b.toNat + a.toNat
  | .big, a, b => 256 * a.toNat + b.toNat

inductive Reason where
  | truncated
  | unexpectedEnd
  | lowFirst
  | highAlone
  deriving DecidableEq

def Reason.text : Reason → String
  | .truncated => "truncated data"
  | .unexpectedEnd => "unexpected end of data"
  | .lowFirst => "illegal encoding"
  | .highAlone => "illegal UTF-16 surrogate"

def isHigh (n : Nat) : Bool := 0xD800 ≤ n && n < 0xDC00

def isLow (n : Nat) : Bool := 0xDC00 ≤ n && n < 0xE000

def joinPair (high low : Nat) : Nat :=
  0x10000 + 0x400 * (high - 0xD800) + (low - 0xDC00)

def decode (order : ByteOrder) : List UInt8 → Except Reason (List Char)
  | [] => .ok []
  | [_] => .error .truncated
  | a :: b :: rest =>
    let high := order.unit a b
    if isLow high then .error .lowFirst
    else if isHigh high then
      match rest with
      | c :: d :: rest =>
        let low := order.unit c d
        if isLow low then (decode order rest).map (Char.ofNat (joinPair high low) :: ·)
        else .error .highAlone
      | _ => .error .unexpectedEnd
    else (decode order rest).map (Char.ofNat high :: ·)

end LocaleAccessors.Text.Utf16
