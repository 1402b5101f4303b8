import LocaleAccessors.Text.Numeral

/-!
Floating-point numbers as their bits give them, and the shortest decimal texts that lead back to them.
A number of double precision is what all decimals around it are rounded to; of these decimals the
text has one with the fewest digits, and among those the nearest.
-/

namespace LocaleAccessors.Text

inductive Double where
  | finite (negative : Bool) (significand : Nat) (exponent : Int)
  | infinite (negative : Bool)
  | nan
  deriving DecidableEq

namespace Double

/-- A number whose bits are a sign, so many bits of an exponent, and so many of a fraction. -/
def ofBits (exponentWidth fractionWidth bits : Nat) : Double :=
  let negative := (bits >>> (exponentWidth + fractionWidth)) % 2 = 1
  let top := 1 <<< exponentWidth
  let exponent := (bits >>> fractionWidth) % top
  let unit := 1 <<< fractionWidth
  let fraction := bits % unit
  let scale (exponent : Nat) : Int := (exponent : Int) - ((top / 2 - 1 + fractionWidth : Nat) : Int)
  if exponent + 1 = top then if fraction = 0 then .infinite negative else .nan
  else if exponent = 0 then .finite negative fraction (scale 1)
  else .finite negative (unit + fraction) (scale exponent)

def ofSingleBits (bits : Nat) : Double := ofBits 8 23 bits

def ofDoubleBits (bits : Nat) : Double := ofBits 11 52 bits

def fill (significand : Nat) (exponent : Int) : Nat × Int :=
  let room := 53 - (significand.log2 + 1)
  let shift := min room (exponent + 1074).toNat
  (significand <<< shift, exponent - shift)

/-- A positive number as a quotient of whole numbers, with the ends of the numbers that are rounded
to it, all over one denominator. The ends count if the significand is even. -/
structure Rounding where
  value : Nat
  low : Nat
  high : Nat
  denominator : Nat
  closed : Bool

def Rounding.of (significand : Nat) (exponent : Int) : Rounding :=
  let (m, e) := fill significand exponent
  let below := if m = 1 <<< 52 ∧ -1074 < e then 1 else 2
  let up (n : Nat) := n <<< (e - 2).toNat
  ⟨up (4 * m), up (4 * m - below), up (4 * m + 2), 1 <<< (2 - e).toNat, m % 2 = 0⟩

def Rounding.holds (r : Rounding) (n : Nat) : Bool :=
  if r.closed then r.low ≤ n && n ≤ r.high else r.low < n && n < r.high

def Rounding.inUnits (r : Rounding) (power : Int) : Rounding :=
  let scaled (n : Nat) := n * Nat.pow 10 (-power).toNat
  ⟨scaled r.value, scaled r.low, scaled r.high, r.denominator * Nat.pow 10 power.toNat, r.closed⟩

def nearest (numerator denominator : Nat) : Nat :=
  let floor := numerator / denominator
  let twice := 2 * (numerator % denominator)
  if twice < denominator ∨ (twice = denominator ∧ floor % 2 = 0) then floor else floor + 1

/-- The whole number that is rounded to the value, if there is one, and the nearer one of two. -/
def Rounding.whole? (r : Rounding) : Option Nat :=
  let floor := r.value / r.denominator
  let ceiling := floor + 1
  match r.holds (floor * r.denominator), r.holds (ceiling * r.denominator) with
  | true, true => some (nearest r.value r.denominator)
  | true, false => some floor
  | false, true => some ceiling
  | false, false => none

/-- The powers of ten that the last digit of a double may stand for, the greatest first. -/
def powers : List Int :=
  (List.range 650).map fun (i : Nat) => 309 - (i : Int)

/-- The fewest digits that lead back to a positive number, as a whole number and the power of ten
that it is multiplied by. -/
def shortest (significand : Nat) (exponent : Int) : Nat × Int :=
  let r := Rounding.of significand exponent
  (powers.findSome? fun power => ((r.inUnits power).whole?).map fun n => (n, power)).getD (0, 0)

def positional (digits : List Char) (point : Int) : List Char :=
  let padded := List.replicate (1 - point).toNat '0' ++ digits
  let whole := max 1 point.toNat
  let padded := padded ++ List.replicate (whole + 1 - padded.length) '0'
  padded.take whole ++ '.' :: padded.drop whole

def scientific (digits : List Char) (exponent : Int) : List Char :=
  let fraction :=
    match digits.tail with
    | [] => []
    | fraction => '.' :: fraction
  let sign := if exponent < 0 then '-' else '+'
  digits.take 1 ++ fraction ++ 'e' :: sign :: numeral 10 2 exponent.natAbs

/-- Numbers from a ten-thousandth on, with up to sixteen digits before the point, are written without
an exponent. -/
def magnitude (significand : Nat) (exponent : Int) : List Char :=
  if significand = 0 then ['0', '.', '0']
  else
    let (n, power) := shortest significand exponent
    let digits := numeral 10 1 n
    let point := (digits.length : Int) + power
    if -4 < point ∧ point ≤ 16 then positional digits point else scientific digits (point - 1)

def text : Double → String
  | .nan => "nan"
  | .infinite false => "inf"
  | .infinite true => "-inf"
  | .finite negative significand exponent =>
    String.ofList ((if negative then ['-'] else []) ++ magnitude significand exponent)

end Double

end LocaleAccessors.Text
