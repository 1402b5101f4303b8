import LocaleAccessors.Text.Double

/-!
Dates of property lists: texts that spell one, and moments that are counted in seconds from the start
of the year 2001.
-/

namespace LocaleAccessors.PropertyList
open Text (Double decimalValue)

def isLeapYear (year : Nat) : Bool :=
  year % 4 = 0 && (year % 100 ≠ 0 || year % 400 = 0)

def daysIn (year month : Nat) : Nat :=
  if month = 2 then if isLeapYear year then 29 else 28
  else if month ∈ [4, 6, 9, 11] then 30
  else 31

def isDay (year month day : Nat) : Bool :=
  1 ≤ year && 1 ≤ month && month ≤ 12 && 1 ≤ day && day ≤ daysIn year month

def readPair (sign : Char) (bound : Nat) : List Char → Option (List Char)
  | c :: a :: b :: rest =>
    if c = sign && a.isDigit && b.isDigit && decimalValue [a, b] < bound then some rest else none
  | _ => none

/-- The time of a date: nothing, or an hour, and maybe a minute, and maybe a second. Then comes a
`Z`, and what follows that does not matter. -/
def isTime (cs : List Char) : Bool :=
  endsDate cs || (step 'T' 24 cs).any fun hour =>
    endsDate hour || (step ':' 60 hour).any fun minute =>
      endsDate minute || (step ':' 60 minute).any endsDate
where
  endsDate (cs : List Char) : Bool := cs.head? = some 'Z'
  step (sign : Char) (bound : Nat) (cs : List Char) : Option (List Char) := readPair sign bound cs

/-- A date has at least a year, a month and a day. -/
def isDate (cs : List Char) : Bool :=
  match cs with
  | a :: b :: c :: d :: '-' :: e :: f :: '-' :: g :: h :: time =>
    [a, b, c, d, e, f, g, h].all Char.isDigit &&
      isDay (decimalValue [a, b, c, d]) (decimalValue [e, f]) (decimalValue [g, h]) && isTime time
  | _ => false

structure Moment where
  microseconds : Nat
  deriving DecidableEq

namespace Moment

def shorten (n : Nat) : Nat :=
  let shift := n.log2 + 1 - 53
  Double.nearest n (1 <<< shift) <<< shift

/-- A span of seconds in microseconds. The part of a second is multiplied in double precision first,
and rounded then. -/
def microsecondsIn (significand : Nat) (exponent : Int) : Nat :=
  let unit := 1 <<< (-exponent).toNat
  let scaled := significand <<< exponent.toNat
  1000000 * (scaled / unit) + Double.nearest (shorten (1000000 * (scaled % unit))) unit

def epoch : Int := 63113904000000000

def bound : Int := 315537897600000000

/-- The moment so many seconds after the start of the year 2001, in the years from 1 to 9999. -/
def ofSeconds? : Double → Option Moment
  | .finite negative significand exponent =>
    let span : Int := microsecondsIn significand exponent
    let total := if negative then epoch - span else epoch + span
    if 0 ≤ total ∧ total < bound then some ⟨total.toNat⟩ else none
  | _ => none

/-- The year with a day, and the days of it before that day. Four centuries have 146097 days. -/
def yearOf (days : Nat) : Nat × Nat :=
  let (quarter, days) := (days / 146097, days % 146097)
  let century := min 3 (days / 36524)
  let days := days - 36524 * century
  let (leap, days) := (days / 1461, days % 1461)
  let year := min 3 (days / 365)
  (400 * quarter + 100 * century + 4 * leap + year + 1, days - 365 * year)

def dayOf (year : Nat) : List Nat → Nat → Nat × Nat
  | [], days => (12, days + 1)
  | month :: later, days =>
    if days < daysIn year month then (month, days + 1)
    else dayOf year later (days - daysIn year month)

def fields (m : Moment) : List Nat :=
  let seconds := m.microseconds / 1000000
  let (year, days) := yearOf (seconds / 86400)
  let (month, day) := dayOf year [1, 2, 3, 4, 5, 6, 7, 8, 9, 10, 11, 12] days
  [year, month, day, seconds / 3600 % 24, seconds / 60 % 60, seconds % 60, m.microseconds % 1000000]

def shownFields (m : Moment) : List Nat :=
  m.fields.take 5 ++ ((m.fields.drop 5).reverse.dropWhile (· = 0)).reverse

def text (m : Moment) : String :=
  "datetime.datetime(" ++ ", ".intercalate (m.shownFields.map toString) ++ ")"

end Moment

end LocaleAccessors.PropertyList
