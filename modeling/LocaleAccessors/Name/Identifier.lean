import LocaleAccessors.Name.Reserved
import LocaleAccessors.Text.Number
import LocaleAccessors.Text.Uppercase

/-!
Identifiers made from the segments of keys, and names made distinct by a number: a name that is taken
gets the least suffix from `_2` on with which it is free.
-/

namespace LocaleAccessors.Name
open Text (isAlphanumeric isDigit uppercase)

structure Rules where
  reserved : List String
  capitalize : Bool

def Rules.of (language : Language) (capitalize : Bool) : Rules :=
  ⟨language.reserved, capitalize⟩

/-- The runs of characters between underscores; none of them is empty. -/
def words : List Char → List (List Char)
  | [] => []
  | '_' :: rest => words rest
  | c :: rest =>
    match rest, words rest with
    | [], more | '_' :: _, more => [c] :: more
    | _, word :: more => (c :: word) :: more
    | _, [] => [[c]]

def capitalized : List Char → List Char
  | [] => []
  | c :: rest => uppercase c ++ rest

/-- The words with their first letters in upper case, one after the other. A name without words
stays as it is. -/
def camelCase (cs : List Char) : List Char :=
  match words cs with
  | [] => cs
  | found => found.flatMap capitalized

/-- A segment as an identifier. All but letters and digits becomes an underscore, and an underscore
comes before a digit at the start and before a reserved word. -/
def Rules.identifier (rules : Rules) (segment : String) : String :=
  let plain := segment.toList.map fun c => if isAlphanumeric c then c else '_'
  match if rules.capitalize then camelCase plain else plain with
  | [] => "_"
  | c :: rest =>
    let name := String.ofList (c :: rest)
    if isDigit c || name ∈ rules.reserved then "_" ++ name else name

/-! Distinct names. -/

def suffixed (name : String) (k : Nat) : String :=
  name ++ "_" ++ toString k

/-- The first free one of `tries` candidates from the suffix `k` on, or the candidate after them. -/
def firstFree (name : String) (taken : List String) : Nat → Nat → String
  | 0, k => suffixed name k
  | tries + 1, k =>
    if suffixed name k ∈ taken then firstFree name taken tries (k + 1) else suffixed name k

/-- As many candidates as there are taken names cannot all be taken, since `name` is one of them. -/
def distinctName (name : String) (taken : List String) : String :=
  if name ∈ taken then firstFree name taken taken.length 2 else name

end LocaleAccessors.Name
