import LocaleAccessors.Json.Scalar
import LocaleAccessors.Table.Content

/-!
JSON texts as values. Besides the standard's values there are the numbers `NaN`, `Infinity` and
`-Infinity`.
-/

namespace LocaleAccessors.Json
open Text (CodePoint Read readChar readWord)

def isSpace (c : Char) : Bool :=
  c ∈ [' ', '\t', '\n', '\r']

def skipSpace (cs : List Char) : List Char :=
  cs.dropWhile isSpace

theorem length_skipSpace_le (cs : List Char) : (skipSpace cs).length ≤ cs.length :=
  (List.dropWhile_sublist _).length_le

def readNamed (cs : List Char) : Option (Read Value cs) :=
  [("null", Value.null), ("true", .bool true), ("false", .bool false), ("NaN", .float),
    ("Infinity", .float), ("-Infinity", .float)].findSome? fun (word, value) =>
      (readWord word.toList cs).map fun r => r.map fun _ => value

def readNumber (cs : List Char) : Except Fault (Read Value cs) :=
  match cs with
  | '-' :: rest =>
    match readUnsigned (-1) rest with
    | some number => number.map Read.after
    | none => .error ⟨.value, '-' :: rest⟩
  | rest => (readUnsigned 1 rest).getD (.error ⟨.value, rest⟩)

def readAtom (cs : List Char) : Except Fault (Read Value cs) :=
  match readNamed cs with
  | some r => .ok r
  | none => readNumber cs

def readSign (sign : Char) (cs : List Char) : Option (Read Char cs) :=
  (readChar (· = sign) (skipSpace cs)).map (·.past isSpace)

mutual

def readValue (room : Nat) (cs : List Char) : Except Fault (Read Value cs) :=
  match cs with
  | '"' :: body => do
    let s ← readText ('"' :: body) body
    return (s.map .text).after
  | '{' :: body =>
    if room = 0 then .error ⟨.nestedObject, '{' :: body⟩
    else
      match readSign '}' body with
      | some close => .ok (close.map fun _ => .object []).after
      | none => do
        let members ← readMembers (room - 1) (skipSpace body)
        return ((members.map .object).past isSpace).after
  | '[' :: body =>
    if room = 0 then .error ⟨.nestedArray, '[' :: body⟩
    else
      match readSign ']' body with
      | some close => .ok (close.map fun _ => .array []).after
      | none => do
        let items ← readItems (room - 1) (skipSpace body)
        return ((items.map .array).past isSpace).after
  | cs => readAtom cs
termination_by (cs.length, 0)
decreasing_by
  all_goals
    have := length_skipSpace_le body
    simp only [Prod.lex_def, List.length_cons]
    omega

def readMembers (room : Nat) (cs : List Char) : Except Fault (Read (List (List CodePoint × Value)) cs) :=
  match cs with
  | '"' :: body => do
    let key ← readText ('"' :: body) body
    match readSign ':' key.rest with
    | none => .error ⟨.colon, skipSpace key.rest⟩
    | some colon => do
      let value ← readValue room (skipSpace colon.rest)
      let member := (key.follow Prod.mk (colon.follow (fun _ v => v) (value.past isSpace))).after
      match readSign '}' value.rest, readSign ',' value.rest with
      | some close, _ => return member.follow (fun m _ => [m]) close
      | none, some comma => do
        let more ← readMembers room (skipSpace comma.rest)
        return member.follow List.cons (comma.follow (fun _ ms => ms) (more.past isSpace))
      | none, none => .error ⟨.comma, skipSpace value.rest⟩
  | cs => .error ⟨.propertyName, cs⟩
termination_by (cs.length, 0)
decreasing_by
  · have := length_skipSpace_le colon.rest
    have := colon.shorter
    have := key.shorter
    simp only [Prod.lex_def, List.length_cons]
    omega
  · have := length_skipSpace_le comma.rest
    have := comma.shorter
    have := value.shorter
    have := length_skipSpace_le colon.rest
    have := colon.shorter
    have := key.shorter
    simp only [Prod.lex_def, List.length_cons]
    omega

def readItems (room : Nat) (cs : List Char) : Except Fault (Read (List Value) cs) := do
  let value ← readValue room cs
  match readSign ']' value.rest, readSign ',' value.rest with
  | some close, _ => return value.follow (fun v _ => [v]) close
  | none, some comma => do
    let more ← readItems room (skipSpace comma.rest)
    return value.follow List.cons (comma.follow (fun _ vs => vs) (more.past isSpace))
  | none, none => .error ⟨.comma, skipSpace value.rest⟩
termination_by (cs.length, 1)
decreasing_by
  · simp [Prod.lex_def]
  · have := length_skipSpace_le comma.rest
    have := comma.shorter
    have := value.shorter
    simp only [Prod.lex_def]
    omega

end

def parse (text : List Char) : Except Fault Value :=
  match text with
  | '\uFEFF' :: _ => .error ⟨.byteOrderMark, text⟩
  | _ => do
    let r ← readValue Table.maxDepth (skipSpace text)
    match skipSpace r.rest with
    | [] => return r.value
    | rest => .error ⟨.extraData, rest⟩

end LocaleAccessors.Json
