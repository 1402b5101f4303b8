import LocaleAccessors.Strings.Token
import LocaleAccessors.Table.Entry

/-!
Strings files: rows `"key" = "value";`, or `"key";` for a key that is its own value. The rows may
stand in one pair of braces.
-/

namespace LocaleAccessors.Strings
open Table (Entry entries)

def readRow (cs : List Char) : Except Fault ((String × String) × List Char) := do
  let (key, rest) ← readString cs
  match ← skipTrivia rest with
  | ';' :: rest => return ((String.ofList key, String.ofList key), rest)
  | rest =>
    let rest ← expect '=' rest
    let (value, rest) ← readString (← skipTrivia rest)
    let rest ← expect ';' rest
    return ((String.ofList key, String.ofList value), rest)

theorem length_of_readRow {cs rest : List Char} {row : String × String}
    (h : readRow cs = .ok (row, rest)) : rest.length < cs.length := by
  unfold readRow at h
  cases h1 : readString cs with
  | error e => rw [h1] at h; cases h
  | ok key =>
    rw [h1] at h
    simp only [bind, Except.bind] at h
    have l1 := length_of_readString h1
    cases h2 : skipTrivia key.2 with
    | error e => rw [h2] at h; cases h
    | ok r2 =>
      rw [h2] at h
      simp only at h
      have l2 := length_of_skipTrivia h2
      split at h
      · cases h; simp at l2; omega
      · cases h3 : expect '=' r2 with
        | error e => rw [h3] at h; cases h
        | ok r3 =>
          rw [h3] at h
          simp only at h
          have l3 := length_of_expect h3
          cases h4 : skipTrivia r3 with
          | error e => rw [h4] at h; cases h
          | ok r4 =>
            rw [h4] at h
            simp only at h
            have l4 := length_of_skipTrivia h4
            cases h5 : readString r4 with
            | error e => rw [h5] at h; cases h
            | ok value =>
              rw [h5] at h
              simp only at h
              have l5 := length_of_readString h5
              cases h6 : expect ';' value.2 with
              | error e => rw [h6] at h; cases h
              | ok r6 =>
                rw [h6] at h
                cases h
                have l6 := length_of_expect h6
                omega

/-- The rows up to the end of the text, and up to the closing brace where there is an opening one. -/
def readRows (braced : Bool) (cs : List Char) : Except Fault (List (String × String)) :=
  match hs : skipTrivia cs with
  | .error fault => .error fault
  | .ok [] => if braced then .error ⟨.missingBrace, []⟩ else .ok []
  | .ok (c :: rest) =>
    have := length_of_skipTrivia hs
    if braced ∧ c = '}' then do
      match ← skipTrivia rest with
      | [] => return []
      | rest => .error ⟨.afterBrace, rest⟩
    else
      match hr : readRow (c :: rest) with
      | .error fault => .error fault
      | .ok (row, rest) =>
        have := length_of_readRow hr
        return row :: (← readRows braced rest)
termination_by cs.length
decreasing_by omega

def rows (text : List Char) : Except Fault (List (String × String)) := do
  match ← skipTrivia text with
  | '{' :: rest => readRows true rest
  | rest => readRows false rest

def parse (text : List Char) : Except Fault (List Entry) :=
  (rows text).map entries

end LocaleAccessors.Strings
