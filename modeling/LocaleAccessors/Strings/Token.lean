import LocaleAccessors.Strings.Trivia
import LocaleAccessors.Text.Utf16

/-!
The string tokens of a strings file: quoted ones with escapes, and runs of plain characters.
-/

namespace LocaleAccessors.Strings
open Text (hexValue? octalValue? numeralValue)
open Text.Utf16 (isHigh isLow joinPair)

def isPlain (c : Char) : Bool :=
  c.isAlphanum || c ∈ ['_', '$', '+', '/', ':', '.', '-']

def simpleEscape? : Char → Option Char
  | 'n' => some '\n'
  | 't' => some '\t'
  | 'r' => some '\r'
  | 'a' => some '\x07'
  | 'b' => some '\x08'
  | 'f' => some '\x0C'
  | 'v' => some '\x0B'
  | '"' => some '"'
  | '\'' => some '\''
  | '\\' => some '\\'
  | _ => none

def readHex4 (marker : Char) (cs : List Char) : Except Reason (Nat × List Char) :=
  match cs with
  | a :: b :: c :: d :: rest =>
    match [a, b, c, d].mapM hexValue? with
    | some digits => .ok (numeralValue 16 digits, rest)
    | none => .error (.unicodeEscape marker [a, b, c, d])
  | cs => .error (.unicodeEscape marker cs)

/-- A Unicode escape after its marker. A character above U+FFFF takes two escapes, one for each of
its surrogates. -/
def readUnicode (marker : Char) (cs : List Char) : Except Reason (Char × List Char) := do
  let (code, rest) ← readHex4 marker cs
  if isLow code then .error (.unpairedLow marker code)
  else if isHigh code then
    match rest with
    | '\\' :: second :: rest =>
      if second = 'U' ∨ second = 'u' then do
        let (low, rest) ← readHex4 second rest
        if isLow low then .ok (Char.ofNat (joinPair code low), rest)
        else .error (.unpairedHigh marker code)
      else .error (.unpairedHigh marker code)
    | _ => .error (.unpairedHigh marker code)
  else .ok (Char.ofNat code, rest)

def readOctal : Nat → List Char → List Nat × List Char
  | limit + 1, c :: rest =>
    match octalValue? c with
    | some d =>
      let more := readOctal limit rest
      (d :: more.1, more.2)
    | none => ([], c :: rest)
  | _, cs => ([], cs)

/-- An escape after its backslash: a named character, a Unicode escape, one to three octal digits,
or any other character for itself. -/
def readEscape (cs : List Char) : Except Reason (Char × List Char) :=
  match cs with
  | [] => .error .unterminatedEscape
  | c :: rest =>
    match simpleEscape? c with
    | some e => .ok (e, rest)
    | none =>
      if c = 'U' ∨ c = 'u' then readUnicode c rest
      else
        match readOctal 3 (c :: rest) with
        | ([], _) => .ok (c, rest)
        | (digits, rest) => .ok (Char.ofNat (numeralValue 8 digits), rest)

theorem length_of_readHex4 {marker : Char} {cs rest : List Char} {n : Nat}
    (h : readHex4 marker cs = .ok (n, rest)) : rest.length ≤ cs.length := by
  unfold readHex4 at h
  split at h
  · split at h
    · cases h; simp only [List.length_cons]; omega
    · cases h
  · cases h

theorem length_of_readUnicode {marker c : Char} {cs rest : List Char}
    (h : readUnicode marker cs = .ok (c, rest)) : rest.length ≤ cs.length := by
  unfold readUnicode at h
  cases h4 : readHex4 marker cs with
  | error e => rw [h4] at h; cases h
  | ok p =>
    rw [h4] at h
    have hp := length_of_readHex4 h4
    simp only [bind, Except.bind] at h
    split at h
    · cases h
    split at h
    · split at h
      · split at h
        · rename_i second more hrest _
          cases h5 : readHex4 second more with
          | error e => rw [h5] at h; cases h
          | ok q =>
            rw [h5] at h
            have hq := length_of_readHex4 h5
            simp only at h
            split at h
            · simp only [Except.ok.injEq, Prod.mk.injEq] at h
              simp only [hrest, List.length_cons] at hp
              rw [← h.2]
              omega
            · cases h
        · cases h
      · cases h
    · cases h; exact hp

theorem length_readOctal_le (limit : Nat) (cs : List Char) :
    (readOctal limit cs).2.length ≤ cs.length := by
  induction limit generalizing cs with
  | zero => exact Nat.le_refl _
  | succ limit ih =>
    cases cs with
    | nil => exact Nat.le_refl _
    | cons c rest =>
      simp only [readOctal]
      split
      · exact Nat.le_succ_of_le (ih rest)
      · exact Nat.le_refl _

theorem length_of_readEscape {c : Char} {cs rest : List Char}
    (h : readEscape cs = .ok (c, rest)) : rest.length ≤ cs.length := by
  unfold readEscape at h
  split at h
  · cases h
  split at h
  · cases h; simp
  split at h
  · exact Nat.le_succ_of_le (length_of_readUnicode h)
  split at h
  · cases h; simp
  · rename_i d r _ hr
    cases h
    rename_i c' cs' _ _ _ _ _
    have := length_readOctal_le 3 (c' :: cs')
    rw [hr] at this
    exact this

/-- The rest of a quoted string after its opening quote. The whole of it, quote included, is
`opening`, where a string without end is at fault. -/
def readQuoted (opening cs : List Char) : Except Fault (List Char × List Char) :=
  match cs with
  | [] => .error ⟨.unterminatedString, opening⟩
  | '"' :: rest => .ok ([], rest)
  | '\\' :: body =>
    match h : readEscape body with
    | .error reason => .error ⟨reason, '\\' :: body⟩
    | .ok (c, rest) => do
      have := length_of_readEscape h
      let (s, rest) ← readQuoted opening rest
      return (c :: s, rest)
  | c :: rest => do
    let (s, rest) ← readQuoted opening rest
    return (c :: s, rest)
termination_by cs.length
decreasing_by
  · exact Nat.lt_succ_of_le this
  · simp

theorem length_of_readQuoted {opening cs s rest : List Char}
    (h : readQuoted opening cs = .ok (s, rest)) : rest.length < cs.length := by
  fun_induction readQuoted opening cs generalizing s rest with
  | case1 => cases h
  | case2 => cases h; simp
  | case3 => cases h
  | case4 body c r _ hr ih =>
    cases hq : readQuoted opening r with
    | error e => rw [hq] at h; cases h
    | ok p =>
      rw [hq] at h
      cases h
      have := ih hq
      simp only [List.length_cons]
      omega
  | case5 c cs _ _ ih =>
    cases hq : readQuoted opening cs with
    | error e => rw [hq] at h; cases h
    | ok p =>
      rw [hq] at h
      cases h
      exact Nat.lt_succ_of_lt (ih hq)

def readString (cs : List Char) : Except Fault (List Char × List Char) :=
  match cs with
  | '"' :: rest => readQuoted ('"' :: rest) rest
  | c :: rest =>
    if isPlain c then .ok (c :: rest.takeWhile isPlain, rest.dropWhile isPlain)
    else .error ⟨.expectedString (some c), c :: rest⟩
  | [] => .error ⟨.expectedString none, []⟩

theorem length_of_readString {cs s rest : List Char} (h : readString cs = .ok (s, rest)) :
    rest.length < cs.length := by
  unfold readString at h
  split at h
  · exact Nat.lt_succ_of_lt (length_of_readQuoted h)
  · split at h
    · cases h
      exact Nat.lt_succ_of_le (List.dropWhile_sublist _).length_le
    · cases h
  · cases h

def expect (c : Char) (cs : List Char) : Except Fault (List Char) := do
  match ← skipTrivia cs with
  | [] => .error ⟨.expected c none, []⟩
  | found :: rest =>
    if found = c then .ok rest else .error ⟨.expected c (some found), found :: rest⟩

theorem length_of_expect {c : Char} {cs rest : List Char} (h : expect c cs = .ok rest) :
    rest.length < cs.length := by
  unfold expect at h
  cases hs : skipTrivia cs with
  | error e => rw [hs] at h; cases h
  | ok r =>
    rw [hs] at h
    have := length_of_skipTrivia hs
    simp only [bind, Except.bind] at h
    split at h
    · cases h
    · split at h
      · cases h; simp at this; omega
      · cases h

end LocaleAccessors.Strings
