import LocaleAccessors.Proofs.Strings.Places

/-!
A scanner of strings files. It goes through the text from place to place and counts the characters and
the newlines that it passes. At each place that it comes to, its position is in the text, and its line
is the one that the newlines before that position make. A failure has a line of its own, since a string
without end is reported where it was opened.
-/

namespace LocaleAccessors.Strings
open Relation (ReflTransGen)
open Text (isBlank octalValue?)
open Text.Utf16 (isHigh isLow)

/-- What is left of the text, the number of characters before it, and its line, counted from one. -/
structure Cursor where
  rest : List Char
  position : Nat
  line : Nat
  deriving DecidableEq

namespace Cursor

def start (text : List Char) : Cursor :=
  ⟨text, 0, 1⟩

def advance (c : Cursor) (n : Nat) : Cursor :=
  ⟨c.rest.drop n, c.position + n, c.line + (c.rest.take n).count '\n'⟩

/-- The cursor is in the text, and its line is that of its position. -/
structure At (text : List Char) (c : Cursor) : Prop where
  position_le : c.position ≤ text.length
  rest_eq : c.rest = text.drop c.position
  line_eq : c.line = 1 + (text.take c.position).count '\n'

variable {text : List Char} {c : Cursor} {n : Nat}

theorem at_start (text : List Char) : (start text).At text :=
  ⟨Nat.zero_le _, rfl, rfl⟩

theorem At.advance (h : c.At text) (hn : n ≤ c.rest.length) : (c.advance n).At text where
  position_le := by
    have hle := h.position_le
    rw [h.rest_eq, List.length_drop] at hn
    simp only [Cursor.advance]
    omega
  rest_eq := by
    simp only [Cursor.advance, h.rest_eq, List.drop_drop]
  line_eq := by
    simp only [Cursor.advance, h.rest_eq, h.line_eq, List.take_add, List.count_append]
    omega

theorem At.line_eq_lineOf (h : c.At text) : c.line = lineOf text c.rest := by
  have hle := h.position_le
  have hposition : text.length - (text.length - c.position) = c.position := by omega
  rw [h.line_eq, lineOf, h.rest_eq, List.length_drop, hposition]

theorem advance_line (h : '\n' ∉ c.rest.take n) : (c.advance n).line = c.line := by
  rw [advance, List.count_eq_zero.mpr h]
  rfl

end Cursor

inductive Stage where
  | opening
  | key (braced : Bool)
  | separator (braced : Bool)
  | value (braced : Bool)
  | terminator (braced : Bool)
  | closed
  deriving DecidableEq

/-- What the scanner is about. In a quoted string it knows the line of the opening quote, behind the
marker of a Unicode escape also the marker, and behind the digits the unit that they spell. -/
inductive Activity where
  | between
  | plain
  | quoted (opened : Nat)
  | escape (opened : Nat)
  | digits (opened : Nat) (marker : Char)
  | unit (opened : Nat) (marker : Char) (code : Nat)
  | lowDigits (opened : Nat) (marker : Char) (code : Nat) (second : Char)
  | lowUnit (opened : Nat) (marker : Char) (code low : Nat)
  | octal (opened limit : Nat)
  deriving DecidableEq

/-- In a string, the stage is the one that follows it. -/
structure Scanner where
  stage : Stage
  activity : Activity
  cursor : Cursor
  deriving DecidableEq

inductive Outcome where
  | goes (s : Scanner)
  | fails (reason : Reason) (line : Nat)
  | done
  deriving DecidableEq

/-- The length of the piece of trivia at the front, which is none where no trivia is. -/
def triviaLength (cs : List Char) : Except Reason Nat :=
  match cs with
  | '/' :: '*' :: body =>
    match afterComment body with
    | some rest => .ok (2 + (body.length - rest.length))
    | none => .error .unterminatedComment
  | '/' :: '/' :: body => .ok (2 + (body.takeWhile (· ≠ '\n')).length)
  | c :: _ => .ok (if isBlank c then 1 else 0)
  | [] => .ok 0

namespace Scanner

def start (text : List Char) : Scanner :=
  ⟨.opening, .between, .start text⟩

def goesOn (s : Scanner) (activity : Activity) (n : Nat) : Outcome :=
  .goes ⟨s.stage, activity, s.cursor.advance n⟩

def enters (s : Scanner) (stage : Stage) (n : Nat) : Outcome :=
  .goes ⟨stage, .between, s.cursor.advance n⟩

def failsHere (s : Scanner) (reason : Reason) : Outcome :=
  .fails reason s.cursor.line

def string (s : Scanner) (stage : Stage) : Outcome :=
  match s.cursor.rest with
  | '"' :: _ => .goes ⟨stage, .quoted s.cursor.line, s.cursor.advance 1⟩
  | c :: _ =>
    if isPlain c then .goes ⟨stage, .plain, s.cursor.advance 1⟩
    else s.failsHere (.expectedString (some c))
  | [] => s.failsHere (.expectedString none)

def expects (s : Scanner) (c : Char) (stage : Stage) : Outcome :=
  if s.cursor.rest.head? = some c then s.enters stage 1
  else s.failsHere (.expected c s.cursor.rest.head?)

def token (s : Scanner) (stage : Stage) (rest : List Char) : Outcome :=
  match stage with
  | .opening =>
    if rest.head? = some '{' then s.enters (.key true) 1 else s.enters (.key false) 0
  | .key braced =>
    if braced ∧ rest.head? = some '}' then s.enters .closed 1
    else if rest = [] then if braced then s.failsHere .missingBrace else .done
    else s.string (.separator braced)
  | .separator braced =>
    if rest.head? = some ';' then s.enters (.key braced) 1 else s.expects '=' (.value braced)
  | .value braced => s.string (.terminator braced)
  | .terminator braced => s.expects ';' (.key braced)
  | .closed => if rest = [] then .done else s.failsHere .afterBrace

def trivia (s : Scanner) : Outcome :=
  match triviaLength s.cursor.rest with
  | .error reason => s.failsHere reason
  | .ok 0 => s.token s.stage s.cursor.rest
  | .ok n => s.enters s.stage n

def plain (s : Scanner) : Outcome :=
  match s.cursor.rest with
  | c :: _ => if isPlain c then s.goesOn .plain 1 else s.goesOn .between 0
  | [] => s.goesOn .between 0

def quoted (s : Scanner) (opened : Nat) : Outcome :=
  match s.cursor.rest with
  | [] => .fails .unterminatedString opened
  | '"' :: _ => s.goesOn .between 1
  | '\\' :: _ => s.goesOn (.escape opened) 1
  | _ :: _ => s.goesOn (.quoted opened) 1

def escape (s : Scanner) (opened : Nat) : Outcome :=
  match s.cursor.rest with
  | [] => s.failsHere .unterminatedEscape
  | c :: _ =>
    if (simpleEscape? c).isSome then s.goesOn (.quoted opened) 1
    else if c = 'U' ∨ c = 'u' then s.goesOn (.digits opened c) 1
    else if (octalValue? c).isSome then s.goesOn (.octal opened 2) 1
    else s.goesOn (.quoted opened) 1

def hex4 (s : Scanner) (marker : Char) (activity : Nat → Activity) : Outcome :=
  match readHex4 marker s.cursor.rest with
  | .error reason => s.failsHere reason
  | .ok (code, _) => s.goesOn (activity code) 4

def unit (s : Scanner) (opened : Nat) (marker : Char) (code : Nat) : Outcome :=
  if isLow code then s.failsHere (.unpairedLow marker code)
  else if isHigh code then
    match s.cursor.rest with
    | '\\' :: second :: _ =>
      if second = 'U' ∨ second = 'u' then s.goesOn (.lowDigits opened marker code second) 2
      else s.failsHere (.unpairedHigh marker code)
    | _ => s.failsHere (.unpairedHigh marker code)
  else s.goesOn (.quoted opened) 0

def lowUnit (s : Scanner) (opened : Nat) (marker : Char) (code low : Nat) : Outcome :=
  if isLow low then s.goesOn (.quoted opened) 0 else s.failsHere (.unpairedHigh marker code)

def octal (s : Scanner) (opened limit : Nat) : Outcome :=
  match limit, s.cursor.rest with
  | limit + 1, c :: _ =>
    if (octalValue? c).isSome then s.goesOn (.octal opened limit) 1 else s.goesOn (.quoted opened) 0
  | _, _ => s.goesOn (.quoted opened) 0

def next (s : Scanner) : Outcome :=
  match s.activity with
  | .between => s.trivia
  | .plain => s.plain
  | .quoted opened => s.quoted opened
  | .escape opened => s.escape opened
  | .digits opened marker => s.hex4 marker (.unit opened marker)
  | .unit opened marker code => s.unit opened marker code
  | .lowDigits opened marker code second => s.hex4 second (.lowUnit opened marker code)
  | .lowUnit opened marker code low => s.lowUnit opened marker code low
  | .octal opened limit => s.octal opened limit

def Steps : Scanner → Scanner → Prop :=
  ReflTransGen fun s t => s.next = .goes t

def Reached (text : List Char) (s : Scanner) : Prop :=
  (start text).Steps s

def Advances (s : Scanner) : Outcome → Prop
  | .goes t => ∃ n ≤ s.cursor.rest.length, t.cursor = s.cursor.advance n
  | .fails _ _ | .done => True

section advances
variable {s t : Scanner} {text rest : List Char} {c : Char} {n : Nat}

theorem advances_goes {stage : Stage} {activity : Activity} (hn : n ≤ s.cursor.rest.length) :
    s.Advances (.goes ⟨stage, activity, s.cursor.advance n⟩) :=
  ⟨n, hn, rfl⟩

theorem advances_one {stage : Stage} {activity : Activity} (h : s.cursor.rest = c :: rest) :
    s.Advances (.goes ⟨stage, activity, s.cursor.advance 1⟩) := by
  refine advances_goes ?_
  rw [h, List.length_cons]
  omega

theorem advances_head {stage : Stage} {activity : Activity} (h : s.cursor.rest.head? = some c) :
    s.Advances (.goes ⟨stage, activity, s.cursor.advance 1⟩) := by
  obtain ⟨rest, hrest⟩ := List.head?_eq_some_iff.mp h
  exact advances_one hrest

theorem advances_string (s : Scanner) (stage : Stage) : s.Advances (s.string stage) := by
  unfold string
  split
  · next h => exact advances_one h
  · next h =>
    split_ifs
    · exact advances_one h
    · trivial
  · trivial

theorem advances_expects (s : Scanner) (c : Char) (stage : Stage) :
    s.Advances (s.expects c stage) := by
  unfold expects
  split_ifs with h
  · exact advances_head h
  · trivial

theorem advances_token (s : Scanner) : s.Advances (s.token s.stage s.cursor.rest) := by
  unfold token
  split
  · split_ifs with h
    · exact advances_head h
    · exact advances_goes (Nat.zero_le _)
  · split_ifs with h
    · exact advances_head h.2
    · trivial
    · trivial
    · exact advances_string s _
  · split_ifs with h
    · exact advances_head h
    · exact advances_expects s _ _
  · exact advances_string s _
  · exact advances_expects s _ _
  · split_ifs
    · trivial
    · trivial

theorem triviaLength_le {cs : List Char} (h : triviaLength cs = .ok n) : n ≤ cs.length := by
  unfold triviaLength at h
  split at h
  · split at h
    · cases h
      simp only [List.length_cons]
      omega
    · cases h
  · next body =>
    cases h
    have hle := (List.takeWhile_sublist (fun c : Char => decide (c ≠ '\n')) (l := body)).length_le
    simp only [List.length_cons]
    omega
  · cases h
    split_ifs <;> simp
  · cases h
    exact Nat.zero_le _

theorem advances_trivia (s : Scanner) : s.Advances s.trivia := by
  unfold trivia
  split
  · trivial
  · exact advances_token s
  · next h => exact advances_goes (triviaLength_le h)

theorem advances_plain (s : Scanner) : s.Advances s.plain := by
  unfold plain
  split
  · next h =>
    split_ifs
    · exact advances_one h
    · exact advances_goes (Nat.zero_le _)
  · exact advances_goes (Nat.zero_le _)

theorem advances_quoted (s : Scanner) (opened : Nat) : s.Advances (s.quoted opened) := by
  unfold quoted
  split
  · trivial
  · next h => exact advances_one h
  · next h => exact advances_one h
  · next h => exact advances_one h

theorem advances_escape (s : Scanner) (opened : Nat) : s.Advances (s.escape opened) := by
  unfold escape
  split
  · trivial
  · next h => split_ifs <;> exact advances_one h

theorem advances_hex4 (s : Scanner) (marker : Char) (activity : Nat → Activity) :
    s.Advances (s.hex4 marker activity) := by
  unfold hex4
  split
  · trivial
  · next h =>
    obtain ⟨digits, _, -, hlength, -, htext⟩ := readHex4_eq_ok_iff.mp h
    refine advances_goes ?_
    rw [htext, List.length_append]
    omega

theorem advances_unit (s : Scanner) (opened : Nat) (marker : Char) (code : Nat) :
    s.Advances (s.unit opened marker code) := by
  unfold unit
  split_ifs
  · trivial
  · split
    · next h =>
      split_ifs
      · refine advances_goes ?_
        simp [h]
      · trivial
    · trivial
  · exact advances_goes (Nat.zero_le _)

theorem advances_lowUnit (s : Scanner) (opened : Nat) (marker : Char) (code low : Nat) :
    s.Advances (s.lowUnit opened marker code low) := by
  unfold lowUnit
  split_ifs
  · exact advances_goes (Nat.zero_le _)
  · trivial

theorem advances_octal (s : Scanner) (opened limit : Nat) : s.Advances (s.octal opened limit) := by
  unfold octal
  split
  · next h =>
    split_ifs
    · exact advances_one h
    · exact advances_goes (Nat.zero_le _)
  · exact advances_goes (Nat.zero_le _)

theorem advances_next (s : Scanner) : s.Advances s.next := by
  unfold next
  split
  · exact advances_trivia s
  · exact advances_plain s
  · exact advances_quoted s _
  · exact advances_escape s _
  · exact advances_hex4 s _ _
  · exact advances_unit s _ _ _
  · exact advances_hex4 s _ _
  · exact advances_lowUnit s _ _ _ _
  · exact advances_octal s _ _

theorem at_of_next (h : s.cursor.At text) (hnext : s.next = .goes t) : t.cursor.At text := by
  have hadvances := advances_next s
  rw [hnext] at hadvances
  obtain ⟨n, hn, hcursor⟩ := hadvances
  rw [hcursor]
  exact h.advance hn

theorem at_of_steps (h : s.cursor.At text) (hsteps : s.Steps t) : t.cursor.At text := by
  induction hsteps with
  | refl => exact h
  | tail _ hnext ih => exact at_of_next ih hnext

theorem at_of_reached (h : Reached text s) : s.cursor.At text :=
  at_of_steps (Cursor.at_start text) h

theorem end_unique {u v : Scanner} (hu : s.Steps u) (hv : s.Steps v)
    (hendu : ∀ w, u.next ≠ .goes w) (hendv : ∀ w, v.next ≠ .goes w) : u = v := by
  have hunique : Relator.RightUnique fun s t : Scanner => s.next = .goes t := by
    intro s t w ht hw
    rw [ht] at hw
    exact Outcome.goes.inj hw
  rcases ReflTransGen.total_of_right_unique hunique hu hv with huv | hvu
  · rcases huv.cases_head with heq | ⟨w, hw, -⟩
    · exact heq
    · exact absurd hw (hendu w)
  · rcases hvu.cases_head with heq | ⟨w, hw, -⟩
    · exact heq.symm
    · exact absurd hw (hendv w)

end advances

end Scanner

end LocaleAccessors.Strings
