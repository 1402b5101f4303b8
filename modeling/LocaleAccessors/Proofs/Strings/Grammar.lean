import LocaleAccessors.Strings.Reader
import LocaleAccessors.Proofs.Text.Digit
import Mathlib.Logic.Relation

/-!
The grammar of strings files. Each relation holds between a text, what is found at the front of it
and what follows; none of them mentions a reader.
-/

namespace LocaleAccessors.Strings
open Table (Entry entries)
open Text (isBlank numeralValue HexDigit OctalDigit)

/-- One piece of what may stand between tokens. A block comment ends at the first `*/` after its
opening, a line comment in front of the next newline or at the end of the text. -/
inductive Piece : List Char → List Char → Prop where
  | blank {c : Char} {rest : List Char} : isBlank c → Piece (c :: rest) rest
  | block {body rest : List Char} : ¬ ['*', '/'] <:+: body →
      Piece ('/' :: '*' :: (body ++ '*' :: '/' :: rest)) rest
  | line {body rest : List Char} : '\n' ∉ body → (∀ c ∈ rest.head?, c = '\n') →
      Piece ('/' :: '/' :: (body ++ rest)) rest

def Gap (text rest : List Char) : Prop :=
  Relation.ReflTransGen Piece text rest ∧ ∀ more, ¬ Piece rest more

def namedEscapes : List (Char × Char) :=
  [('n', '\n'), ('t', '\t'), ('r', '\r'), ('a', '\x07'), ('b', '\x08'), ('f', '\x0C'),
    ('v', '\x0B'), ('"', '"'), ('\'', '\''), ('\\', '\\')]

def Hex4 (text : List Char) (n : Nat) (rest : List Char) : Prop :=
  ∃ digits values, List.Forall₂ HexDigit digits values ∧ digits.length = 4 ∧
    n = numeralValue 16 values ∧ text = digits ++ rest

def IsMarker (c : Char) : Prop := c = 'U' ∨ c = 'u'

/-- An escape after its backslash. The value of a unit is a character's own number, which no
surrogate is; two units that are a high and a low surrogate make one character. -/
inductive Escape : List Char → Char → List Char → Prop where
  | named {letter c : Char} {rest : List Char} : (letter, c) ∈ namedEscapes →
      Escape (letter :: rest) c rest
  | unit {marker c : Char} {text rest : List Char} : IsMarker marker →
      Hex4 text c.toNat rest → Escape (marker :: text) c rest
  | pair {first second c : Char} {text more rest : List Char} {high low : Nat} :
      IsMarker first → Hex4 text high ('\\' :: second :: more) →
      IsMarker second → Hex4 more low rest →
      0xD800 ≤ high → high < 0xDC00 → 0xDC00 ≤ low → low < 0xE000 →
      c.toNat = 0x10000 + 0x400 * (high - 0xD800) + (low - 0xDC00) →
      Escape (first :: text) c rest
  | octal {c : Char} {digits rest : List Char} {values : List Nat} :
      List.Forall₂ OctalDigit digits values → digits ≠ [] → digits.length ≤ 3 →
      (digits.length < 3 → ∀ d ∈ rest.head?, ∀ v, ¬ OctalDigit d v) →
      c.toNat = numeralValue 8 values → Escape (digits ++ rest) c rest
  | itself {c : Char} {rest : List Char} : (∀ e, (c, e) ∉ namedEscapes) → ¬ IsMarker c →
      (∀ v, ¬ OctalDigit c v) → Escape (c :: rest) c rest

inductive Quoted : List Char → List Char → List Char → Prop where
  | close {rest : List Char} : Quoted ('"' :: rest) [] rest
  | escape {c : Char} {text more s rest : List Char} : Escape text c more →
      Quoted more s rest → Quoted ('\\' :: text) (c :: s) rest
  | char {c : Char} {text s rest : List Char} : c ≠ '"' → c ≠ '\\' →
      Quoted text s rest → Quoted (c :: text) (c :: s) rest

/-- A string token: quoted, or a run of plain characters that no further one follows. -/
inductive Token : List Char → List Char → List Char → Prop where
  | quoted {text s rest : List Char} : Quoted text s rest → Token ('"' :: text) s rest
  | plain {s rest : List Char} : s ≠ [] → (∀ c ∈ s, isPlain c) →
      (∀ c ∈ rest.head?, ¬ isPlain c) → Token (s ++ rest) s rest

/-- A row, which is a key and its value. A key alone is its own value. -/
inductive Row : List Char → String × String → List Char → Prop where
  | alone {text a rest key : List Char} : Token text key a → Gap a (';' :: rest) →
      Row text (String.ofList key, String.ofList key) rest
  | pair {text a b c d rest key value : List Char} : Token text key a → Gap a ('=' :: b) →
      Gap b c → Token c value d → Gap d (';' :: rest) →
      Row text (String.ofList key, String.ofList value) rest

inductive Rows : List Char → List (String × String) → List Char → Prop where
  | nil {rest : List Char} : Rows rest [] rest
  | cons {text a b rest : List Char} {row : String × String} {rows : List (String × String)} :
      Row text row a → Gap a b → Rows b rows rest → Rows text (row :: rows) rest

/-- The text of a whole file. -/
inductive Document : List Char → List (String × String) → Prop where
  | bare {text a : List Char} {rows : List (String × String)} : Gap text a → Rows a rows [] →
      Document text rows
  | braced {text a b c : List Char} {rows : List (String × String)} : Gap text ('{' :: a) →
      Gap a b → Rows b rows ('}' :: c) → Gap c [] → Document text rows

end LocaleAccessors.Strings
