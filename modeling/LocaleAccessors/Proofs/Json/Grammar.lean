import LocaleAccessors.Json.Value
import LocaleAccessors.Proofs.Strings.Grammar

/-!
The grammar of JSON texts that hold an object whose values are texts. As in the grammar of strings
files, each relation holds between a text, what is found at the front of it and what follows. Every
list of rows has such a text.
-/

namespace LocaleAccessors.Json
open Strings (Hex4)
open Text (numeral numeralValue hexValue? mapM_hexValue?_eq_some_iff)

def IsBlank (c : Char) : Prop := c = ' ' ∨ c = '\t' ∨ c = '\n' ∨ c = '\r'

instance (c : Char) : Decidable (IsBlank c) :=
  inferInstanceAs (Decidable (c = ' ' ∨ c = '\t' ∨ c = '\n' ∨ c = '\r'))

def Space (text rest : List Char) : Prop :=
  ∃ blanks, (∀ c ∈ blanks, IsBlank c) ∧ text = blanks ++ rest

def namedEscapes : List (Char × Char) :=
  [('"', '"'), ('\\', '\\'), ('/', '/'), ('b', '\x08'), ('f', '\x0C'), ('n', '\n'), ('r', '\r'),
    ('t', '\t')]

/-- An escape after its backslash. A unit spells the character of its number, which no surrogate is,
and a high and a low surrogate spell one character together. -/
inductive Escape : List Char → Char → List Char → Prop where
  | named {letter c : Char} {rest : List Char} : (letter, c) ∈ namedEscapes →
      Escape (letter :: rest) c rest
  | unit {c : Char} {text rest : List Char} : Hex4 text c.toNat rest → Escape ('u' :: text) c rest
  | pair {c : Char} {text more rest : List Char} {high low : Nat} :
      Hex4 text high ('\\' :: 'u' :: more) → Hex4 more low rest →
      0xD800 ≤ high → high < 0xDC00 → 0xDC00 ≤ low → low < 0xE000 →
      c.toNat = 0x10000 + 0x400 * (high - 0xD800) + (low - 0xDC00) → Escape ('u' :: text) c rest

/-- The rest of a text after its opening quote. No control character stands in it as it is. -/
inductive Quoted : List Char → List Char → List Char → Prop where
  | close {rest : List Char} : Quoted ('"' :: rest) [] rest
  | escape {c : Char} {text more s rest : List Char} : Escape text c more →
      Quoted more s rest → Quoted ('\\' :: text) (c :: s) rest
  | char {c : Char} {text s rest : List Char} : 0x20 ≤ c.toNat → c ≠ '"' → c ≠ '\\' →
      Quoted text s rest → Quoted (c :: text) (c :: s) rest

inductive Member : List Char → String × String → List Char → Prop where
  | mk {text a b c rest key value : List Char} : Quoted text key a → Space a (':' :: b) →
      Space b ('"' :: c) → Quoted c value rest →
      Member ('"' :: text) (String.ofList key, String.ofList value) rest

inductive Members : List Char → List (String × String) → List Char → Prop where
  | last {text a rest : List Char} {row : String × String} :
      Member text row a → Space a ('}' :: rest) → Members text [row] rest
  | cons {text a b c rest : List Char} {row : String × String} {rows : List (String × String)} :
      Member text row a → Space a (',' :: b) → Space b c → Members c rows rest →
      Members text (row :: rows) rest

inductive Object : List Char → List (String × String) → List Char → Prop where
  | empty {text rest : List Char} : Space text ('}' :: rest) → Object ('{' :: text) [] rest
  | filled {text a rest : List Char} {rows : List (String × String)} : Space text a →
      Members a rows rest → Object ('{' :: text) rows rest

/-- The text of a whole file. -/
def Document (text : List Char) (rows : List (String × String)) : Prop :=
  ∃ a b, Space text a ∧ Object a rows b ∧ Space b []

section spelling

theorem Space.refl (text : List Char) : Space text text :=
  ⟨[], List.forall_mem_nil _, rfl⟩

theorem hex4_control {n : Nat} (h : n < 0x20) (rest : List Char) :
    Hex4 (numeral 16 4 n ++ rest) n rest := by
  have hdigits : ∀ n < 0x20, (numeral 16 4 n).mapM hexValue? = some [0, 0, n / 16, n % 16] ∧
      n = numeralValue 16 [0, 0, n / 16, n % 16] := by decide +kernel
  obtain ⟨hread, hvalue⟩ := hdigits n h
  have hforall := mapM_hexValue?_eq_some_iff.mp hread
  exact ⟨_, _, hforall, hforall.length_eq, hvalue, rfl⟩

theorem quoted_of_plain (s rest : List Char)
    (h : ∀ c ∈ s, 0x20 ≤ c.toNat ∧ c ≠ '"' ∧ c ≠ '\\') : Quoted (s ++ '"' :: rest) s rest := by
  induction s with
  | nil => exact .close
  | cons c s ih =>
    obtain ⟨⟨hcontrol, hquote, hslash⟩, hs⟩ := List.forall_mem_cons.mp h
    exact .char hcontrol hquote hslash (ih hs)

theorem exists_quoted (s rest : List Char) : ∃ text, Quoted text s rest := by
  induction s with
  | nil => exact ⟨_, .close⟩
  | cons c s ih =>
    obtain ⟨text, h⟩ := ih
    by_cases hquote : c = '"'
    · have hnamed : ('"', c) ∈ namedEscapes := by simp [hquote, namedEscapes]
      exact ⟨_, .escape (.named hnamed) h⟩
    by_cases hslash : c = '\\'
    · have hnamed : ('\\', c) ∈ namedEscapes := by simp [hslash, namedEscapes]
      exact ⟨_, .escape (.named hnamed) h⟩
    by_cases hcontrol : c.toNat < 0x20
    · exact ⟨_, .escape (.unit (hex4_control hcontrol text)) h⟩
    · exact ⟨_, .char (Nat.le_of_not_lt hcontrol) hquote hslash h⟩

theorem exists_member (row : String × String) (rest : List Char) :
    ∃ text, Member text row rest := by
  obtain ⟨c, hvalue⟩ := exists_quoted row.2.toList rest
  obtain ⟨text, hkey⟩ := exists_quoted row.1.toList (':' :: '"' :: c)
  have h := Member.mk hkey (.refl _) (.refl _) hvalue
  simp only [String.ofList_toList] at h
  exact ⟨_, h⟩

theorem exists_members (row : String × String) (rows : List (String × String)) (rest : List Char) :
    ∃ text, Members text (row :: rows) rest := by
  induction rows generalizing row with
  | nil =>
    obtain ⟨text, h⟩ := exists_member row ('}' :: rest)
    exact ⟨text, .last h (.refl _)⟩
  | cons next rows ih =>
    obtain ⟨more, hmore⟩ := ih next
    obtain ⟨text, h⟩ := exists_member row (',' :: more)
    exact ⟨text, .cons h (.refl _) (.refl _) hmore⟩

theorem exists_document (rows : List (String × String)) : ∃ text, Document text rows := by
  cases rows with
  | nil => exact ⟨_, _, [], .refl _, .empty (.refl _), .refl _⟩
  | cons row rows =>
    obtain ⟨text, h⟩ := exists_members row rows []
    exact ⟨_, _, [], .refl _, .filled (.refl _) h, .refl _⟩

end spelling

end LocaleAccessors.Json
