import LocaleAccessors.Proofs.Source.Parts
import LocaleAccessors.Proofs.Strings.Tokens

/-!
The body of a string literal of C, read by the rules of the language: it ends at the first quote that
no backslash escapes, and an octal escape takes up to three digits. What is escaped reads as itself,
whatever comes after it.
-/

namespace LocaleAccessors.Source.ObjectiveC
open Strings (readOctal readOctal_eq length_readOctal_le)
open Text (OctalDigit numeralValue octal_numeral)

def namedEscape? : Char → Option Char
  | '\'' => some '\''
  | '"' => some '"'
  | '?' => some '?'
  | '\\' => some '\\'
  | 'a' => some '\x07'
  | 'b' => some '\x08'
  | 'f' => some '\x0C'
  | 'n' => some '\n'
  | 'r' => some '\r'
  | 't' => some '\t'
  | 'v' => some '\x0B'
  | _ => none

/-- The text up to the quote that ends the literal, and what follows the quote. A number beyond ASCII is
a byte and no character. Numbers in base sixteen are not read. -/
def readLiteral (cs : List Char) : Option (List Char × List Char) :=
  match cs with
  | [] => none
  | '"' :: rest => some ([], rest)
  | '\\' :: c :: rest =>
    match namedEscape? c with
    | some d => prepend d (readLiteral rest)
    | none =>
      let octal := readOctal 3 (c :: rest)
      let value := numeralValue 8 octal.1
      if octal.1 ≠ [] ∧ value < 0x80 then prepend (Char.ofNat value) (readLiteral octal.2) else none
  | c :: rest => if c ∈ ['\\', '\n', '\r'] then none else prepend c (readLiteral rest)
termination_by cs.length
decreasing_by
  · simp only [List.length_cons]
    omega
  · exact Nat.lt_succ_of_le (length_readOctal_le 3 (c :: rest))
  · simp

theorem readLiteral_plain {c : Char} (h : c ≠ '"' ∧ c ≠ '\\' ∧ c ≠ '\n' ∧ c ≠ '\r')
    (rest : List Char) : readLiteral (c :: rest) = prepend c (readLiteral rest) := by
  rw [readLiteral]
  · simp [h]
  · simp [h]
  · simp [h]

theorem readLiteral_named {c d : Char} (h : namedEscape? c = some d) (rest : List Char) :
    readLiteral ('\\' :: c :: rest) = prepend d (readLiteral rest) := by
  rw [readLiteral]
  simp only [h]

theorem namedEscape?_of_octalDigit {c : Char} {v : Nat} (h : OctalDigit c v) :
    namedEscape? c = none := by
  obtain ⟨hv, rfl⟩ := h
  interval_cases v <;> rfl

theorem readLiteral_octal {digits : List Char} {values : List Nat}
    (h : List.Forall₂ OctalDigit digits values) (hlength : values.length = 3)
    (hvalue : numeralValue 8 values < 0x80) (rest : List Char) :
    readLiteral ('\\' :: (digits ++ rest)) =
      prepend (Char.ofNat (numeralValue 8 values)) (readLiteral rest) := by
  have hdigits : digits.length = 3 := h.length_eq.trans hlength
  have hread : readOctal 3 (digits ++ rest) = (values, rest) :=
    readOctal_eq h hdigits.le fun hless => absurd hdigits hless.ne
  cases h with
  | nil => cases hlength
  | @cons d v digits values hd hmore =>
    rw [List.cons_append] at hread ⊢
    rw [readLiteral]
    simp only [namedEscape?_of_octalDigit hd, hread]
    rw [if_pos ⟨List.cons_ne_nil v values, hvalue⟩]

theorem readLiteral_controlEscape {c : Char} (hc : c.toNat < 0x80) (rest : List Char) :
    readLiteral (controlEscape .objectiveC c ++ rest) = prepend c (readLiteral rest) := by
  obtain ⟨values, hdigits, hlength, hvalue⟩ := octal_numeral hc
  have hread := readLiteral_octal hdigits hlength (hvalue ▸ hc) rest
  rwa [← hvalue, Char.ofNat_toNat] at hread

theorem readLiteral_escapeChar (c : Char) (rest : List Char) :
    readLiteral (escapeChar .objectiveC c ++ rest) = prepend c (readLiteral rest) := by
  unfold escapeChar
  split
  case h_6 hbackslash hquote hnewline hreturn htab =>
    split
    · exact readLiteral_controlEscape (by omega) rest
    · exact readLiteral_plain ⟨hquote, hbackslash, hnewline, hreturn⟩ rest
  all_goals exact readLiteral_named rfl rest

theorem readLiteral_escape (text : String) (rest : List Char) :
    readLiteral ((escape .objectiveC text).toList ++ '"' :: rest) = some (text.toList, rest) := by
  rw [escape, String.toList_ofList]
  induction text.toList with
  | nil => rw [List.flatMap_nil, List.nil_append, readLiteral]
  | cons c cs ih => rw [List.flatMap_cons, List.append_assoc, readLiteral_escapeChar, ih]; rfl

end LocaleAccessors.Source.ObjectiveC
