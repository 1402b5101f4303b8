import LocaleAccessors.Proofs.Source.Parts
import LocaleAccessors.Proofs.Text.Digit

/-!
The body of a Swift string literal, read by the rules of the language: it ends at the first quote that
no backslash escapes. What is escaped reads as itself, whatever comes after it.
-/

namespace LocaleAccessors.Source.Swift
open Text (hexValue? numeral)

/-- Where a reader stands in a literal: outside escapes, after a backslash, after the `u` of a code
point, or among its digits, with their number and their value so far. -/
inductive LiteralState where
  | plain
  | escaped
  | code
  | digits (count value : Nat)

def namedEscape? : Char → Option Char
  | '0' => some '\x00'
  | '\\' => some '\\'
  | 't' => some '\t'
  | 'n' => some '\n'
  | 'r' => some '\r'
  | '"' => some '"'
  | '\'' => some '\''
  | _ => none

/-- The text up to the quote that ends the literal, and what follows the quote. A code point has one to
eight digits. -/
def readLiteral : LiteralState → List Char → Option (List Char × List Char)
  | _, [] => none
  | .plain, c :: rest =>
    if c = '"' then some ([], rest)
    else if c = '\\' then readLiteral .escaped rest
    else if c = '\n' ∨ c = '\r' then none
    else prepend c (readLiteral .plain rest)
  | .escaped, c :: rest =>
    if c = 'u' then readLiteral .code rest
    else
      match namedEscape? c with
      | some d => prepend d (readLiteral .plain rest)
      | none => none
  | .code, c :: rest => if c = '\x7b' then readLiteral (.digits 0 0) rest else none
  | .digits count value, c :: rest =>
    if c = '\x7d' then
      if 1 ≤ count ∧ count ≤ 8 ∧ value.isValidChar then
        prepend (Char.ofNat value) (readLiteral .plain rest)
      else none
    else
      match hexValue? c with
      | some d => readLiteral (.digits (count + 1) (16 * value + d)) rest
      | none => none

theorem readLiteral_digits {digits : List Char} {values : List Nat}
    (h : digits.map hexValue? = values.map some) (count value : Nat) (rest : List Char) :
    readLiteral (.digits count value) (digits ++ rest) =
      readLiteral (.digits (count + digits.length) (values.foldl (16 * · + ·) value)) rest := by
  induction digits generalizing values count value with
  | nil =>
    rw [List.map_nil, eq_comm, List.map_eq_nil_iff] at h
    rw [h]
    rfl
  | cons d digits ih =>
    cases values with
    | nil => cases h
    | cons v values =>
      obtain ⟨hd, hdigits⟩ := List.cons.inj h
      have hbrace : d ≠ '\x7d' := by
        rintro rfl
        cases hd
      rw [List.cons_append, readLiteral, if_neg hbrace, hd]
      simp only [ih hdigits, List.length_cons, List.foldl_cons, Nat.add_assoc, Nat.add_comm 1]

theorem hexValues_numeral : ∀ n < 0x80,
    (numeral 16 0 n).map hexValue? = ((numeral 16 0 n).filterMap hexValue?).map some ∧
    1 ≤ (numeral 16 0 n).length ∧ (numeral 16 0 n).length ≤ 8 ∧
    ((numeral 16 0 n).filterMap hexValue?).foldl (16 * · + ·) 0 = n := by
  decide +kernel

theorem readLiteral_controlEscape {c : Char} (hc : c.toNat < 0x80) (rest : List Char) :
    readLiteral .plain (controlEscape .swift c ++ rest) =
      prepend c (readLiteral .plain rest) := by
  obtain ⟨hvalues, hone, height, hvalue⟩ := hexValues_numeral c.toNat hc
  have hvalid : c.toNat.isValidChar := .inl (by omega)
  calc
    readLiteral .plain (controlEscape .swift c ++ rest)
        = readLiteral (.digits 0 0) (numeral 16 0 c.toNat ++ '\x7d' :: rest) := by
          simp [controlEscape, readLiteral]
    _ = readLiteral (.digits (numeral 16 0 c.toNat).length c.toNat) ('\x7d' :: rest) := by
          rw [readLiteral_digits hvalues, Nat.zero_add, hvalue]
    _ = prepend c (readLiteral .plain rest) := by
          rw [readLiteral, if_pos rfl, if_pos ⟨hone, height, hvalid⟩, Char.ofNat_toNat]

theorem readLiteral_escapeChar (c : Char) (rest : List Char) :
    readLiteral .plain (escapeChar .swift c ++ rest) = prepend c (readLiteral .plain rest) := by
  unfold escapeChar
  split
  case h_6 hbackslash hquote hnewline hreturn htab =>
    split
    · exact readLiteral_controlEscape (by omega) rest
    · rw [List.singleton_append, readLiteral, if_neg hquote, if_neg hbackslash,
        if_neg (not_or.mpr ⟨hnewline, hreturn⟩)]
  all_goals rfl

theorem readLiteral_escape (text : String) (rest : List Char) :
    readLiteral .plain ((escape .swift text).toList ++ '"' :: rest) = some (text.toList, rest) := by
  rw [escape, String.toList_ofList]
  induction text.toList with
  | nil => rfl
  | cons c cs ih => rw [List.flatMap_cons, List.append_assoc, readLiteral_escapeChar, ih]; rfl

end LocaleAccessors.Source.Swift
