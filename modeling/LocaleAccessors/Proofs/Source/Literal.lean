import LocaleAccessors.Proofs.Source.ObjectiveC.Literal
import LocaleAccessors.Proofs.Source.Swift.Literal
import Mathlib.Data.List.DropRight

/-!
String literals. An escaped text is the body of a literal in its language: it holds no control
characters and no quote that is not escaped, and it decodes to the text, so that no two texts are escaped
alike.
-/

namespace LocaleAccessors.Source

/-- A literal behind its opening quote, read up to the closing one by the rules of the language. -/
def readLiteral : Language → List Char → Option (List Char × List Char)
  | .swift => Swift.readLiteral .plain
  | .objectiveC => ObjectiveC.readLiteral

def trailingBackslashes (cs : List Char) : Nat :=
  (cs.rtakeWhile (· = '\\')).length

/-- Backslashes in front of a quote escape each other in pairs, and one more escapes the quote. -/
def QuotesEscaped (body : List Char) : Prop :=
  ∀ before after, body = before ++ '"' :: after → Odd (trailingBackslashes before)

theorem trailingBackslashes_concat (cs : List Char) (c : Char) :
    trailingBackslashes (cs ++ [c]) = if c = '\\' then trailingBackslashes cs + 1 else 0 := by
  by_cases h : c = '\\' <;> simp [trailingBackslashes, h]

section escapes
variable (language : Language)

theorem signs_of_controlEscape : ∀ n < 0x80,
    (controlEscape language (Char.ofNat n)).getLast?.any (· ≠ '\\') ∧
      '"' ∉ controlEscape language (Char.ofNat n) := by
  cases language <;> decide +kernel

theorem exists_last_of_escapeChar {c : Char} (h : c ≠ '\\') :
    ∃ front last, escapeChar language c = front ++ [last] ∧ last ≠ '\\' := by
  have hlast : (escapeChar language c).getLast?.any (· ≠ '\\') := by
    unfold escapeChar
    split
    case h_1 => exact absurd rfl h
    case h_6 =>
      split
      · have hsigns := (signs_of_controlEscape language c.toNat (by omega)).1
        rwa [Char.ofNat_toNat] at hsigns
      · simpa using h
    all_goals decide
  obtain ⟨last, hmem, hne⟩ := (Option.any_eq_true _ _).mp hlast
  obtain ⟨front, hfront⟩ := List.getLast?_eq_some_iff.mp hmem
  exact ⟨front, last, hfront, by simpa using hne⟩

theorem eq_quote_of_mem_escapeChar {c : Char} (h : '"' ∈ escapeChar language c) : c = '"' := by
  unfold escapeChar at h
  split at h
  case h_6 =>
    split at h
    · have hnone := (signs_of_controlEscape language c.toNat (by omega)).2
      rw [Char.ofNat_toNat] at hnone
      exact absurd h hnone
    · exact (List.mem_singleton.mp h).symm
  all_goals simp_all

theorem even_trailingBackslashes (cs : List Char) :
    Even (trailingBackslashes (cs.flatMap (escapeChar language))) := by
  induction cs using List.reverseRecOn with
  | nil => simp [trailingBackslashes]
  | append_singleton cs c ih =>
    rw [List.flatMap_append, List.flatMap_singleton]
    by_cases hc : c = '\\'
    · have hpair : escapeChar language c = ['\\'] ++ ['\\'] := by rw [hc]; rfl
      rw [hpair, ← List.append_assoc, trailingBackslashes_concat, trailingBackslashes_concat]
      simpa [Nat.even_add] using ih
    · obtain ⟨front, last, hlast, hne⟩ := exists_last_of_escapeChar language hc
      rw [hlast, ← List.append_assoc, trailingBackslashes_concat, if_neg hne]
      decide

theorem escapeChar_eq_append_quote {c : Char} {before after : List Char}
    (h : escapeChar language c = before ++ '"' :: after) : before = ['\\'] := by
  have hc : c = '"' := eq_quote_of_mem_escapeChar language (by simp [h])
  rw [hc, show escapeChar language '"' = ['\\', '"'] from rfl] at h
  match before with
  | [] => cases h
  | [d] => cases h; rfl
  | d :: e :: more => simp at h

theorem quotesEscaped_escape (cs : List Char) : QuotesEscaped (cs.flatMap (escapeChar language)) := by
  induction cs using List.reverseRecOn with
  | nil => simp [QuotesEscaped]
  | append_singleton cs c ih =>
    intro before after h
    rw [List.flatMap_append, List.flatMap_singleton, List.append_eq_append_iff] at h
    obtain ⟨piece, hbefore, hpiece⟩ | ⟨piece, hfront, hafter⟩ := h
    · rw [hbefore, escapeChar_eq_append_quote language hpiece, trailingBackslashes_concat, if_pos rfl]
      exact (even_trailingBackslashes language cs).add_one
    · cases piece with
      | nil =>
        rw [List.nil_append] at hafter
        cases escapeChar_eq_append_quote language (hafter.symm.trans (List.nil_append _).symm)
      | cons d piece =>
        rw [List.cons_append, List.cons.injEq] at hafter
        exact ih before piece (hfront.trans (by rw [← hafter.1]))

theorem readLiteral_escape (text : String) (rest : List Char) :
    readLiteral language ((escape language text).toList ++ '"' :: rest) =
      some (text.toList, rest) := by
  cases language with
  | swift => exact Swift.readLiteral_escape text rest
  | objectiveC => exact ObjectiveC.readLiteral_escape text rest

theorem escape_injective : Function.Injective (escape language) := by
  intro s t h
  have hs := readLiteral_escape language s []
  rw [h, readLiteral_escape] at hs
  exact String.toList_inj.mp (congrArg Prod.fst (Option.some.inj hs)).symm

theorem escape_append (s t : String) :
    escape language (s ++ t) = escape language s ++ escape language t := by
  rw [escape, String.toList_append, List.flatMap_append, String.ofList_append]
  rfl

end escapes

/-- An escaped text is the body of a literal, and of the literal of no other text. -/
theorem escape_exact (language : Language) :
    (∀ text, (∀ c ∈ (escape language text).toList, 0x20 ≤ c.toNat ∧ c.toNat ≠ 0x7F) ∧
      QuotesEscaped (escape language text).toList ∧
      ∀ rest, readLiteral language ((escape language text).toList ++ '"' :: rest) =
        some (text.toList, rest)) ∧
    Function.Injective (escape language) ∧
    ∀ s t, escape language (s ++ t) = escape language s ++ escape language t := by
  refine ⟨fun text => ⟨fun c hc => ?_, ?_, readLiteral_escape language text⟩,
    escape_injective language, escape_append language⟩
  · have hplain := no_control_of_escape language text c hc
    omega
  · rw [escape, String.toList_ofList]
    exact quotesEscaped_escape language text.toList

end LocaleAccessors.Source
