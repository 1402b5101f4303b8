import LocaleAccessors.Name.Identifier
import LocaleAccessors.Proofs.Name.Distinct

/-!
Names that a language takes: not empty, no digit at the start, no reserved word. Every identifier is
one, and a suffix keeps it one.
-/

namespace LocaleAccessors.Name
open Text (isDigit)

structure Usable (reserved : List String) (name : String) : Prop where
  not_empty : name ≠ ""
  not_digit : ∀ c ∈ name.toList.head?, ¬ isDigit c
  not_reserved : name ∉ reserved

/-! What the reserved words have in common: none ends in a digit, and none begins with an underscore
but those that begin with two of them and are no reserved words without the first. -/

theorem underscore_not_reserved (language : Language) : "_" ∉ language.reserved := by
  cases language <;> decide

theorem not_digit_of_last (language : Language) :
    ∀ word ∈ language.reserved, ∀ c ∈ word.toList.getLast?, ¬ c.isDigit := by
  have hall : ∀ word ∈ language.reserved, ¬ word.toList.getLast?.any Char.isDigit := by
    cases language <;> decide +kernel
  intro word hword c hc hdigit
  refine hall word hword ?_
  rw [Option.mem_def.mp hc]
  exact hdigit

theorem second_of_underscore (language : Language) :
    ∀ word ∈ language.reserved, word.toList.head? = some '_' →
      word.toList.tail.head? = some '_' ∧ String.ofList word.toList.tail ∉ language.reserved := by
  cases language <;> decide +kernel

theorem toList_underscore (name : String) : ("_" ++ name).toList = '_' :: name.toList := by
  simp

variable {language : Language} {name : String} {reserved : List String}

theorem usable_underscore
    (h : name ∈ language.reserved ∨ ∃ c ∈ name.toList.head?, isDigit c) :
    Usable language.reserved ("_" ++ name) where
  not_empty := by
    intro hempty
    have hlist := congrArg String.toList hempty
    simp at hlist
  not_digit := by
    rw [toList_underscore]
    intro c hc
    cases hc
    decide
  not_reserved := by
    intro hword
    have hfacts := second_of_underscore language _ hword
    rw [toList_underscore] at hfacts
    obtain ⟨hsecond, hnot⟩ := hfacts rfl
    rw [List.tail_cons] at hsecond hnot
    cases h with
    | inl hreserved =>
      rw [String.ofList_toList] at hnot
      exact hnot hreserved
    | inr hdigit =>
      obtain ⟨c, hc, hdigit⟩ := hdigit
      rw [Option.mem_def, hsecond] at hc
      cases hc
      exact absurd hdigit (by decide)

theorem usable_identifier (language : Language) (capitalize : Bool) (segment : String) :
    Usable language.reserved ((Rules.of language capitalize).identifier segment) := by
  unfold Rules.identifier
  dsimp only
  split
  · refine ⟨by decide, ?_, underscore_not_reserved language⟩
    intro c hc
    cases hc
    decide
  · next c rest _ =>
    split_ifs with h
    · refine usable_underscore ?_
      rw [Bool.or_eq_true, decide_eq_true_eq] at h
      cases h with
      | inl hdigit => exact .inr ⟨c, by simp, hdigit⟩
      | inr hreserved => exact .inl hreserved
    · rw [Bool.or_eq_true, decide_eq_true_eq, not_or] at h
      refine ⟨?_, ?_, h.2⟩
      · intro hempty
        have hlist := congrArg String.toList hempty
        simp at hlist
      · intro d hd
        rw [String.toList_ofList, List.head?_cons] at hd
        cases hd
        exact h.1

theorem toList_suffixed (name : String) (k : Nat) :
    (suffixed name k).toList = name.toList ++ '_' :: Nat.toDigits 10 k := by
  simp [suffixed]

theorem isDigit_of_last_suffixed (name : String) (k : Nat) :
    ∃ c ∈ (suffixed name k).toList.getLast?, c.isDigit := by
  have hne : Nat.toDigits 10 k ≠ [] := Nat.toDigits_ne_nil
  refine ⟨(Nat.toDigits 10 k).getLast hne, ?_, ?_⟩
  · rw [toList_suffixed, List.getLast?_append_of_ne_nil _ (List.cons_ne_nil _ _),
      List.getLast?_eq_some_getLast (List.cons_ne_nil _ _), List.getLast_cons hne]
    exact rfl
  · exact Nat.isDigit_of_mem_toDigits (by decide) (by decide) (List.getLast_mem hne)

theorem Usable.suffixed (h : Usable language.reserved name) (k : Nat) :
    Usable language.reserved (Name.suffixed name k) where
  not_empty := by
    intro hempty
    have hlist := congrArg String.toList hempty
    rw [toList_suffixed] at hlist
    simp at hlist
  not_digit := by
    have hne : name.toList ≠ [] := fun hnil => h.not_empty (String.toList_eq_nil_iff.mp hnil)
    rw [toList_suffixed, List.head?_append_of_ne_nil _ hne]
    exact h.not_digit
  not_reserved := by
    intro hword
    -- The suffix ends in a digit, and no reserved word does.
    obtain ⟨c, hc, hdigit⟩ := isDigit_of_last_suffixed name k
    exact not_digit_of_last language _ hword c hc hdigit

theorem Usable.distinctName (h : Usable language.reserved name) (taken : List String) :
    Usable language.reserved (Name.distinctName name taken) := by
  obtain ⟨-, heq⟩ | ⟨-, k, -, heq, -, -⟩ := distinctName_cases name taken
  · rwa [heq]
  · rw [heq]
    exact h.suffixed k

end LocaleAccessors.Name
