import LocaleAccessors.Namespace
import LocaleAccessors.Options
import LocaleAccessors.Proofs.Name.Distinct
import LocaleAccessors.Proofs.Text.Word

/-!
Every name that comes to stand in the code is a word: identifiers made from segments, with their
suffixes, the names of parameters, and the names that the options give.
-/

namespace LocaleAccessors
open Text (IsWord isWordChar isWordChar_of_isAlphanumeric isWordChar_of_mem_uppercase)

namespace Name
variable {name : String}

theorem flatten_words (cs : List Char) : (words cs).flatten = cs.filter (· ≠ '_') := by
  fun_induction words cs with
  | case1 => rfl
  | case2 rest ih => rw [ih, List.filter_cons_of_neg (by simp)]
  | case3 first hfirst ih | case4 first hfirst _ ih =>
    rw [List.filter_cons_of_pos (by simpa using hfirst), ← ih, List.flatten_cons,
      List.singleton_append]
  | case5 first rest hfirst found more hfound _ _ ih =>
    rw [hfound] at ih
    rw [List.filter_cons_of_pos (by simpa using hfirst), ← ih]
    simp only [hfound, List.flatten_cons, List.cons_append]
  | case6 first rest hfirst hfound _ _ ih =>
    rw [hfound] at ih
    rw [List.filter_cons_of_pos (by simpa using hfirst), ← ih]
    simp only [hfound, List.flatten_cons, List.flatten_nil, List.append_nil]

theorem isWordChar_of_mem_camelCase {cs : List Char} (h : ∀ c ∈ cs, isWordChar c) :
    ∀ c ∈ camelCase cs, isWordChar c := by
  unfold camelCase
  split
  · exact h
  · intro c hc
    obtain ⟨word, hword, hc⟩ := List.mem_flatMap.mp hc
    have hchars : ∀ d ∈ word, isWordChar d := by
      intro d hd
      have hflat : d ∈ (words cs).flatten := List.mem_flatten_of_mem hword hd
      rw [flatten_words] at hflat
      exact h d (List.mem_of_mem_filter hflat)
    cases word with
    | nil => cases hc
    | cons first rest =>
      cases List.mem_append.mp hc with
      | inl hc => exact isWordChar_of_mem_uppercase (hchars first List.mem_cons_self) hc
      | inr hc => exact hchars c (List.mem_cons_of_mem first hc)

theorem isWord_identifier (rules : Rules) (segment : String) : IsWord (rules.identifier segment) := by
  have hplain : ∀ c ∈ segment.toList.map fun c => if Text.isAlphanumeric c then c else '_',
      isWordChar c := by
    intro d hd
    obtain ⟨c, -, rfl⟩ := List.mem_map.mp hd
    split
    · next halpha => exact isWordChar_of_isAlphanumeric halpha
    · rfl
  unfold Rules.identifier
  dsimp only
  generalize hcs : (if rules.capitalize then _ else _) = cs
  have hchars : ∀ c ∈ cs, isWordChar c := by
    rw [← hcs]
    split
    · exact isWordChar_of_mem_camelCase hplain
    · exact hplain
  cases cs with
  | nil =>
    dsimp only
    decide
  | cons c rest =>
    have hname : IsWord (String.ofList (c :: rest)) := by
      refine ⟨fun hempty => ?_, ?_⟩
      · have hlist := congrArg String.toList hempty
        simp at hlist
      · rwa [String.toList_ofList]
    dsimp only
    split
    · have hunderscore : IsWord "_" := by decide
      exact hunderscore.append hname.chars
    · exact hname

theorem isWord_suffixed (h : IsWord name) (k : Nat) : IsWord (suffixed name k) :=
  (h.append (Text.forall_mem_of_all (by decide))).append (Text.isWordChar_of_mem_toString k)

theorem isWord_distinctName (h : IsWord name) (taken : List String) :
    IsWord (distinctName name taken) := by
  obtain ⟨-, heq⟩ | ⟨-, k, -, heq, -⟩ := distinctName_cases name taken
  · rwa [heq]
  · rw [heq]
    exact isWord_suffixed h k

end Name

theorem NameOption.isWord_of_fault? {option : NameOption} {language : Language} {name : String}
    (h : option.fault? language name = none) : IsWord name := by
  unfold NameOption.fault? at h
  split at h
  · cases h
  · next hidentifier => exact Text.isWord_of_isIdentifier (by simpa using hidentifier)

namespace Options
variable {o : Options}

theorem isWord_baseName (h : o.fault? = none) : IsWord o.baseName := by
  rw [fault?, Option.orElse_eq_none] at h
  exact NameOption.isWord_of_fault? h.1

theorem isWord_superclass (h : o.fault? = none) : ∀ name ∈ o.superclass, IsWord name := by
  intro name hname
  rw [fault?, Option.orElse_eq_none, Option.orElse_eq_none, Option.mem_def.mp hname] at h
  exact NameOption.isWord_of_fault? h.2.1

end Options
end LocaleAccessors
