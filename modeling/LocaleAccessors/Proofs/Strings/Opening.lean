import LocaleAccessors.Proofs.Strings.Acceptance

/-!
How the texts of strings files begin. Behind its first blanks such a text ends, or there stands a
comment, a brace or the first character of a string.
-/

namespace LocaleAccessors.Strings
open Text (isBlank)
open Relation (ReflTransGen)

def Begins (c : Char) : Prop := c = '{' ∨ c = '"' ∨ isPlain c

instance (c : Char) : Decidable (Begins c) :=
  inferInstanceAs (Decidable (c = '{' ∨ c = '"' ∨ isPlain c))

theorem not_isBlank_of_stop {c : Char} {text : List Char} (h : ∀ more, ¬ Piece (c :: text) more) :
    ¬ isBlank c :=
  fun hblank => h text (.blank hblank)

theorem dropWhile_of_stop {text : List Char} (h : ∀ more, ¬ Piece text more) :
    text.dropWhile isBlank = text := by
  cases text with
  | nil => rfl
  | cons c text => exact List.dropWhile_cons_of_neg (not_isBlank_of_stop h)

theorem Gap.begins {text rest : List Char} (h : Gap text rest)
    (hrest : ∀ c ∈ rest.head?, Begins c) :
    ∀ c ∈ (text.dropWhile isBlank).head?, Begins c := by
  obtain ⟨hpieces, hstop⟩ := h
  induction hpieces using ReflTransGen.head_induction_on with
  | refl =>
    rw [dropWhile_of_stop hstop]
    exact hrest
  | head hpiece _ ih =>
    cases hpiece with
    | blank hblank =>
      rw [List.dropWhile_cons_of_pos hblank]
      exact ih
    | block _ =>
      rw [List.dropWhile_cons_of_neg (by decide)]
      intro c hc
      rw [← Option.some.inj hc]
      decide
    | line _ _ =>
      rw [List.dropWhile_cons_of_neg (by decide)]
      intro c hc
      rw [← Option.some.inj hc]
      decide

theorem Rows.begins {text : List Char} {rows : List (String × String)} (h : Rows text rows []) :
    ∀ c ∈ text.head?, Begins c := by
  cases h with
  | nil => nofun
  | cons hrow _ _ =>
    obtain ⟨_, _, _, _, htoken, -, -⟩ := hrow.token
    obtain ⟨c, more, rfl, hc⟩ := htoken.head
    intro d hd
    rw [← Option.some.inj hd]
    exact .inr hc

theorem Document.begins {text : List Char} {rows : List (String × String)}
    (h : Document text rows) :
    ∀ c ∈ (text.dropWhile isBlank).head?, Begins c := by
  cases h with
  | bare hgap hrows => exact hgap.begins hrows.begins
  | braced hgap _ _ _ =>
    refine hgap.begins fun c hc => ?_
    rw [← Option.some.inj hc]
    exact .inl rfl

end LocaleAccessors.Strings
