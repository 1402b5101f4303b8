import LocaleAccessors.Proofs.Strings.Grammar
import LocaleAccessors.Proofs.Text.Run

/-!
Skipping trivia takes exactly the pieces that the grammar has, and as many of them as there are.
-/

namespace LocaleAccessors.Strings
open Text (isBlank takeWhile_run dropWhile_run not_of_head?_dropWhile)
open Relation (ReflTransGen)

theorem afterComment_of_body {body rest : List Char} (h : ¬ ['*', '/'] <:+: body) :
    afterComment (body ++ '*' :: '/' :: rest) = some rest := by
  induction body with
  | nil => rfl
  | cons c body ih =>
    have hbody : ¬ ['*', '/'] <:+: body := fun hi => h (List.infix_cons hi)
    rw [List.cons_append, afterComment]
    · exact ih hbody
    · rintro more rfl heq
      cases body with
      | nil => cases heq
      | cons d body =>
        cases heq
        exact h ⟨[], body, rfl⟩

theorem body_of_afterComment {cs rest : List Char} (h : afterComment cs = some rest) :
    ∃ body, ¬ ['*', '/'] <:+: body ∧ cs = body ++ '*' :: '/' :: rest := by
  fun_induction afterComment cs with
  | case1 more =>
    cases h
    exact ⟨[], by simp, rfl⟩
  | case2 c cs hc ih =>
    obtain ⟨body, hbody, rfl⟩ := ih h
    refine ⟨c :: body, ?_, rfl⟩
    rw [List.infix_cons_iff]
    rintro (hp | hi)
    · obtain ⟨t, ht⟩ := hp
      cases ht
      exact hc _ rfl rfl
    · exact hbody hi
  | case3 => cases h

theorem not_infix_of_afterComment {cs : List Char} (h : afterComment cs = none) :
    ¬ ['*', '/'] <:+: cs := by
  fun_induction afterComment cs with
  | case1 => cases h
  | case2 c cs hc ih =>
    rw [List.infix_cons_iff]
    rintro (⟨rest, hrest⟩ | hi)
    · cases hrest
      exact hc _ rfl rfl
    · exact ih h hi
  | case3 => simp

theorem skipTrivia_of_piece {text rest : List Char} (h : Piece text rest) :
    skipTrivia text = skipTrivia rest := by
  cases h with
  | @blank c rest hc =>
    have hs : c ≠ '/' := by rintro rfl; exact absurd hc (by decide)
    rw [skipTrivia]
    · simp [hc]
    · rintro body rfl; exact absurd rfl hs
    · rintro body rfl; exact absurd rfl hs
  | @block body rest hb =>
    rw [skipTrivia]
    split
    · rename_i r hr
      rw [afterComment_of_body hb] at hr
      cases hr
      rfl
    · rename_i hr
      rw [afterComment_of_body hb] at hr
      cases hr
  | @line body rest hb hr =>
    rw [skipTrivia, dropWhile_run]
    · intro c hc
      simpa using ne_of_mem_of_not_mem hc hb
    · simpa using hr

theorem piece_line (body : List Char) :
    Piece ('/' :: '/' :: body) (body.dropWhile (· ≠ '\n')) := by
  have h : Piece ('/' :: '/' :: (body.takeWhile (· ≠ '\n') ++ body.dropWhile (· ≠ '\n')))
      (body.dropWhile (· ≠ '\n')) := by
    refine .line ?_ ?_
    · intro hn
      simpa using List.mem_takeWhile_imp hn
    · intro c hc
      simpa using not_of_head?_dropWhile body c hc
  rwa [List.takeWhile_append_dropWhile] at h

theorem skipTrivia_of_no_piece {text : List Char} (h : ∀ more, ¬ Piece text more)
    (hc : ¬ ['/', '*'] <+: text) : skipTrivia text = .ok text := by
  unfold skipTrivia
  split
  · exact absurd (List.prefix_append ['/', '*'] _) hc
  · rename_i body
    exact absurd (piece_line body) (h _)
  · rename_i c rest _ _
    rw [if_neg fun hb => h rest (.blank hb)]
  · rfl

theorem Gap.cons {text more rest : List Char} (hp : Piece text more) (h : Gap more rest) :
    Gap text rest :=
  ⟨.head hp h.1, h.2⟩

theorem gap_of_skipTrivia {text rest : List Char} (h : skipTrivia text = .ok rest) :
    Gap text rest := by
  fun_induction skipTrivia text with
  | case1 body r hr _ ih =>
    obtain ⟨inner, hinner, rfl⟩ := body_of_afterComment hr
    exact (ih h).cons (.block hinner)
  | case2 => cases h
  | case3 body ih => exact (ih h).cons (piece_line body)
  | case4 c cs _ _ hc ih => exact (ih h).cons (.blank hc)
  | case5 c cs hblock hline hc =>
    cases h
    refine ⟨.refl, fun more hp => ?_⟩
    cases hp with
    | blank hb => exact hc hb
    | block _ => exact hblock _ rfl rfl
    | line _ _ => exact hline _ rfl rfl
  | case6 =>
    cases h
    refine ⟨.refl, fun more hp => ?_⟩
    cases hp

theorem skipTrivia_of_pieces {text rest : List Char} (h : ReflTransGen Piece text rest) :
    skipTrivia text = skipTrivia rest := by
  induction h using ReflTransGen.head_induction_on with
  | refl => rfl
  | head hpiece _ ih => rw [skipTrivia_of_piece hpiece, ih]

theorem skipTrivia_of_gap {text rest : List Char} (h : Gap text rest)
    (hc : ¬ ['/', '*'] <+: rest) : skipTrivia text = .ok rest := by
  rw [skipTrivia_of_pieces h.1, skipTrivia_of_no_piece h.2 hc]

end LocaleAccessors.Strings
