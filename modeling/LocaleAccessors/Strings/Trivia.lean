import LocaleAccessors.Strings.Fault
import LocaleAccessors.Text.Ranges

/-!
What stands between the tokens of a strings file: blanks, block comments and line comments.
-/

namespace LocaleAccessors.Strings
open Text (isBlank)

def afterComment : List Char → Option (List Char)
  | '*' :: '/' :: rest => some rest
  | _ :: rest => afterComment rest
  | [] => none

theorem length_of_afterComment {cs rest : List Char} (h : afterComment cs = some rest) :
    rest.length < cs.length := by
  fun_induction afterComment cs with
  | case1 => cases h; simp only [List.length_cons]; omega
  | case2 c cs _ ih => exact Nat.lt_succ_of_lt (ih h)
  | case3 => cases h

def skipTrivia (cs : List Char) : Except Fault (List Char) :=
  match cs with
  | '/' :: '*' :: body =>
    match h : afterComment body with
    | some rest =>
      have := length_of_afterComment h
      skipTrivia rest
    | none => .error ⟨.unterminatedComment, '/' :: '*' :: body⟩
  | '/' :: '/' :: body => skipTrivia (body.dropWhile (· ≠ '\n'))
  | c :: rest => if isBlank c then skipTrivia rest else .ok (c :: rest)
  | [] => .ok []
termination_by cs.length
decreasing_by
  · simp
    omega
  · have := (List.dropWhile_sublist (fun c : Char => decide (c ≠ '\n')) (l := body)).length_le
    simp only [List.length_cons]
    omega
  · simp

theorem length_of_skipTrivia {cs rest : List Char} (h : skipTrivia cs = .ok rest) :
    rest.length ≤ cs.length := by
  fun_induction skipTrivia cs with
  | case1 body r _ hr ih =>
    have := ih h
    simp only [List.length_cons]
    omega
  | case2 => cases h
  | case3 body ih =>
    have := (List.dropWhile_sublist (fun c : Char => decide (c ≠ '\n')) (l := body)).length_le
    have := ih h
    simp only [List.length_cons]
    omega
  | case4 c cs _ _ _ ih => exact Nat.le_succ_of_le (ih h)
  | case5 => cases h; exact Nat.le_refl _
  | case6 => cases h; exact Nat.le_refl _

end LocaleAccessors.Strings
