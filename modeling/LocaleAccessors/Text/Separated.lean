/-!
Text cut at a separator of one or more characters. The cuts are made from the left and do not
overlap.
-/

namespace LocaleAccessors.Text

structure Separator where
  first : Char
  others : List Char
  deriving DecidableEq

def Separator.ofString? (s : String) : Option Separator :=
  match s.toList with
  | [] => none
  | c :: cs => some ⟨c, cs⟩

def Separator.chars (d : Separator) : List Char :=
  d.first :: d.others

def pieces (d : Separator) : List Char → List (List Char)
  | [] => [[]]
  | c :: rest =>
    if c = d.first ∧ d.others.isPrefixOf rest then [] :: pieces d (rest.drop d.others.length)
    else
      match pieces d rest with
      | [] => [[c]]
      | piece :: more => (c :: piece) :: more
termination_by cs => cs.length
decreasing_by all_goals simp only [List.length_cons, List.length_drop]; omega

end LocaleAccessors.Text
