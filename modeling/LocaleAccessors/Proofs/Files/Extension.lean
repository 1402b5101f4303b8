import LocaleAccessors.Files.Path
import LocaleAccessors.Proofs.Text.Run
import Mathlib.Data.List.Basic
import Mathlib.Tactic.ByContra

/-!
Names with extensions. The name of a file is cut at one dot at most, and nothing of it is lost.
-/

namespace LocaleAccessors.Files

/-- A name, what stands before its extension, and the extension: the last dot with what follows it. A
dot at the beginning or at the end makes no extension. -/
inductive Extended : List Char → List Char → List Char → Prop where
  | dotted {front after : List Char} : front ≠ [] → after ≠ [] → '.' ∉ after →
      Extended (front ++ '.' :: after) front ('.' :: after)
  | plain {name : List Char} :
      (∀ front after, name = front ++ '.' :: after → '.' ∉ after → front = [] ∨ after = []) →
      Extended name name []

theorem last_dot_unique {a b c d : List Char} (h : a ++ '.' :: b = c ++ '.' :: d) (hb : '.' ∉ b)
    (hd : '.' ∉ d) : a = c := by
  obtain ⟨x, rfl, hrest⟩ | ⟨x, rfl, hrest⟩ := List.append_eq_append_iff.mp h
  · cases x with
    | nil => exact (List.append_nil a).symm
    | cons _ x =>
      obtain ⟨-, rfl⟩ := List.cons.inj hrest
      simp at hb
  · cases x with
    | nil => exact List.append_nil c
    | cons _ x =>
      obtain ⟨-, rfl⟩ := List.cons.inj hrest
      simp at hd

theorem Extended.front_eq {name front extension before after : List Char}
    (h : Extended name front extension) (hname : name = before ++ '.' :: after)
    (hdot : '.' ∉ after) (hbefore : before ≠ []) (hafter : after ≠ []) : front = before := by
  cases h with
  | dotted _ _ hnot => exact last_dot_unique hname hnot hdot
  | plain hplain =>
    rcases hplain before after hname hdot with h | h
    · exact absurd h hbefore
    · exact absurd h hafter

theorem extended_splitName (name : String) :
    Extended name.toList (splitName name).1 (splitName name).2 := by
  have hparts : name.toList.reverse.takeWhile (· ≠ '.') ++ name.toList.reverse.dropWhile (· ≠ '.') =
      name.toList.reverse := List.takeWhile_append_dropWhile
  unfold splitName
  dsimp only
  split
  · rename_i c after d before htake hdrop
    rw [htake, hdrop] at hparts
    have hname : name.toList = (d :: before).reverse ++ '.' :: (c :: after).reverse := by
      simpa using congrArg List.reverse hparts.symm
    rw [hname]
    refine .dotted (by simp) (by simp) ?_
    have hafter : '.' ∉ c :: after := by
      rw [← htake]
      intro hdot
      simpa using List.mem_takeWhile_imp hdot
    rwa [List.mem_reverse]
  · rename_i hno
    refine .plain fun front after hname hdot => ?_
    by_contra hne
    rw [not_or] at hne
    obtain ⟨d, before, hfront⟩ := List.exists_cons_of_ne_nil (List.reverse_ne_nil_iff.mpr hne.1)
    obtain ⟨c, more, hafter⟩ := List.exists_cons_of_ne_nil (List.reverse_ne_nil_iff.mpr hne.2)
    have hreversed : name.toList.reverse = after.reverse ++ '.' :: front.reverse := by
      simp [hname]
    have hrun : ∀ e ∈ after.reverse, decide (e ≠ '.') := by
      intro e he
      rw [List.mem_reverse] at he
      exact decide_eq_true (ne_of_mem_of_not_mem he hdot)
    have hend : ∀ e ∈ ('.' :: front.reverse).head?, ¬ decide (e ≠ '.') := by simp
    refine hno c more d before ?_ ?_
    · rw [hreversed, Text.takeWhile_run hrun hend, hafter]
    · rw [hreversed, Text.dropWhile_run hrun hend, hfront]

theorem splitName_append (name : String) :
    (splitName name).1 ++ (splitName name).2 = name.toList := by
  have hextended := extended_splitName name
  generalize name.toList = cs at hextended ⊢
  generalize (splitName name).1 = front at hextended ⊢
  generalize (splitName name).2 = extension at hextended ⊢
  cases hextended with
  | dotted => rfl
  | plain => exact List.append_nil _

namespace Path
variable {p : Path} {name : String}

theorem stem_append_suffix (h : p.name? = some name) : p.stem ++ p.suffix = name := by
  rw [stem, suffix, h, ← String.ofList_append, Option.getD_some, splitName_append,
    String.ofList_toList]

theorem parts_of_name? (h : p.name? = some name) : p.parts = p.parts.dropLast ++ [name] :=
  (List.dropLast_append_getLast? name h).symm

theorem extended_stem (h : p.name? = some name) :
    Extended name.toList p.stem.toList p.suffix.toList := by
  have hextended := extended_splitName name
  rwa [stem, suffix, h, Option.getD_some, String.toList_ofList, String.toList_ofList]

theorem stem_ne_empty (h : p.name? = some name) (hne : name ≠ "") : p.stem ≠ "" := by
  intro hstem
  have hextended := extended_stem h
  rw [hstem, String.toList_empty] at hextended
  generalize hname : name.toList = cs at hextended
  generalize hfront : ([] : List Char) = front at hextended
  generalize p.suffix.toList = extension at hextended
  cases hextended with
  | dotted hne => exact hne hfront.symm
  | plain => exact hne (String.toList_eq_nil_iff.mp (hname.trans hfront.symm))

end Path

end LocaleAccessors.Files
