import LocaleAccessors.Output
import LocaleAccessors.Proofs.Files.Copies
import LocaleAccessors.Proofs.Files.Extension

/-!
Targets that no file put aside can stand in for. The name of such a file is longer than that of the
target beside it, and its ending is no extension of a header or of what a header is made for.
-/

namespace LocaleAccessors.Files

theorem length_drawnLetters (count number : Nat) : (drawnLetters count number).length = count := by
  induction count generalizing number with
  | zero => rfl
  | succ count ih => rw [drawnLetters, List.length_cons, ih]

theorem toList_asideName (target ending : String) (number : Nat) :
    (asideName target ending number).toList =
      '.' :: (target.toList ++ '.' :: drawnLetters 8 number) ++ ending.toList := by
  simp [asideName]

theorem length_asideName (target ending : String) (number : Nat) :
    (asideName target ending number).toList.length =
      target.toList.length + ending.toList.length + 10 := by
  simp only [toList_asideName, List.length_append, List.length_cons, length_drawnLetters]
  omega

theorem asideName_ne_of_length_le {name target ending : String} {number : Nat}
    (h : name.toList.length ≤ target.toList.length + 9) : name ≠ asideName target ending number := by
  intro heq
  have hlength := length_asideName target ending number
  rw [← heq] at hlength
  omega

namespace Path
variable {p : Path} {name : String}

theorem place_of_name? (h : p.name? = some name) (working : Location) :
    p.place working = (p.parent.place working).next name := by
  have hparts := parts_of_name? h
  rw [place, place, parent]
  conv_lhs => rw [hparts, List.foldl_append]
  rfl

theorem place_ne_cons {q : Path} (hparent : q.parent = p.parent) (working : Location) (part : String)
    (hname : ∀ name, p.name? = some name → name ≠ ".." → name ≠ part) :
    p.place working ≠ part :: q.parent.place working := by
  rw [hparent]
  intro heq
  cases hlast : p.name? with
  | none =>
    have hparts : p.parts = [] := List.getLast?_eq_none_iff.mp hlast
    have hself : p.parent = p := by
      rw [parent, hparts]
      cases p
      cases hparts
      rfl
    rw [hself] at heq
    exact List.cons_ne_self part _ heq.symm
  | some name =>
    rw [place_of_name? hlast, Location.next] at heq
    split_ifs at heq with hup
    · have hlength := congrArg List.length heq
      rw [List.length_tail, List.length_cons] at hlength
      omega
    · exact hname name hlast hup (List.cons.inj heq).1

end Path

theorem headerPath_spec {output header : Path} (h : headerPath output = some header) :
    ∃ name, output.parts = output.parts.dropLast ++ [name] ∧
      header = { output with parts := output.parts.dropLast ++ [output.stem ++ ".h"] } ∧
      (output.stem ++ ".h" = name ↔ output.suffix = ".h") ∧ output.stem ++ ".h" ≠ ".." := by
  obtain ⟨name, hname, rfl⟩ := Option.map_eq_some_iff.mp h
  refine ⟨name, Path.parts_of_name? hname, rfl, ?_, ?_⟩
  · rw [← Path.stem_append_suffix hname, ← String.toList_inj, ← String.toList_inj]
    simp [eq_comm]
  · intro hdots
    have hlast := congrArg (fun name : String => name.toList.getLast?) hdots
    simp at hlast

theorem headerPath_of_suffix {output header : Path} (h : headerPath output = some header)
    (hsuffix : output.suffix = ".h") : header = output := by
  obtain ⟨name, hparts, rfl, hsame, -⟩ := headerPath_spec h
  rw [hsame.mpr hsuffix, ← hparts]

namespace Store
variable {s : Store} {target : Path}

theorem place_ne_asidePlace (machine : Machine) (target : Path) (working : Location)
    (ending : String) (attempt : Nat) :
    target.place working ≠
      machine.asidePlace (target.parent.place working) (target.name?.getD "") ending attempt := by
  refine Path.place_ne_cons rfl working _ fun name hname _ => ?_
  rw [hname]
  exact asideName_ne_of_length_le (Nat.le_add_right _ 9)

theorem apart_single (s : Store) (target : Path) : s.Apart [target] := by
  rintro p hp ⟨q, hq, ending, -, attempt, heq⟩
  obtain rfl := List.mem_singleton.mp hp
  obtain rfl := List.mem_singleton.mp hq
  exact place_ne_asidePlace _ _ _ _ _ heq

/-- A header and its implementation are apart: the header's name is the implementation's up to the
extension, and what is put aside beside the header has one more extension of its own. -/
theorem apart_pair (s : Store) {output header : Path} (h : headerPath output = some header) :
    s.Apart [header, output] := by
  obtain ⟨name, hparts, hheader, -, hdots⟩ := headerPath_spec h
  have hname : output.name? = some name := by
    rw [Path.name?, hparts, List.getLast?_concat]
  have hheaderName : header.name? = some (output.stem ++ ".h") := by
    rw [hheader, Path.name?, List.getLast?_concat]
  have hparent : header.parent = output.parent := by
    rw [hheader, Path.parent, Path.parent, List.dropLast_concat]
  have hstem := congrArg String.toList (Path.stem_append_suffix hname)
  rintro p hp ⟨q, hq, ending, hending, attempt, heq⟩
  rcases List.mem_pair.mp hp with rfl | rfl <;> rcases List.mem_pair.mp hq with rfl | rfl
  · exact place_ne_asidePlace _ _ _ _ _ heq
  · refine Path.place_ne_cons hparent.symm s.working _ (fun found hfound _ => ?_) heq
    obtain rfl := Option.some.inj (hheaderName.symm.trans hfound)
    rw [hname]
    refine asideName_ne_of_length_le ?_
    rw [Option.getD_some, ← hstem]
    simp only [String.toList_append, List.length_append]
    have hshort : ".h".toList.length = 2 := rfl
    omega
  · refine Path.place_ne_cons hparent s.working _ (fun found hfound _ hfoundEq => ?_) heq
    obtain rfl := Option.some.inj (hname.symm.trans hfound)
    rw [hheaderName, Option.getD_some] at hfoundEq
    -- The name of the output would end as a file put aside does, so its stem would be the rest.
    obtain ⟨after, hafter, hdot, hne⟩ : ∃ after, ending.toList = '.' :: after ∧ '.' ∉ after ∧
        after ≠ [] := by
      rcases List.mem_pair.mp hending with rfl | rfl
      · exact ⟨"tmp".toList, rfl, by decide, by decide⟩
      · exact ⟨"bak".toList, rfl, by decide, by decide⟩
    have hfull := congrArg String.toList hfoundEq
    rw [toList_asideName, hafter] at hfull
    have hfront := (Path.extended_stem hname).front_eq hfull hdot (List.cons_ne_nil _ _) hne
    have hlength := congrArg List.length hfront
    simp only [String.toList_append, List.length_append, List.length_cons] at hlength
    omega
  · exact place_ne_asidePlace _ _ _ _ _ heq

end Store
end LocaleAccessors.Files
