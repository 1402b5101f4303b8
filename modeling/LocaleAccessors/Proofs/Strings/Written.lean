import LocaleAccessors.Proofs.Strings.Acceptance
import LocaleAccessors.Source.Literal

/-!
Rows written one a line, with their texts escaped as in a literal of Objective-C. A strings file of
such lines is in the grammar, with the rows that were written.
-/

namespace LocaleAccessors.Strings
open Source (escape escapeChar controlEscape)
open Text (isBlank numeral octal_numeral)

def line (row : String × String) : String :=
  "\"" ++ escape .objectiveC row.1 ++ "\" = \"" ++ escape .objectiveC row.2 ++ "\";\n"

def written (rows : List (String × String)) : String :=
  String.join (rows.map line)

theorem Quoted.control {c : Char} {text s rest : List Char} (hc : c.toNat < 0x20 ∨ c.toNat = 0x7F)
    (h : Quoted text s rest) :
    Quoted (controlEscape .objectiveC c ++ text) (c :: s) rest := by
  obtain ⟨values, hdigits, hlength, hvalue⟩ := octal_numeral (n := c.toNat) (by omega)
  have hlen : (numeral 8 3 c.toNat).length = 3 := hdigits.length_eq.trans hlength
  refine .escape (.octal hdigits ?_ hlen.le ?_ hvalue) h
  · exact List.ne_nil_of_length_eq_add_one hlen
  · intro hless
    omega

theorem Quoted.escapeChar (c : Char) {text s rest : List Char} (h : Quoted text s rest) :
    Quoted (escapeChar .objectiveC c ++ text) (c :: s) rest := by
  unfold Source.escapeChar
  split
  · exact .escape (.named (by decide)) h
  · exact .escape (.named (by decide)) h
  · exact .escape (.named (by decide)) h
  · exact .escape (.named (by decide)) h
  · exact .escape (.named (by decide)) h
  · rename_i hslash hquote _ _ _
    split_ifs with hc
    · exact h.control hc
    · exact .char hquote hslash h

theorem quoted_escape (s : String) (rest : List Char) :
    Quoted ((escape .objectiveC s).toList ++ '"' :: rest) s.toList rest := by
  rw [escape, String.toList_ofList]
  induction s.toList with
  | nil => exact .close
  | cons c cs ih =>
    rw [List.flatMap_cons, List.append_assoc]
    exact ih.escapeChar c

theorem no_piece {c : Char} (hc : isBlank c = false ∧ c ≠ '/') (rest : List Char) :
    ∀ more, ¬ Piece (c :: rest) more := by
  intro more h
  cases h with
  | blank hb => exact absurd hb (by simp [hc.1])
  | block _ => exact hc.2 rfl
  | line _ _ => exact hc.2 rfl

theorem gap_of_blank {c : Char} {rest : List Char} (hc : isBlank c)
    (h : ∀ more, ¬ Piece rest more) : Gap (c :: rest) rest :=
  Gap.cons (.blank hc) ⟨.refl, h⟩

theorem toList_line (row : String × String) (rest : List Char) :
    (line row).toList ++ rest =
      '"' :: ((escape .objectiveC row.1).toList ++ '"' :: ' ' :: '=' :: ' ' :: '"' ::
        ((escape .objectiveC row.2).toList ++ '"' :: ';' :: '\n' :: rest)) := by
  simp [line, String.toList_append]

theorem row_line (row : String × String) (rest : List Char) :
    Row ((line row).toList ++ rest) row ('\n' :: rest) := by
  have hpair := Row.pair (.quoted (quoted_escape row.1 _))
    (gap_of_blank (c := ' ') (by decide) (no_piece (c := '=') (by decide) _))
    (gap_of_blank (c := ' ') (by decide) (no_piece (c := '"') (by decide) _))
    (.quoted (quoted_escape row.2 _))
    ⟨.refl, no_piece (c := ';') (by decide) ('\n' :: rest)⟩
  rw [toList_line]
  simpa only [String.ofList_toList] using hpair

theorem toList_written_cons (row : String × String) (rows : List (String × String)) :
    (written (row :: rows)).toList = (line row).toList ++ (written rows).toList := by
  rw [written, List.map_cons, String.join_cons, String.toList_append, written]

theorem no_piece_written (rows : List (String × String)) :
    ∀ more, ¬ Piece (written rows).toList more := by
  cases rows with
  | nil => nofun
  | cons row rows =>
    rw [toList_written_cons, toList_line]
    exact no_piece (by decide) _

theorem rows_grammar_written (rows : List (String × String)) : Rows (written rows).toList rows [] := by
  induction rows with
  | nil => exact .nil
  | cons row rows ih =>
    rw [toList_written_cons]
    exact .cons (row_line row _) (gap_of_blank (by decide) (no_piece_written rows)) ih

theorem document_written (rows : List (String × String)) :
    Document (written rows).toList rows :=
  .bare ⟨.refl, no_piece_written rows⟩ (rows_grammar_written rows)

end LocaleAccessors.Strings
