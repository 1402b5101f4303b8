import LocaleAccessors.Proofs.Text.Lines
import LocaleAccessors.Proofs.Text.Run
import LocaleAccessors.Proofs.Text.Word
import LocaleAccessors.Source.Layout
import LocaleAccessors.Source.Literal

/-!
The lines of a file. A file of lines without newlines splits at the newlines into these lines, and
nothing that comes from a table of strings brings a newline into a line: translations are put on one
line, keys and names of tables are escaped, and names are words.
-/

namespace LocaleAccessors.Source
open Text (IsWord isWordChar)

/-- The lines of a text, without the newlines that end them. What follows the last newline is a line,
too. -/
def linesOf (text : String) : List (List Char) :=
  text.toList.splitOn '\n'

def OneLine (s : String) : Prop :=
  '\n' ∉ s.toList

instance (s : String) : Decidable (OneLine s) :=
  inferInstanceAs (Decidable ('\n' ∉ s.toList))

theorem OneLine.append {s t : String} (hs : OneLine s) (ht : OneLine t) : OneLine (s ++ t) := by
  rw [OneLine, String.toList_append, List.mem_append, not_or]
  exact ⟨hs, ht⟩

theorem oneLine_of_isWord {s : String} (h : IsWord s) : OneLine s :=
  h.not_mem (by decide)

theorem linesOf_fileText (lines : List String) :
    linesOf (fileText lines) = lines.flatMap linesOf ++ [[]] := by
  induction lines with
  | nil => rfl
  | cons line lines ih =>
    have hlist : (fileText (line :: lines)).toList =
        line.toList ++ '\n' :: (fileText lines).toList := by
      simp [fileText]
    rw [linesOf, hlist, List.splitOn_append_cons_self, List.flatMap_cons, List.append_assoc, ← ih]
    rfl

theorem toList_fileText_append (front rest : List String) :
    (fileText (front ++ rest)).toList = (fileText front).toList ++ (fileText rest).toList := by
  simp [fileText]

theorem fileText_cons (line : String) (lines : List String) :
    fileText (line :: lines) = line ++ "\n" ++ fileText lines := by
  apply String.toList_inj.mp
  simp [fileText]

theorem linesOf_of_oneLine {line : String} (h : OneLine line) : linesOf line = [line.toList] :=
  List.splitOn_eq_singleton h

theorem linesOf_fileText_of_oneLine {lines : List String} (h : ∀ line ∈ lines, OneLine line) :
    linesOf (fileText lines) = lines.map String.toList ++ [[]] := by
  rw [linesOf_fileText]
  congr 1
  induction lines with
  | nil => rfl
  | cons line lines ih =>
    obtain ⟨hline, hlines⟩ := List.forall_mem_cons.mp h
    rw [List.flatMap_cons, linesOf_of_oneLine hline, ih hlines]
    rfl

theorem linesOf_append {s : String} (h : OneLine s) (t : String) :
    linesOf (s ++ t) = (linesOf t).modifyHead (s.toList ++ ·) := by
  rw [linesOf, linesOf, String.toList_append]
  unfold OneLine at h
  generalize s.toList = cs at h
  induction cs with
  | nil =>
    rw [List.nil_append]
    cases t.toList.splitOn '\n' <;> rfl
  | cons c cs ih =>
    rw [List.mem_cons, not_or] at h
    have hc : ¬ (c == '\n') := by simpa using Ne.symm h.1
    rw [List.cons_append, List.splitOn_cons_eq_if_modifyHead, if_neg hc, ih h.2,
      List.modifyHead_modifyHead]
    rfl

theorem linesOf_append_right {t : String} (h : OneLine t) (s : String) :
    List.Forall₂ (fun line old => line = old ∨ line = old ++ t.toList)
      (linesOf (s ++ t)) (linesOf s) := by
  rw [linesOf, linesOf, String.toList_append]
  induction s.toList with
  | nil =>
    rw [List.nil_append, List.splitOn_eq_singleton h]
    exact .cons (.inr rfl) .nil
  | cons c cs ih =>
    rw [List.cons_append, List.splitOn_cons_eq_if_modifyHead, List.splitOn_cons_eq_if_modifyHead]
    split
    · exact .cons (.inl rfl) ih
    · generalize (cs ++ t.toList).splitOn '\n' = lines at ih
      generalize cs.splitOn '\n' = olds at ih
      cases ih with
      | nil => exact .nil
      | cons hline hlines =>
        refine .cons ?_ hlines
        exact hline.imp (congrArg (c :: ·)) (congrArg (c :: ·))

theorem toList_indent (level : Nat) (line : String) :
    (indent level line).toList = List.replicate (4 * level) ' ' ++ line.toList := by
  simp [indent]

theorem oneLine_indent (level : Nat) {line : String} (h : OneLine line) :
    OneLine (indent level line) := by
  rw [OneLine, toList_indent, List.mem_append, not_or]
  refine ⟨fun hmem => ?_, h⟩
  exact absurd (List.eq_of_mem_replicate hmem) (by decide)

theorem oneLine_comment (a : Accessor) : OneLine (comment a) := by
  refine OneLine.append (by decide) fun hmem => ?_
  exact absurd (Text.not_isLineBreak_of_mem_onOneLine hmem) (by decide)

theorem not_mem_commas {c : Char} {items : List String} (hc : c ∉ ", ".toList)
    (h : ∀ item ∈ items, c ∉ item.toList) : c ∉ (commas items).toList := by
  intro hmem
  rw [commas, String.toList_intercalate] at hmem
  cases Text.mem_of_mem_intercalate hmem with
  | inl hmem => exact hc hmem
  | inr hmem =>
    obtain ⟨part, hpart, hmem⟩ := hmem
    obtain ⟨item, hitem, rfl⟩ := List.mem_map.mp hpart
    exact h item hitem hmem

theorem oneLine_commas {items : List String} (h : ∀ item ∈ items, OneLine item) :
    OneLine (commas items) :=
  not_mem_commas (by decide) h

/-! Escaped texts hold no control characters. -/

theorem no_control_of_controlEscape (language : Language) : ∀ n < 0x80,
    (controlEscape language (Char.ofNat n)).all fun d => ¬ (d.toNat < 0x20 ∨ d.toNat = 0x7F) := by
  cases language <;> decide +kernel

theorem no_control_of_escapeChar (language : Language) (c : Char) :
    ∀ d ∈ escapeChar language c, ¬ (d.toNat < 0x20 ∨ d.toNat = 0x7F) := by
  unfold escapeChar
  split
  case h_6 =>
    split
    · have hlt : c.toNat < 0x80 := by omega
      have hnone := no_control_of_controlEscape language c.toNat hlt
      rw [Char.ofNat_toNat] at hnone
      exact Text.forall_mem_of_all hnone
    · next hplain => exact List.forall_mem_singleton.mpr hplain
  all_goals exact Text.forall_mem_of_all (by decide)

theorem no_control_of_escape (language : Language) (text : String) :
    ∀ d ∈ (escape language text).toList, ¬ (d.toNat < 0x20 ∨ d.toNat = 0x7F) := by
  intro d hd
  rw [escape, String.toList_ofList] at hd
  obtain ⟨c, -, hd⟩ := List.mem_flatMap.mp hd
  exact no_control_of_escapeChar language c d hd

theorem oneLine_escape (language : Language) (text : String) : OneLine (escape language text) :=
  fun hmem => no_control_of_escape language text '\n' hmem (by decide)

end LocaleAccessors.Source
