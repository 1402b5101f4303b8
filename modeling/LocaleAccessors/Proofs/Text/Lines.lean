import LocaleAccessors.Text.Lines

/-!
A text put on one line holds no line break, and of what ends the text at most one line break is dropped.
-/

namespace LocaleAccessors.Text

theorem mem_of_mem_intercalate {α : Type} {a : α} {separator : List α} {parts : List (List α)}
    (h : a ∈ separator.intercalate parts) : a ∈ separator ∨ ∃ part ∈ parts, a ∈ part := by
  induction parts with
  | nil => cases h
  | cons part others ih =>
    cases others with
    | nil =>
      rw [List.intercalate_singleton] at h
      exact .inr ⟨part, List.mem_cons_self, h⟩
    | cons next others =>
      rw [List.intercalate_cons_cons, List.mem_append, List.mem_append] at h
      obtain (h | h) | h := h
      · exact .inr ⟨part, List.mem_cons_self, h⟩
      · exact .inl h
      · exact (ih h).imp_right fun ⟨found, hfound, ha⟩ => ⟨found, List.mem_cons_of_mem part hfound, ha⟩

theorem not_isLineBreak_of_mem_splitLines {cs line : List Char} {c : Char}
    (hline : line ∈ splitLines cs) (hc : c ∈ line) : ¬ isLineBreak c := by
  fun_induction splitLines cs generalizing line with
  | case1 => cases hline
  | case2 rest ih | case3 first rest _ hbreak ih =>
    cases List.mem_cons.mp hline with
    | inl h =>
      rw [h] at hc
      cases hc
    | inr h => exact ih h hc
  | case4 first rest _ hbreak hnil ih =>
    rw [List.mem_singleton.mp hline, List.mem_singleton] at hc
    rwa [hc]
  | case5 first rest _ hbreak found more hfound ih =>
    cases List.mem_cons.mp hline with
    | inl h =>
      rw [h, List.mem_cons] at hc
      cases hc with
      | inl hc => rwa [hc]
      | inr hc => exact ih (hfound ▸ List.mem_cons_self) hc
    | inr h => exact ih (hfound ▸ List.mem_cons_of_mem found h) hc

theorem not_isLineBreak_of_mem_onOneLine {s : String} {c : Char} (h : c ∈ (onOneLine s).toList) :
    ¬ isLineBreak c := by
  rw [onOneLine, String.toList_ofList] at h
  cases mem_of_mem_intercalate h with
  | inl h =>
    rw [List.mem_singleton.mp h]
    decide
  | inr h =>
    obtain ⟨line, hline, hc⟩ := h
    exact not_isLineBreak_of_mem_splitLines hline hc

/-! How a text on one line ends. -/

def joinedLines (cs : List Char) : List Char :=
  [' '].intercalate (splitLines cs)

def continued (rest : List Char) : List Char :=
  if rest = [] then [] else ' ' :: joinedLines rest

def IsBreak (cs : List Char) : Prop :=
  cs = ['\r', '\n'] ∨ ∃ c, isLineBreak c ∧ cs = [c]

/-- A backslash stands at the end, or only a line break stands after it. -/
def BackslashLast (cs : List Char) : Prop :=
  ∃ front ending, cs = front ++ '\\' :: ending ∧ (ending = [] ∨ IsBreak ending)

section ends
variable {c : Char} {cs rest : List Char}

theorem splitLines_cons (h : ¬ (c = '\r' ∧ rest.head? = some '\n')) :
    splitLines (c :: rest) = if isLineBreak c then [] :: splitLines rest else
      match splitLines rest with
      | [] => [[c]]
      | line :: more => (c :: line) :: more :=
  splitLines.eq_3 c rest fun _ hc hrest => h ⟨hc, by rw [hrest, List.head?_cons]⟩

theorem splitLines_eq_nil_iff : splitLines cs = [] ↔ cs = [] := by
  cases cs with
  | nil => exact ⟨fun _ => rfl, fun _ => rfl⟩
  | cons c rest =>
    refine iff_of_false ?_ (List.cons_ne_nil c rest)
    by_cases hcrlf : c = '\r' ∧ rest.head? = some '\n'
    · obtain ⟨rfl, hhead⟩ := hcrlf
      obtain ⟨more, rfl⟩ := List.head?_eq_some_iff.mp hhead
      exact List.cons_ne_nil _ _
    · rw [splitLines_cons hcrlf]
      cases splitLines rest <;> split <;> simp

theorem intercalate_nil_splitLines (rest : List Char) :
    [' '].intercalate ([] :: splitLines rest) = continued rest := by
  unfold continued joinedLines
  cases hlines : splitLines rest with
  | nil => rw [if_pos (splitLines_eq_nil_iff.mp hlines), List.intercalate_singleton]
  | cons line more =>
    have hne : rest ≠ [] := by
      intro hnil
      rw [splitLines_eq_nil_iff.mpr hnil] at hlines
      cases hlines
    rw [if_neg hne, List.intercalate_cons_cons]
    rfl

theorem joinedLines_cons (h : ¬ isLineBreak c) : joinedLines (c :: rest) = c :: joinedLines rest := by
  have hcrlf : ¬ (c = '\r' ∧ rest.head? = some '\n') := by
    rintro ⟨rfl, -⟩
    exact h (by decide)
  rw [joinedLines, splitLines_cons hcrlf, if_neg h, joinedLines]
  cases splitLines rest with
  | nil => rfl
  | cons line more => cases more <;> rfl

theorem joinedLines_cases (cs : List Char) :
    cs = [] ∨
    (∃ mark rest, IsBreak mark ∧ (IsBreak (mark ++ rest) → rest = []) ∧ cs = mark ++ rest ∧
      joinedLines cs = continued rest) ∨
    ∃ c rest, ¬ isLineBreak c ∧ cs = c :: rest ∧ joinedLines cs = c :: joinedLines rest := by
  cases cs with
  | nil => exact .inl rfl
  | cons c rest =>
    by_cases hbreak : isLineBreak c
    · refine .inr (.inl ?_)
      by_cases hcrlf : c = '\r' ∧ rest.head? = some '\n'
      · obtain ⟨rfl, hhead⟩ := hcrlf
        obtain ⟨more, rfl⟩ := List.head?_eq_some_iff.mp hhead
        refine ⟨['\r', '\n'], more, .inl rfl, ?_, rfl, intercalate_nil_splitLines more⟩
        simp [IsBreak]
      · refine ⟨[c], rest, .inr ⟨c, hbreak, rfl⟩, ?_, rfl, ?_⟩
        · rintro (heq | ⟨d, -, heq⟩)
          · cases heq
            exact absurd ⟨rfl, rfl⟩ hcrlf
          · exact (List.cons.inj heq).2
        · rw [joinedLines, splitLines_cons hcrlf, if_pos hbreak, intercalate_nil_splitLines]
    · exact .inr (.inr ⟨c, rest, hbreak, rfl, joinedLines_cons hbreak⟩)

theorem continued_eq_nil_iff : continued rest = [] ↔ rest = [] := by
  unfold continued
  split <;> simp_all

theorem IsBreak.ne_nil (h : IsBreak cs) : cs ≠ [] := by
  rintro rfl
  simp [IsBreak] at h

theorem joinedLines_eq_nil_iff : joinedLines cs = [] ↔ cs = [] ∨ IsBreak cs := by
  obtain rfl | ⟨mark, rest, hmark, hlongest, rfl, heq⟩ | ⟨c, rest, hc, rfl, heq⟩ :=
    joinedLines_cases cs
  · exact ⟨fun _ => .inl rfl, fun _ => rfl⟩
  · rw [heq, continued_eq_nil_iff]
    constructor
    · rintro rfl
      rw [List.append_nil]
      exact .inr hmark
    · rintro (hnil | hbreak)
      · exact (List.append_eq_nil_iff.mp hnil).2
      · exact hlongest hbreak
  · rw [heq]
    refine iff_of_false (List.cons_ne_nil _ _) ?_
    rintro (hnil | hcrlf | ⟨d, hd, hbreak⟩)
    · cases hnil
    · cases hcrlf
      exact hc (by decide)
    · cases hbreak
      exact hc hd

theorem backslashLast_cons :
    BackslashLast (c :: rest) ↔ c = '\\' ∧ (rest = [] ∨ IsBreak rest) ∨ BackslashLast rest := by
  constructor
  · rintro ⟨front, ending, heq, hending⟩
    cases front with
    | nil =>
      cases heq
      exact .inl ⟨rfl, hending⟩
    | cons d front =>
      cases heq
      exact .inr ⟨front, ending, rfl, hending⟩
  · rintro (⟨rfl, hending⟩ | ⟨front, ending, rfl, hending⟩)
    · exact ⟨[], rest, rfl, hending⟩
    · exact ⟨c :: front, ending, rfl, hending⟩

theorem backslashLast_skip (h : c ≠ '\\') : BackslashLast (c :: rest) ↔ BackslashLast rest := by
  rw [backslashLast_cons, or_iff_right]
  exact fun hc => h hc.1

theorem backslashLast_break (h : IsBreak cs) : BackslashLast (cs ++ rest) ↔ BackslashLast rest := by
  obtain rfl | ⟨c, hc, rfl⟩ := h
  · exact (backslashLast_skip (by decide)).trans (backslashLast_skip (by decide))
  · refine backslashLast_skip ?_
    rintro rfl
    cases hc

theorem getLast?_continued :
    (continued rest).getLast? = some '\\' ↔ (joinedLines rest).getLast? = some '\\' := by
  unfold continued
  split
  · next h => rw [h]; rfl
  · rw [List.getLast?_cons]
    cases (joinedLines rest).getLast? <;> simp

theorem getLast?_joinedLines : (joinedLines cs).getLast? = some '\\' ↔ BackslashLast cs := by
  induction hlength : cs.length using Nat.strongRecOn generalizing cs with
  | ind n ih =>
    obtain rfl | ⟨mark, rest, hmark, -, rfl, heq⟩ | ⟨c, rest, -, rfl, heq⟩ := joinedLines_cases cs
    · simp [joinedLines, splitLines, BackslashLast]
    · have hless : rest.length < n := by
        have hpositive := List.length_pos_iff.mpr hmark.ne_nil
        rw [List.length_append] at hlength
        omega
      rw [heq, getLast?_continued, backslashLast_break hmark]
      exact ih _ hless rfl
    · have hrest := ih rest.length (by simp [← hlength]) rfl
      rw [heq, backslashLast_cons, ← joinedLines_eq_nil_iff, ← hrest]
      cases joinedLines rest <;> simp

instance (cs : List Char) : Decidable (BackslashLast cs) :=
  decidable_of_iff _ getLast?_joinedLines

theorem getLast?_onOneLine (s : String) :
    (onOneLine s).toList.getLast? = some '\\' ↔ BackslashLast s.toList := by
  rw [onOneLine, String.toList_ofList]
  exact getLast?_joinedLines

end ends

end LocaleAccessors.Text
