import LocaleAccessors.Format.Scan
import LocaleAccessors.Proofs.Format.Grammar
import LocaleAccessors.Proofs.Text.Run

/-!
Reading the parts of a specifier is the inverse of joining them, if no zero in front of a width is
left to the width. What follows a part never looks like more of it, which is why no part has to give
anything back.
-/

namespace LocaleAccessors.Format
open Text (takeWhile_run dropWhile_run not_of_head?_dropWhile)

namespace Spelling
variable (s : Spelling) (rest : List Char)

/-! The parts of a text that are left after each part of a specifier in front of `rest`. -/

def afterPrecision : List Char := lengthChars s.length ++ s.conversion.char :: rest

def afterWidth : List Char := precisionChars s.precision ++ s.afterPrecision rest

def afterFlags : List Char := widthChars s.width ++ s.afterWidth rest

def afterPosition : List Char := s.flags ++ s.afterFlags rest

theorem chars_append : s.chars ++ rest = positionChars s.position ++ s.afterPosition rest := by
  simp [chars, afterPosition, afterFlags, afterWidth, afterPrecision]

end Spelling

theorem readLength_chars (length : Option Length) (c : Conversion) (rest : List Char) :
    readLength (lengthChars length ++ c.char :: rest) = (length, c.char :: rest) := by
  cases length with
  | none => cases c <;> rfl
  | some size => cases size <;> cases c <;> rfl

theorem readConversion_char (c : Conversion) (rest : List Char) :
    readConversion (c.char :: rest) = some (c, rest) := by
  cases c <;> rfl

/-- What may follow a width or a precision begins with neither a digit nor a sign of position. -/
def Closed (text : List Char) : Prop :=
  ∀ c ∈ text.head?, ¬ c.isDigit ∧ ¬ isFlag c ∧ c ≠ '*' ∧ c ≠ '$'

theorem closed_afterPrecision (s : Spelling) (rest : List Char) :
    Closed (s.afterPrecision rest) ∧ (s.afterPrecision rest).head? ≠ some '.' := by
  obtain ⟨_, _, _, _, length, conversion⟩ := s
  unfold Closed Spelling.afterPrecision
  cases length with
  | none => cases conversion <;> simp [lengthChars, Conversion.char] <;> decide
  | some size => cases size <;> simp [lengthChars, Length.text] <;> decide

theorem closed_afterWidth (s : Spelling) (rest : List Char) : Closed (s.afterWidth rest) := by
  unfold Spelling.afterWidth
  cases s.precision with
  | none => exact (closed_afterPrecision s rest).1
  | some e =>
    rintro c hc
    obtain rfl : '.' = c := by simpa [precisionChars] using hc
    decide

theorem Closed.not_digit {text : List Char} (h : Closed text) : ∀ c ∈ text.head?, ¬ c.isDigit :=
  fun c hc => (h c hc).1

theorem readPosition_chars {ds : List Char} (h : IsPosition ds) (rest : List Char) :
    readPosition (ds ++ '$' :: rest) = some (ds, rest) := by
  obtain ⟨hne, hdigits, hzero⟩ := h
  have hstop : ∀ c ∈ ('$' :: rest).head?, ¬ c.isDigit := by simp
  obtain ⟨d, ds, rfl⟩ := List.exists_cons_of_ne_nil hne
  have hd : d ≠ '0' := by simpa using hzero
  simp only [readPosition, takeWhile_run hdigits hstop, dropWhile_run hdigits hstop, if_neg hd]

theorem readPosition_of_not_digit {text : List Char} (h : ∀ c ∈ text.head?, ¬ c.isDigit) :
    readPosition text = none := by
  have hrun : text.takeWhile Char.isDigit = [] := takeWhile_run (List.forall_mem_nil _) h
  simp only [readPosition, hrun]

theorem afterPosition_positionChars {position : Option (List Char)}
    (hv : ∀ ds ∈ position, IsPosition ds) {rest : List Char} (hrest : readPosition rest = none) :
    afterPosition (positionChars position ++ rest) = (position, rest) := by
  cases position with
  | none => simp only [positionChars, List.nil_append, afterPosition, hrest]
  | some ds =>
    simp only [positionChars, List.append_assoc, List.singleton_append, afterPosition,
      readPosition_chars (hv ds rfl)]

theorem readStar_chars {position : Option (List Char)} (hv : ∀ ds ∈ position, IsPosition ds)
    {rest : List Char} (hrest : ∀ c ∈ rest.head?, ¬ c.isDigit) :
    readStar (positionChars position ++ rest) = (.star position, rest) := by
  rw [readStar, afterPosition_positionChars hv (readPosition_of_not_digit hrest)]

theorem readWidth_of_not_star {text : List Char} (h : text.head? ≠ some '*') :
    readWidth text = match text.takeWhile Char.isDigit with
      | [] => (none, text)
      | digits => (some (.digits digits), text.dropWhile Char.isDigit) := by
  unfold readWidth
  split
  · exact absurd rfl h
  · rfl

theorem readWidth_chars {width : Option Extent} (hv : ∀ e ∈ width, e.Valid ∧ e ≠ .digits [])
    {rest : List Char} (hrest : Closed rest) :
    readWidth (widthChars width ++ rest) = (width, rest) := by
  cases width with
  | none =>
    have hrun : rest.takeWhile Char.isDigit = [] := takeWhile_run (List.forall_mem_nil _) hrest.not_digit
    have hstar : rest.head? ≠ some '*' := fun h => (hrest '*' h).2.2.1 rfl
    simp only [widthChars, List.nil_append, readWidth_of_not_star hstar, hrun]
  | some e =>
    obtain ⟨hv, hne⟩ := hv e rfl
    cases e with
    | star position =>
      simp only [widthChars, Extent.chars, List.cons_append, readWidth,
        readStar_chars hv hrest.not_digit]
    | digits ds =>
      obtain ⟨d, ds, rfl⟩ := List.exists_cons_of_ne_nil fun h => hne (h ▸ rfl)
      have hstar : (d :: ds ++ rest).head? ≠ some '*' := by
        rintro ⟨⟩
        exact absurd (hv '*' (by simp)) (by decide)
      simp only [widthChars, Extent.chars, readWidth_of_not_star hstar,
        takeWhile_run hv hrest.not_digit, dropWhile_run hv hrest.not_digit]

theorem readPrecision_digits {text : List Char} (h : text.head? ≠ some '*') :
    readPrecision ('.' :: text) =
      (some (.digits (text.takeWhile Char.isDigit)), text.dropWhile Char.isDigit) := by
  unfold readPrecision
  split
  · rename_i heq
    cases heq
    exact absurd rfl h
  · rename_i heq
    cases heq
    rfl
  · rename_i hpoint
    exact absurd rfl (hpoint text)

theorem readPrecision_of_no_point {text : List Char} (h : text.head? ≠ some '.') :
    readPrecision text = (none, text) := by
  unfold readPrecision
  split
  · exact absurd rfl h
  · exact absurd rfl h
  · rfl

theorem readPrecision_chars {precision : Option Extent} (hv : ∀ e ∈ precision, e.Valid)
    {rest : List Char} (hrest : Closed rest) (hpoint : rest.head? ≠ some '.') :
    readPrecision (precisionChars precision ++ rest) = (precision, rest) := by
  cases precision with
  | none => exact readPrecision_of_no_point hpoint
  | some e =>
    have hv := hv e rfl
    cases e with
    | star position =>
      simp only [precisionChars, Extent.chars, List.cons_append, readPrecision,
        readStar_chars hv hrest.not_digit]
    | digits ds =>
      have hstar : (ds ++ rest).head? ≠ some '*' := by
        cases ds with
        | nil => exact fun h => (hrest '*' h).2.2.1 rfl
        | cons d ds =>
          rintro ⟨⟩
          exact absurd (hv '*' (by simp)) (by decide)
      simp only [precisionChars, Extent.chars, List.cons_append, readPrecision_digits hstar,
        takeWhile_run hv hrest.not_digit, dropWhile_run hv hrest.not_digit]

theorem isDigit_of_isFlag {c : Char} (h : isFlag c) (hc : c ≠ '0') : ¬ c.isDigit := by
  simp only [isFlag, List.mem_cons, List.not_mem_nil, or_false, decide_eq_true_eq] at h
  rcases h with rfl | rfl | rfl | rfl | rfl | rfl
  · decide
  · decide
  · decide
  · decide
  · decide
  · exact absurd rfl hc

theorem readPosition_zero (text : List Char) : readPosition ('0' :: text) = none := by
  have hrun : ('0' :: text).takeWhile Char.isDigit = '0' :: text.takeWhile Char.isDigit := by
    rw [List.takeWhile_cons_of_pos (by decide)]
  unfold readPosition
  rw [hrun]
  split
  · rename_i heq _
    cases heq
    rfl
  · rfl

theorem readPosition_of_not_dollar {text : List Char}
    (h : (text.dropWhile Char.isDigit).head? ≠ some '$') : readPosition text = none := by
  unfold readPosition
  split
  · rename_i heq
    rw [heq] at h
    exact absurd rfl h
  · rfl

namespace Spelling
variable {s : Spelling}

theorem not_flag_afterFlags (hv : s.Valid) (hn : s.Normal) (rest : List Char) :
    ∀ c ∈ (s.afterFlags rest).head?, ¬ isFlag c := by
  have hclosed := closed_afterWidth s rest
  intro c hc
  unfold afterFlags at hc
  cases hw : s.width with
  | none =>
    rw [hw] at hc
    exact (hclosed c hc).2.1
  | some e =>
    obtain ⟨hdigits, hne⟩ := hv.width e hw
    rw [hw] at hc
    cases e with
    | star position =>
      cases hc
      decide
    | digits ds =>
      obtain ⟨d, ds, rfl⟩ := List.exists_cons_of_ne_nil fun h => hne (h ▸ rfl)
      cases hc
      have hzero : c ≠ '0' := by simpa using hn _ hw
      exact fun hf => isDigit_of_isFlag hf hzero (hdigits c (by simp))

theorem readPosition_none (hv : s.Valid) (rest : List Char) :
    readPosition (s.afterPosition rest) = none := by
  have hclosed := closed_afterWidth s rest
  unfold afterPosition
  cases hf : s.flags with
  | cons c flags =>
    have hc : isFlag c := hv.flags c (by simp [hf])
    by_cases hzero : c = '0'
    · rw [hzero]
      exact readPosition_zero _
    · refine readPosition_of_not_digit fun d hd => ?_
      cases hd
      exact isDigit_of_isFlag hc hzero
  | nil =>
    unfold afterFlags
    cases hw : s.width with
    | none => exact readPosition_of_not_digit hclosed.not_digit
    | some e =>
      cases e with
      | star position =>
        refine readPosition_of_not_digit fun d hd => ?_
        cases hd
        decide
      | digits ds =>
        refine readPosition_of_not_dollar fun hd => ?_
        have hds : ∀ d ∈ ds, d.isDigit := (hv.width _ hw).1
        simp only [List.nil_append, widthChars, Extent.chars,
          dropWhile_run hds hclosed.not_digit] at hd
        exact (hclosed '$' hd).2.2.2 rfl

theorem afterPosition_chars (hv : s.Valid) (rest : List Char) :
    Format.afterPosition (s.chars ++ rest) = (s.position, s.afterPosition rest) := by
  rw [chars_append, afterPosition_positionChars hv.position (readPosition_none hv rest)]

theorem takeWhile_flags (hv : s.Valid) (hn : s.Normal) (rest : List Char) :
    (s.afterPosition rest).takeWhile isFlag = s.flags :=
  takeWhile_run hv.flags (not_flag_afterFlags hv hn rest)

theorem dropWhile_flags (hv : s.Valid) (hn : s.Normal) (rest : List Char) :
    (s.afterPosition rest).dropWhile isFlag = s.afterFlags rest :=
  dropWhile_run hv.flags (not_flag_afterFlags hv hn rest)

theorem readWidth_afterFlags (hv : s.Valid) (rest : List Char) :
    readWidth (s.afterFlags rest) = (s.width, s.afterWidth rest) :=
  readWidth_chars hv.width (closed_afterWidth s rest)

theorem readPrecision_afterWidth (hv : s.Valid) (rest : List Char) :
    readPrecision (s.afterWidth rest) = (s.precision, s.afterPrecision rest) :=
  have h := closed_afterPrecision s rest
  readPrecision_chars hv.precision h.1 h.2

theorem readLength_afterPrecision (s : Spelling) (rest : List Char) :
    readLength (s.afterPrecision rest) = (s.length, s.conversion.char :: rest) :=
  readLength_chars _ _ _

theorem readSpelling_chars (hv : s.Valid) (hn : s.Normal) (rest : List Char) :
    readSpelling (s.chars ++ rest) = some (s, rest) := by
  simp only [readSpelling, afterPosition_chars hv, takeWhile_flags hv hn, dropWhile_flags hv hn,
    readWidth_afterFlags hv, readPrecision_afterWidth hv, readLength_afterPrecision,
    readConversion_char, Option.map_some]

end Spelling

theorem readSpelling_percent (rest : List Char) : readSpelling ('%' :: rest) = none :=
  rfl

theorem scanFrom_specifier (offset : Nat) (rest : List Char) {s : Spelling} (hs : s.Valid)
    (hn : s.Normal) :
    scanFrom offset ('%' :: (s.chars ++ rest)) =
      ⟨s, String.ofList ('%' :: s.chars), offset⟩ ::
        scanFrom (offset + ('%' :: s.chars).length) rest := by
  have hread := Spelling.readSpelling_chars hs hn rest
  have hsingle : ∀ more, s.chars ++ rest ≠ '%' :: more := by
    intro more h
    rw [h, readSpelling_percent] at hread
    cases hread
  have hlength : 1 + (s.chars ++ rest).length - rest.length = ('%' :: s.chars).length := by
    simp only [List.length_append, List.length_cons]
    omega
  have htake : ('%' :: (s.chars ++ rest)).take ('%' :: s.chars).length = '%' :: s.chars := by
    rw [← List.cons_append, List.take_left]
  rw [scanFrom]
  · split
    · rename_i spelling more h
      obtain ⟨rfl, rfl⟩ := Prod.mk.inj (Option.some.inj (h.symm.trans hread))
      simp only [hlength, htake]
    · rename_i h
      cases h.symm.trans hread
  · exact hsingle

theorem position_of_readPosition {text digits rest : List Char}
    (h : readPosition text = some (digits, rest)) :
    IsPosition digits ∧ text = digits ++ '$' :: rest := by
  unfold readPosition at h
  split at h
  · rename_i d ds more hrun hrest
    split_ifs at h with hd
    cases h
    refine ⟨⟨List.cons_ne_nil _ _, ?_, by simpa using hd⟩, ?_⟩
    · rw [← hrun]
      exact fun c hc => List.mem_takeWhile_imp hc
    · rw [← hrun, ← hrest, List.takeWhile_append_dropWhile]
  · cases h

theorem afterPosition_split (text : List Char) :
    (∀ ds ∈ (afterPosition text).1, IsPosition ds) ∧
      text = positionChars (afterPosition text).1 ++ (afterPosition text).2 := by
  unfold afterPosition
  split
  · rename_i digits rest h
    obtain ⟨hdigits, rfl⟩ := position_of_readPosition h
    refine ⟨?_, by simp [positionChars]⟩
    rintro _ ⟨⟩
    exact hdigits
  · exact ⟨nofun, rfl⟩

theorem readStar_split (text : List Char) :
    (readStar text).1.Valid ∧ '*' :: text = (readStar text).1.chars ++ (readStar text).2 := by
  obtain ⟨hposition, htext⟩ := afterPosition_split text
  exact ⟨hposition, congrArg ('*' :: ·) htext⟩

theorem readWidth_split {text : List Char} (hflag : ∀ c ∈ text.head?, ¬ isFlag c) :
    (∀ e ∈ (readWidth text).1, e.Valid ∧ e ≠ .digits []) ∧
      (∀ ds, (readWidth text).1 = some (.digits ds) → ds.head? ≠ some '0') ∧
      text = widthChars (readWidth text).1 ++ (readWidth text).2 := by
  unfold readWidth
  split
  · rename_i rest
    obtain ⟨hvalid, htext⟩ := readStar_split rest
    refine ⟨?_, nofun, htext⟩
    rintro _ ⟨⟩
    exact ⟨hvalid, nofun⟩
  · split
    · exact ⟨nofun, nofun, rfl⟩
    · rename_i hne
      refine ⟨?_, ?_, ?_⟩
      · rintro _ ⟨⟩
        exact ⟨fun c hc => List.mem_takeWhile_imp hc, fun h => hne (Extent.digits.inj h)⟩
      · rintro _ ⟨⟩ hzero
        rw [List.head?_takeWhile, Option.filter_eq_some_iff] at hzero
        exact hflag '0' hzero.1 (by decide)
      · simp [widthChars, Extent.chars]

theorem readPrecision_split (text : List Char) :
    (∀ e ∈ (readPrecision text).1, e.Valid) ∧
      text = precisionChars (readPrecision text).1 ++ (readPrecision text).2 := by
  unfold readPrecision
  split
  · rename_i rest
    obtain ⟨hvalid, htext⟩ := readStar_split rest
    refine ⟨?_, congrArg ('.' :: ·) htext⟩
    rintro _ ⟨⟩
    exact hvalid
  · rename_i rest _
    refine ⟨?_, ?_⟩
    · rintro _ ⟨⟩
      exact fun c hc => List.mem_takeWhile_imp hc
    · simp [precisionChars, Extent.chars]
  · exact ⟨nofun, rfl⟩

theorem readLength_split (text : List Char) :
    text = lengthChars (readLength text).1 ++ (readLength text).2 := by
  unfold readLength
  split <;> rfl

theorem ofChar?_eq_some {c : Char} {conversion : Conversion}
    (h : Conversion.ofChar? c = some conversion) : c = conversion.char := by
  unfold Conversion.ofChar? at h
  split at h <;> cases h <;> rfl

theorem conversion_of_readConversion {text rest : List Char} {c : Conversion}
    (h : readConversion text = some (c, rest)) : text = c.char :: rest := by
  unfold readConversion at h
  split at h
  · simp only [Option.map_eq_some_iff, Prod.mk.injEq] at h
    obtain ⟨_, hc, rfl, rfl⟩ := h
    rw [ofChar?_eq_some hc]
  · cases h

theorem spelling_of_readSpelling {text rest : List Char} {s : Spelling}
    (h : readSpelling text = some (s, rest)) : s.Valid ∧ s.Normal ∧ text = s.chars ++ rest := by
  obtain ⟨hposition, hpositionText⟩ := afterPosition_split text
  obtain ⟨hwidth, hnormal, hwidthText⟩ :=
    readWidth_split (not_of_head?_dropWhile (p := isFlag) (afterPosition text).2)
  obtain ⟨hprecision, hprecisionText⟩ :=
    readPrecision_split (readWidth ((afterPosition text).2.dropWhile isFlag)).2
  have hlengthText :=
    readLength_split (readPrecision (readWidth ((afterPosition text).2.dropWhile isFlag)).2).2
  simp only [readSpelling, Option.map_eq_some_iff, Prod.mk.injEq] at h
  obtain ⟨⟨conversion, more⟩, hconversion, rfl, rfl⟩ := h
  have hconversionText := conversion_of_readConversion hconversion
  have hflags : ∀ c ∈ (afterPosition text).2.takeWhile isFlag, isFlag c :=
    fun c hc => List.mem_takeWhile_imp hc
  refine ⟨⟨hposition, hflags, hwidth, hprecision⟩, hnormal, ?_⟩
  rw [Spelling.chars_append]
  simp only [Spelling.afterPosition, Spelling.afterFlags, Spelling.afterWidth,
    Spelling.afterPrecision]
  rw [← hconversionText, ← hlengthText, ← hprecisionText, ← hwidthText,
    List.takeWhile_append_dropWhile, ← hpositionText]

end LocaleAccessors.Format
