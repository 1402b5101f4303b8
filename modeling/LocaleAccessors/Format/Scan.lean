import LocaleAccessors.Format.Spelling

/-!
Specifiers found in a text. After the percent sign come, each at most once and in this order, a
position `N$`, flags, a width, a precision, a length and the conversion. Each part is read as far as
it goes; no later part can start with what an earlier one left, so no choice is ever taken back. A
doubled percent sign is text, and so is a percent sign that no specifier follows. The numbers are
read after the parts.
-/

namespace LocaleAccessors.Format

def readPosition (cs : List Char) : Option (List Char × List Char) :=
  match cs.takeWhile Char.isDigit, cs.dropWhile Char.isDigit with
  | d :: digits, '$' :: rest => if d = '0' then none else some (d :: digits, rest)
  | _, _ => none

def afterPosition (cs : List Char) : Option (List Char) × List Char :=
  match readPosition cs with
  | some (digits, rest) => (some digits, rest)
  | none => (none, cs)

def readStar (cs : List Char) : Extent × List Char :=
  let position := afterPosition cs
  (.star position.1, position.2)

def readWidth (cs : List Char) : Option Extent × List Char :=
  match cs with
  | '*' :: rest => (some (readStar rest).1, (readStar rest).2)
  | _ =>
    match cs.takeWhile Char.isDigit with
    | [] => (none, cs)
    | digits => (some (.digits digits), cs.dropWhile Char.isDigit)

/-- A point alone is a precision without digits. -/
def readPrecision (cs : List Char) : Option Extent × List Char :=
  match cs with
  | '.' :: '*' :: rest => (some (readStar rest).1, (readStar rest).2)
  | '.' :: rest => (some (.digits (rest.takeWhile Char.isDigit)), rest.dropWhile Char.isDigit)
  | _ => (none, cs)

def readLength (cs : List Char) : Option Length × List Char :=
  match cs with
  | 'h' :: 'h' :: rest => (some .hh, rest)
  | 'h' :: rest => (some .h, rest)
  | 'l' :: 'l' :: rest => (some .ll, rest)
  | 'l' :: rest => (some .l, rest)
  | 'q' :: rest => (some .q, rest)
  | 'L' :: rest => (some .upperL, rest)
  | 'z' :: rest => (some .z, rest)
  | 't' :: rest => (some .t, rest)
  | 'j' :: rest => (some .j, rest)
  | _ => (none, cs)

def readConversion (cs : List Char) : Option (Conversion × List Char) :=
  match cs with
  | c :: rest => (Conversion.ofChar? c).map (·, rest)
  | [] => none

def readSpelling (cs : List Char) : Option (Spelling × List Char) :=
  let position := afterPosition cs
  let width := readWidth (position.2.dropWhile isFlag)
  let precision := readPrecision width.2
  let length := readLength precision.2
  (readConversion length.2).map fun conversion =>
    (⟨position.1, position.2.takeWhile isFlag, width.1, precision.1, length.1, conversion.1⟩,
      conversion.2)

theorem length_dropWhile_le (p : Char → Bool) (cs : List Char) :
    (cs.dropWhile p).length ≤ cs.length :=
  (List.dropWhile_sublist p).length_le

theorem length_of_readPosition {cs digits rest : List Char}
    (h : readPosition cs = some (digits, rest)) : rest.length ≤ cs.length := by
  unfold readPosition at h
  split at h
  · rename_i d digits rest' _ hdrop
    split at h
    · cases h
    · simp only [Option.some.injEq, Prod.mk.injEq] at h
      have := length_dropWhile_le Char.isDigit cs
      rw [hdrop, h.2] at this
      exact Nat.le_of_succ_le this
  · cases h

theorem length_afterPosition_le (cs : List Char) : (afterPosition cs).2.length ≤ cs.length := by
  unfold afterPosition
  split
  · rename_i h; exact length_of_readPosition h
  · exact Nat.le_refl _

theorem length_readStar_le (cs : List Char) : (readStar cs).2.length ≤ cs.length :=
  length_afterPosition_le cs

theorem length_readWidth_le (cs : List Char) : (readWidth cs).2.length ≤ cs.length := by
  unfold readWidth
  split
  · exact Nat.le_succ_of_le (length_readStar_le _)
  · split
    · exact Nat.le_refl _
    · exact length_dropWhile_le _ _

theorem length_readPrecision_le (cs : List Char) : (readPrecision cs).2.length ≤ cs.length := by
  unfold readPrecision
  split
  · exact Nat.le_trans (length_readStar_le _) (by simp only [List.length_cons]; omega)
  · exact Nat.le_succ_of_le (length_dropWhile_le _ _)
  · exact Nat.le_refl _

theorem length_readLength_le (cs : List Char) : (readLength cs).2.length ≤ cs.length := by
  unfold readLength
  split <;> simp <;> omega

theorem length_of_readConversion {cs rest : List Char} {c : Conversion}
    (h : readConversion cs = some (c, rest)) : rest.length < cs.length := by
  unfold readConversion at h
  split at h
  · simp only [Option.map_eq_some_iff, Prod.mk.injEq] at h
    obtain ⟨_, _, _, rfl⟩ := h
    simp
  · cases h

theorem length_of_readSpelling {cs rest : List Char} {s : Spelling}
    (h : readSpelling cs = some (s, rest)) : rest.length < cs.length := by
  have h1 := length_afterPosition_le cs
  have h2 := length_dropWhile_le isFlag (afterPosition cs).2
  have h3 := length_readWidth_le ((afterPosition cs).2.dropWhile isFlag)
  have h4 := length_readPrecision_le (readWidth ((afterPosition cs).2.dropWhile isFlag)).2
  have h5 := length_readLength_le
    (readPrecision (readWidth ((afterPosition cs).2.dropWhile isFlag)).2).2
  simp only [readSpelling, Option.map_eq_some_iff, Prod.mk.injEq] at h
  obtain ⟨⟨c, r⟩, hc, _, rfl⟩ := h
  have h6 := length_of_readConversion hc
  simp only at h6 ⊢
  omega

/-- A specifier that stands in a text: its spelling, its characters from the percent sign on, and the
offset of that. -/
structure Found where
  spelling : Spelling
  text : String
  start : Nat
  deriving DecidableEq

def Found.read (f : Found) : Except Fault Specifier :=
  f.spelling.read.map fun fields => ⟨fields, fields.conversion.kind, f.text, f.start⟩

def scanFrom (offset : Nat) (cs : List Char) : List Found :=
  match cs with
  | [] => []
  | '%' :: '%' :: rest => scanFrom (offset + 2) rest
  | '%' :: following =>
    match h : readSpelling following with
    | some (spelling, rest) =>
      let length := 1 + following.length - rest.length
      ⟨spelling, String.ofList (cs.take length), offset⟩ :: scanFrom (offset + length) rest
    | none => scanFrom (offset + 1) following
  | _ :: rest => scanFrom (offset + 1) rest
termination_by cs.length
decreasing_by
  · simp only [List.length_cons]; omega
  · have := length_of_readSpelling h
    simp only [List.length_cons]; omega
  · simp
  · simp

def specifiers (text : String) : Except Fault (List Specifier) :=
  (scanFrom 0 text.toList).mapM Found.read

end LocaleAccessors.Format
