import LocaleAccessors.Proofs.Strings.Scanner

/-!
How the scanner follows the readers of strings files: where a reader succeeds, the scanner comes to the
place behind what was read, and where the reader fails it fails as well. Here it follows those of
escapes. Up to where it fails an escape has no newline, so it is reported on the line on which it begins.
-/

namespace LocaleAccessors.Strings
open Text (octalValue?)

def Follows {ε α : Type} (x : Except ε α) (s : Scanner) (goes : α → Scanner → Prop)
    (stops : ε → Scanner → Prop) : Prop :=
  match x with
  | .ok a => ∃ t, s.Steps t ∧ goes a t
  | .error e => ∃ t, s.Steps t ∧ stops e t

namespace Follows
variable {ε α β : Type} {x : Except ε α} {s t : Scanner} {goes : α → Scanner → Prop}
  {goes' : β → Scanner → Prop} {stops : ε → Scanner → Prop}

theorem ok {a : α} (h : goes a s) : Follows (.ok a) s goes stops :=
  ⟨s, .refl, h⟩

theorem error {e : ε} (h : stops e s) : Follows (.error e) s goes stops :=
  ⟨s, .refl, h⟩

theorem steps (hsteps : s.Steps t) (h : Follows x t goes stops) : Follows x s goes stops := by
  cases x with
  | ok a =>
    obtain ⟨u, hu, hgoes⟩ := h
    exact ⟨u, hsteps.trans hu, hgoes⟩
  | error e =>
    obtain ⟨u, hu, hstops⟩ := h
    exact ⟨u, hsteps.trans hu, hstops⟩

theorem step (hnext : s.next = .goes t) (h : Follows x t goes stops) : Follows x s goes stops :=
  h.steps (.single hnext)

theorem bind {f : α → Except ε β} (hx : Follows x s goes stops)
    (hf : ∀ a t, x = .ok a → goes a t → Follows (f a) t goes' stops) :
    Follows (x >>= f) s goes' stops := by
  cases x with
  | ok a =>
    obtain ⟨t, ht, hgoes⟩ := hx
    exact (hf a t rfl hgoes).steps ht
  | error e => exact hx

end Follows

/-- The scanner is at a place in the text. -/
def Stands (text : List Char) (stage : Stage) (activity : Activity) (rest : List Char)
    (s : Scanner) : Prop :=
  ∃ c : Cursor, c.At text ∧ c.rest = rest ∧ s = ⟨stage, activity, c⟩

def Reason.ofEscape : Reason → Bool
  | .unterminatedEscape | .unpairedLow _ _ | .unpairedHigh _ _ | .unicodeEscape _ _ => true
  | _ => false

section scanning
variable {text front rest cs : List Char} {stage : Stage} {activity : Activity}
  {s : Scanner} {c : Cursor} {x marker : Char} {opened : Nat}

theorem stands_advance (stage : Stage) (activity : Activity) (front : List Char) (hat : c.At text)
    (hrest : c.rest = front ++ rest) :
    Stands text stage activity rest ⟨stage, activity, c.advance front.length⟩ := by
  have hn : front.length ≤ c.rest.length := by
    rw [hrest, List.length_append]
    omega
  have hdrop : (c.advance front.length).rest = rest := by
    rw [Cursor.advance, hrest, List.drop_left]
  exact ⟨_, hat.advance hn, hdrop, rfl⟩

theorem stands_one (hat : c.At text) (hrest : c.rest = x :: rest) :
    Stands text stage activity rest ⟨stage, activity, c.advance 1⟩ :=
  stands_advance stage activity [x] hat hrest

theorem stands_here (hat : c.At text) (hrest : c.rest = rest) :
    Stands text stage activity rest ⟨stage, activity, c.advance 0⟩ :=
  stands_advance stage activity [] hat hrest

def Astray (line : Nat) (reason : Reason) (s : Scanner) : Prop :=
  reason.ofEscape ∧ s.next = .fails reason line

def OnLine (text : List Char) (stage : Stage) (activity : Activity) (rest : List Char) (line : Nat)
    (s : Scanner) : Prop :=
  ∃ c : Cursor, c.At text ∧ c.rest = rest ∧ c.line = line ∧ s = ⟨stage, activity, c⟩

theorem onLine_advance (stage : Stage) (activity : Activity) (front : List Char) (hat : c.At text)
    (hrest : c.rest = front ++ rest) (hfront : '\n' ∉ front) :
    OnLine text stage activity rest c.line ⟨stage, activity, c.advance front.length⟩ := by
  obtain ⟨d, hd, hdrest, heq⟩ := stands_advance stage activity front hat hrest
  cases heq
  refine ⟨_, hd, hdrest, Cursor.advance_line ?_, rfl⟩
  rwa [hrest, List.take_left]

theorem ofEscape_of_readHex4 {reason : Reason} (h : readHex4 marker cs = .error reason) :
    reason.ofEscape := by
  unfold readHex4 at h
  split at h
  · split at h
    · cases h
    · cases h
      rfl
  · cases h
    rfl

theorem newline_notMem_of_hexDigits {digits : List Char} {values : List Nat}
    (h : List.Forall₂ Text.HexDigit digits values) : '\n' ∉ digits := by
  have hne : ∀ d v, Text.HexDigit d v → d ≠ '\n' ∧ Text.HexDigit d v := by
    rintro d v hd
    refine ⟨?_, hd⟩
    rintro rfl
    have hvalue := Text.hexValue?_eq_some_iff.mpr hd
    cases hvalue
  intro hmem
  exact ((List.forall₂_and_left _ _).mp (h.imp hne)).1 _ hmem rfl

theorem follows_hex4 (read : Nat → Activity) (hat : c.At text)
    (hnext : (⟨stage, activity, c⟩ : Scanner).next = Scanner.hex4 ⟨stage, activity, c⟩ marker read) :
    Follows (readHex4 marker c.rest) ⟨stage, activity, c⟩
      (fun p t => OnLine text stage (read p.1) p.2 c.line t) (Astray c.line) := by
  cases h : readHex4 marker c.rest with
  | error reason =>
    refine .error ⟨ofEscape_of_readHex4 h, ?_⟩
    rw [hnext, Scanner.hex4, h]
    rfl
  | ok p =>
    obtain ⟨code, rest⟩ := p
    obtain ⟨digits, values, hdigits, hlength, -, hrest⟩ := readHex4_eq_ok_iff.mp h
    have hon := onLine_advance stage (read code) digits hat hrest
      (newline_notMem_of_hexDigits hdigits)
    rw [hlength] at hon
    refine .step ?_ (.ok hon)
    rw [hnext, Scanner.hex4, h]
    rfl

theorem follows_unicode {line : Nat}
    (hs : OnLine text stage (.digits opened marker) cs line s) :
    Follows (readUnicode marker cs) s (fun p t => Stands text stage (.quoted opened) p.2 t)
      (Astray line) := by
  obtain ⟨c, hat, rfl, rfl, rfl⟩ := hs
  unfold readUnicode
  refine (follows_hex4 (.unit opened marker) hat rfl).bind ?_
  rintro ⟨code, rest⟩ t - ⟨d, hd, rfl, hline, rfl⟩
  rw [← hline]
  dsimp only
  split_ifs with hlow hhigh
  · exact .error ⟨rfl, if_pos hlow⟩
  · split
    · next second more hrest =>
      split_ifs with hsecond
      · have hmarker : '\n' ∉ ['\\', second] := by
          rcases hsecond with rfl | rfl <;> decide
        obtain ⟨e, he, hmore, heline, heq⟩ := onLine_advance stage
          (.lowDigits opened marker code second) ['\\', second] hd hrest hmarker
        have hnext : (⟨stage, .unit opened marker code, d⟩ : Scanner).next =
            .goes ⟨stage, .lowDigits opened marker code second, e⟩ := by
          rw [← heq]
          simp [Scanner.next, Scanner.unit, Scanner.goesOn, hlow, hhigh, hrest, hsecond]
        rw [← heline, ← hmore]
        -- The second unit has a marker of its own; what it spells must be a low surrogate.
        refine .step hnext ((follows_hex4 (.lowUnit opened marker code) he rfl).bind ?_)
        rintro ⟨low, last⟩ t - ⟨f, hf, rfl, hfline, rfl⟩
        rw [← hfline]
        dsimp only
        split_ifs with hlow'
        · exact .step (if_pos hlow') (.ok (stands_here hf rfl))
        · exact .error ⟨rfl, if_neg hlow'⟩
      · refine .error ⟨rfl, ?_⟩
        simp [Scanner.next, Scanner.unit, Scanner.failsHere, hlow, hhigh, hrest, hsecond]
    · next hrest =>
      refine .error ⟨rfl, ?_⟩
      change Scanner.unit _ opened marker code = _
      rw [Scanner.unit, if_neg hlow, if_pos hhigh]
      split
      · next h => exact absurd h (hrest _ _)
      · rfl
  · have hnext : (⟨stage, .unit opened marker code, d⟩ : Scanner).next =
        .goes ⟨stage, .quoted opened, d.advance 0⟩ := by
      simp [Scanner.next, Scanner.unit, Scanner.goesOn, hlow, hhigh]
    exact .step hnext (.ok (stands_here hd rfl))

theorem follows_octal (limit : Nat) (hs : Stands text stage (.octal opened limit) cs s) :
    ∃ t, s.Steps t ∧ Stands text stage (.quoted opened) (readOctal limit cs).2 t := by
  induction limit generalizing cs s with
  | zero =>
    obtain ⟨c, hat, hrest, rfl⟩ := hs
    exact ⟨_, .single rfl, stands_here hat hrest⟩
  | succ limit ih =>
    obtain ⟨c, hat, hrest, rfl⟩ := hs
    cases cs with
    | nil =>
      have hnext : (⟨stage, .octal opened (limit + 1), c⟩ : Scanner).next =
          .goes ⟨stage, .quoted opened, c.advance 0⟩ := by
        simp [Scanner.next, Scanner.octal, Scanner.goesOn, hrest]
      exact ⟨_, .single hnext, stands_here hat hrest⟩
    | cons x rest =>
      cases hx : octalValue? x with
      | none =>
        have hnext : (⟨stage, .octal opened (limit + 1), c⟩ : Scanner).next =
            .goes ⟨stage, .quoted opened, c.advance 0⟩ := by
          simp [Scanner.next, Scanner.octal, Scanner.goesOn, hrest, hx]
        refine ⟨_, .single hnext, ?_⟩
        simp only [readOctal, hx]
        exact stands_here hat hrest
      | some d =>
        have hnext : (⟨stage, .octal opened (limit + 1), c⟩ : Scanner).next =
            .goes ⟨stage, .octal opened limit, c.advance 1⟩ := by
          simp [Scanner.next, Scanner.octal, Scanner.goesOn, hrest, hx]
        obtain ⟨t, ht, hstands⟩ := ih (stands_one hat hrest)
        refine ⟨t, .head hnext ht, ?_⟩
        simpa only [readOctal, hx] using hstands

theorem follows_escape (hat : c.At text) :
    Follows (readEscape c.rest) ⟨stage, .escape opened, c⟩
      (fun p t => Stands text stage (.quoted opened) p.2 t) (Astray c.line) := by
  cases hrest : c.rest with
  | nil =>
    refine .error ⟨rfl, ?_⟩
    simp [Scanner.next, Scanner.escape, Scanner.failsHere, hrest]
  | cons x rest =>
    unfold readEscape
    dsimp only
    cases hnamed : simpleEscape? x with
    | some e =>
      have hnext : (⟨stage, .escape opened, c⟩ : Scanner).next =
          .goes ⟨stage, .quoted opened, c.advance 1⟩ := by
        simp [Scanner.next, Scanner.escape, Scanner.goesOn, hrest, hnamed]
      exact .step hnext (.ok (stands_one hat hrest))
    | none =>
      dsimp only
      split_ifs with hmarker
      · have hnewline : '\n' ∉ [x] := by
          rcases hmarker with rfl | rfl <;> decide
        have hnext : (⟨stage, .escape opened, c⟩ : Scanner).next =
            .goes ⟨stage, .digits opened x, c.advance 1⟩ := by
          simp [Scanner.next, Scanner.escape, Scanner.goesOn, hrest, hnamed, hmarker]
        exact .step hnext (follows_unicode (onLine_advance _ _ [x] hat hrest hnewline))
      · cases hoctal : octalValue? x with
        | some d =>
          have hnext : (⟨stage, .escape opened, c⟩ : Scanner).next =
              .goes ⟨stage, .octal opened 2, c.advance 1⟩ := by
            simp [Scanner.next, Scanner.escape, Scanner.goesOn, hrest, hnamed, hmarker, hoctal]
          obtain ⟨t, ht, hstands⟩ := follows_octal 2 (stands_one hat hrest)
          refine .step hnext (.steps ht ?_)
          simp only [readOctal, hoctal]
          exact .ok hstands
        | none =>
          have hnext : (⟨stage, .escape opened, c⟩ : Scanner).next =
              .goes ⟨stage, .quoted opened, c.advance 1⟩ := by
            simp [Scanner.next, Scanner.escape, Scanner.goesOn, hrest, hnamed, hmarker, hoctal]
          refine .step hnext ?_
          simp only [readOctal, hoctal]
          exact .ok (stands_one hat hrest)

theorem follows_backslash (stage : Stage) (opened : Nat) (hat : c.At text) (hrest : c.rest = '\\' :: rest) :
    Follows (readEscape rest) ⟨stage, .quoted opened, c⟩
      (fun p t => Stands text stage (.quoted opened) p.2 t) (Astray c.line) := by
  obtain ⟨d, hd, hbody, hline, heq⟩ :=
    onLine_advance stage (.escape opened) ['\\'] hat hrest (by decide)
  have hnext : (⟨stage, .quoted opened, c⟩ : Scanner).next = .goes ⟨stage, .escape opened, d⟩ := by
    rw [← heq]
    simp [Scanner.next, Scanner.quoted, Scanner.goesOn, hrest]
  rw [← hbody, ← hline]
  exact .step hnext (follows_escape hd)

end scanning

end LocaleAccessors.Strings
