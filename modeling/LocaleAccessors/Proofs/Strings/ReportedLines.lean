import LocaleAccessors.Proofs.Strings.Following

/-!
The lines that faults of strings files are reported on. The readers and the scanner come to the same
end: where a text is refused, the scanner fails for the same reason, and its line is that of the place
where the text goes wrong.
-/

namespace LocaleAccessors.Strings
open Text (isBlank)

/-- The rest of a string that no quote closes before the text ends. -/
inductive Unclosed : List Char → Prop where
  | nil : Unclosed []
  | escape {c : Char} {text more : List Char} : Escape text c more → Unclosed more →
      Unclosed ('\\' :: text)
  | char {c : Char} {text : List Char} : c ≠ '"' → c ≠ '\\' → Unclosed text → Unclosed (c :: text)

/-- A fault in a string. The scanner has read on in the string from its place. -/
def Reason.ofString (reason : Reason) : Bool :=
  reason.ofEscape || reason = .unterminatedString

/-- What stands at the place of a fault: the comment, the string or the escape that is at fault, or,
behind trivia, what no reader goes on from. -/
inductive Offends : Reason → List Char → Prop where
  | comment {body : List Char} : ¬ ['*', '/'] <:+: body →
      Offends .unterminatedComment ('/' :: '*' :: body)
  | string {body : List Char} : Unclosed body → Offends .unterminatedString ('"' :: body)
  | escape {reason : Reason} {body : List Char} : reason.ofEscape →
      (∀ c rest, ¬ Escape body c rest) → Offends reason ('\\' :: body)
  | noString {rest : List Char} : (∀ more, ¬ Piece rest more) →
      (∀ c ∈ rest.head?, c ≠ '"' ∧ ¬ isPlain c) → Offends (.expectedString rest.head?) rest
  | another {c : Char} {rest : List Char} : (∀ more, ¬ Piece rest more) → rest.head? ≠ some c →
      Offends (.expected c rest.head?) rest
  | noBrace : Offends .missingBrace []
  | surplus {rest : List Char} : (∀ more, ¬ Piece rest more) → rest ≠ [] →
      Offends .afterBrace rest

structure Stops (text : List Char) (fault : Fault) (s : Scanner) : Prop where
  offends : Offends fault.reason fault.rest
  next_eq : s.next = .fails fault.reason (lineOf text fault.rest)
  rest_eq : ¬ fault.reason.ofString → s.cursor.rest = fault.rest

section scanning
variable {text front rest cs opening : List Char} {stage : Stage} {s : Scanner} {x : Char}
  {opened : Nat}

theorem not_escape_of_readEscape {reason : Reason} (h : readEscape cs = .error reason) :
    ∀ c rest, ¬ Escape cs c rest := by
  intro c rest hescape
  rw [readEscape_of_escape hescape] at h
  cases h

theorem follows_quoted (hs : Stands text stage (.quoted opened) cs s)
    (hopened : opened = lineOf text opening)
    (hback : Unclosed cs → Offends .unterminatedString opening) :
    Follows (readQuoted opening cs) s (fun p t => Stands text stage .between p.2 t)
      (Stops text) := by
  fun_induction readQuoted opening cs generalizing s with
  | case1 =>
    obtain ⟨c, hat, hrest, rfl⟩ := hs
    refine .error ⟨hback .nil, ?_, fun hother => absurd rfl hother⟩
    simp [Scanner.next, Scanner.quoted, hrest, hopened]
  | case2 rest =>
    obtain ⟨c, hat, hrest, rfl⟩ := hs
    have hnext : (⟨stage, .quoted opened, c⟩ : Scanner).next =
        .goes ⟨stage, .between, c.advance 1⟩ := by
      simp [Scanner.next, Scanner.quoted, Scanner.goesOn, hrest]
    exact .step hnext (.ok (stands_one hat hrest))
  | case3 body reason hread =>
    obtain ⟨c, hat, hrest, rfl⟩ := hs
    have hescape := follows_backslash stage opened hat hrest
    rw [hread] at hescape
    obtain ⟨t, ht, hofEscape, hfails⟩ := hescape
    refine ⟨t, ht, .escape hofEscape (not_escape_of_readEscape hread), ?_, ?_⟩
    · rw [hfails, hat.line_eq_lineOf, hrest]
    · simp [Reason.ofString, hofEscape]
  | case4 body x rest hread _ ih =>
    obtain ⟨c, hat, hrest, rfl⟩ := hs
    have hescape := follows_backslash stage opened hat hrest
    rw [hread] at hescape
    obtain ⟨t, ht, hstands⟩ := hescape
    have hunclosed (h : Unclosed rest) : Offends .unterminatedString opening :=
      hback (.escape (readEscape_eq_ok_iff.mp hread) h)
    refine .steps ht ((ih hstands hunclosed).bind ?_)
    rintro ⟨string, last⟩ u - hu
    exact .ok hu
  | case5 x rest hquote hslash ih =>
    obtain ⟨c, hat, hrest, rfl⟩ := hs
    have hnext : (⟨stage, .quoted opened, c⟩ : Scanner).next =
        .goes ⟨stage, .quoted opened, c.advance 1⟩ := by
      change Scanner.quoted _ opened = _
      rw [Scanner.quoted, hrest]
      split
      · next heq => cases heq
      · next heq => exact absurd (List.cons.inj heq).1 hquote
      · next heq => exact absurd (List.cons.inj heq).1 hslash
      · rfl
    have hunclosed (h : Unclosed rest) : Offends .unterminatedString opening :=
      hback (.char hquote hslash h)
    refine .step hnext ((ih (stands_one hat hrest) hunclosed).bind ?_)
    rintro ⟨string, last⟩ u - hu
    exact .ok hu

theorem follows_plain (hs : Stands text stage .plain cs s) :
    ∃ t, s.Steps t ∧ Stands text stage .between (cs.dropWhile isPlain) t := by
  induction cs generalizing s with
  | nil =>
    obtain ⟨c, hat, hrest, rfl⟩ := hs
    have hnext : (⟨stage, .plain, c⟩ : Scanner).next = .goes ⟨stage, .between, c.advance 0⟩ := by
      simp [Scanner.next, Scanner.plain, Scanner.goesOn, hrest]
    exact ⟨_, .single hnext, stands_here hat hrest⟩
  | cons x cs ih =>
    obtain ⟨c, hat, hrest, rfl⟩ := hs
    by_cases hx : isPlain x
    · have hnext : (⟨stage, .plain, c⟩ : Scanner).next = .goes ⟨stage, .plain, c.advance 1⟩ := by
        simp [Scanner.next, Scanner.plain, Scanner.goesOn, hrest, hx]
      obtain ⟨t, ht, hstands⟩ := ih (stands_one hat hrest)
      rw [List.dropWhile_cons_of_pos hx]
      exact ⟨t, .head hnext ht, hstands⟩
    · have hnext : (⟨stage, .plain, c⟩ : Scanner).next = .goes ⟨stage, .between, c.advance 0⟩ := by
        simp [Scanner.next, Scanner.plain, Scanner.goesOn, hrest, hx]
      rw [List.dropWhile_cons_of_neg hx]
      exact ⟨_, .single hnext, stands_here hat hrest⟩

def Settled (rest : List Char) : Prop :=
  triviaLength rest = .ok 0

theorem triviaLength_blank (hblank : isBlank x) : triviaLength (x :: rest) = .ok 1 := by
  have hslash : x ≠ '/' := by
    rintro rfl
    exact absurd hblank (by decide)
  rw [triviaLength, if_pos hblank]
  · rintro body rfl
    exact absurd rfl hslash
  · rintro body rfl
    exact absurd rfl hslash

theorem triviaLength_block {body : List Char} (hbody : ¬ ['*', '/'] <:+: body) :
    triviaLength ('/' :: '*' :: (body ++ '*' :: '/' :: rest)) = .ok (body.length + 4) := by
  rw [triviaLength, afterComment_of_body hbody]
  simp only [List.length_append, List.length_cons, Except.ok.injEq]
  omega

theorem triviaLength_line (body : List Char) :
    triviaLength ('/' :: '/' :: body) = .ok ((body.takeWhile (· ≠ '\n')).length + 2) := by
  rw [triviaLength, Nat.add_comm]

theorem Settled.not_piece (h : Settled cs) : ∀ more, ¬ Piece cs more := by
  intro more hpiece
  unfold Settled at h
  cases hpiece with
  | blank hblank =>
    rw [triviaLength_blank hblank] at h
    cases h
  | block hbody =>
    rw [triviaLength_block hbody] at h
    cases h
  | line =>
    rw [triviaLength_line] at h
    cases h

theorem Settled.skipTrivia_eq (h : Settled cs) : skipTrivia cs = .ok cs := by
  refine skipTrivia_of_no_piece h.not_piece ?_
  rintro ⟨body, rfl⟩
  change triviaLength ('/' :: '*' :: body) = .ok 0 at h
  rw [triviaLength] at h
  split at h
  · rw [Except.ok.injEq] at h
    omega
  · cases h

def Ready (text : List Char) (stage : Stage) (rest : List Char) (s : Scanner) : Prop :=
  Stands text stage .between rest s ∧ Settled rest

theorem follows_piece (hs : Stands text stage .between cs s) (hcs : cs = front ++ rest)
    (hlength : triviaLength cs = .ok front.length) (hne : front ≠ []) :
    ∃ t, s.Steps t ∧ Stands text stage .between rest t := by
  obtain ⟨c, hat, hrest, rfl⟩ := hs
  obtain ⟨x, front, rfl⟩ := List.exists_cons_of_ne_nil hne
  have hnext : (⟨stage, .between, c⟩ : Scanner).next =
      .goes ⟨stage, .between, c.advance (x :: front).length⟩ := by
    change Scanner.trivia _ = _
    rw [Scanner.trivia, hrest, hlength]
    rfl
  exact ⟨_, .single hnext, stands_advance _ _ _ hat (hrest.trans hcs)⟩

theorem follows_skipTrivia (hs : Stands text stage .between cs s) :
    Follows (skipTrivia cs) s (Ready text stage) (Stops text) := by
  fun_induction skipTrivia cs generalizing s with
  | case1 body rest hrest _ ih =>
    obtain ⟨inner, hinner, rfl⟩ := body_of_afterComment hrest
    have hlength : triviaLength ('/' :: '*' :: (inner ++ '*' :: '/' :: rest)) =
        .ok (inner.length + 4) := triviaLength_block hinner
    have hcut : '/' :: '*' :: (inner ++ '*' :: '/' :: rest) =
        ('/' :: '*' :: (inner ++ ['*', '/'])) ++ rest := by simp
    obtain ⟨t, ht, hstands⟩ := follows_piece hs hcut (by simpa using hlength) (by simp)
    exact .steps ht (ih hstands)
  | case2 body hno =>
    obtain ⟨c, hat, hrest, rfl⟩ := hs
    have hlength : triviaLength ('/' :: '*' :: body) = .error .unterminatedComment := by
      rw [triviaLength, hno]
    refine .error ⟨.comment (not_infix_of_afterComment hno), ?_, fun _ => hrest⟩
    change Scanner.trivia _ = _
    rw [Scanner.trivia, hrest, hlength, ← hrest, ← hat.line_eq_lineOf]
    rfl
  | case3 body ih =>
    have hcut : '/' :: '/' :: body = ('/' :: '/' :: body.takeWhile (· ≠ '\n')) ++
        body.dropWhile (· ≠ '\n') := by simp
    obtain ⟨t, ht, hstands⟩ := follows_piece hs hcut (triviaLength_line body) (by simp)
    exact .steps ht (ih hstands)
  | case4 x rest hblock hline hblank ih =>
    have hcut : x :: rest = [x] ++ rest := rfl
    obtain ⟨t, ht, hstands⟩ := follows_piece hs hcut (triviaLength_blank hblank) (by simp)
    exact .steps ht (ih hstands)
  | case5 x rest hblock hline hblank =>
    refine .ok ⟨hs, ?_⟩
    rw [Settled, triviaLength, if_neg hblank]
    · exact hblock
    · exact hline
  | case6 => exact .ok ⟨hs, rfl⟩

theorem next_of_ready (hs : Ready text stage rest s) : s.next = s.token stage rest := by
  obtain ⟨⟨c, hat, rfl, rfl⟩, hsettled⟩ := hs
  change Scanner.trivia _ = _
  rw [Scanner.trivia, hsettled]
  rfl

theorem stops_of_ready {reason : Reason} (hs : Ready text stage rest s)
    (hnext : s.next = s.failsHere reason) (hoffends : Offends reason rest) :
    Stops text ⟨reason, rest⟩ s := by
  obtain ⟨⟨c, hat, rfl, rfl⟩, -⟩ := hs
  rw [Scanner.failsHere, hat.line_eq_lineOf] at hnext
  exact ⟨hoffends, hnext, fun _ => rfl⟩

theorem string_of_unquoted (hrest : s.cursor.rest = x :: rest) (hquote : x ≠ '"') :
    s.string stage = if isPlain x then .goes ⟨stage, .plain, s.cursor.advance 1⟩
      else s.failsHere (.expectedString (some x)) := by
  unfold Scanner.string
  rw [hrest]
  split
  · next heq => exact absurd (List.cons.inj heq).1 hquote
  · next heq => rw [(List.cons.inj heq).1]
  · next heq => cases heq

theorem follows_string {before : Stage} (hs : Ready text before cs s)
    (hnext : s.next = s.string stage) :
    Follows (readString cs) s (fun p t => Stands text stage .between p.2 t) (Stops text) := by
  obtain ⟨⟨c, hat, hrest, rfl⟩, hsettled⟩ := id hs
  unfold readString
  split
  · next rest =>
    rw [Scanner.string, hrest] at hnext
    have hline : c.line = lineOf text ('"' :: rest) := by
      rw [hat.line_eq_lineOf, hrest]
    exact .step hnext (follows_quoted (stands_one hat hrest) hline .string)
  · next x rest hquote =>
    rw [string_of_unquoted hrest hquote] at hnext
    split_ifs with hx
    · rw [if_pos hx] at hnext
      have hplain : Stands text stage .plain rest ⟨stage, .plain, c.advance 1⟩ := stands_one hat hrest
      obtain ⟨t, ht, hstands⟩ := follows_plain hplain
      exact .step hnext (.steps ht (.ok hstands))
    · rw [if_neg hx] at hnext
      have hhead : ∀ d ∈ (x :: rest).head?, d ≠ '"' ∧ ¬ isPlain d := by
        rintro d ⟨⟩
        exact ⟨hquote, hx⟩
      exact .error (stops_of_ready hs hnext (.noString hsettled.not_piece hhead))
  · rw [Scanner.string, hrest] at hnext
    exact .error (stops_of_ready hs hnext (.noString hsettled.not_piece nofun))

theorem follows_expect {before : Stage} (hs : Stands text before .between cs s)
    (hnext : ∀ rest t, skipTrivia cs = .ok rest → Ready text before rest t →
      t.next = t.expects x stage) :
    Follows (expect x cs) s (Stands text stage .between) (Stops text) := by
  refine (follows_skipTrivia hs).bind fun rest t hskip hready => ?_
  have hnext := hnext rest t hskip hready
  obtain ⟨⟨c, hat, hrest, rfl⟩, hsettled⟩ := id hready
  rw [Scanner.expects, hrest] at hnext
  have hstops (h : rest.head? ≠ some x) :
      Stops text ⟨.expected x rest.head?, rest⟩ ⟨before, .between, c⟩ :=
    stops_of_ready hready (hnext.trans (if_neg h)) (.another hsettled.not_piece h)
  split
  · exact .error (hstops (by simp))
  · next found rest =>
    split_ifs with hfound
    · exact .step (hnext.trans (if_pos (congrArg some hfound))) (.ok (stands_one hat hrest))
    · exact .error (hstops fun h => hfound (Option.some.inj h))

theorem follows_readRow {braced : Bool} (hs : Ready text (.key braced) cs s)
    (hnext : s.next = s.string (.separator braced)) :
    Follows (readRow cs) s (fun p t => Stands text (.key braced) .between p.2 t) (Stops text) := by
  refine (follows_string hs hnext).bind ?_
  rintro ⟨key, a⟩ t - ht
  refine (follows_skipTrivia ht).bind fun b u _ hu => ?_
  dsimp only
  split
  · next rest =>
    have hgoes := next_of_ready hu
    obtain ⟨⟨c, hat, hrest, rfl⟩, -⟩ := hu
    exact .step hgoes (.ok (stands_one hat hrest))
  · next hsemicolon =>
    have hhead : ¬ b.head? = some ';' := by
      rw [List.head?_eq_some_iff]
      rintro ⟨rest, hrest⟩
      exact hsemicolon rest hrest
    -- Trivia is skipped once more in front of the equals sign, and there is none.
    have hequals : ∀ rest t, skipTrivia b = .ok rest → Ready text (.separator braced) rest t →
        t.next = t.expects '=' (.value braced) := by
      intro rest t hrest ht
      rw [hu.2.skipTrivia_eq] at hrest
      cases hrest
      exact (next_of_ready ht).trans (if_neg hhead)
    refine (follows_expect hu.1 hequals).bind fun c v _ hv => ?_
    refine (follows_skipTrivia hv).bind fun d w _ hw => ?_
    refine (follows_string hw (next_of_ready hw)).bind ?_
    rintro ⟨value, e⟩ y - hy
    exact (follows_expect hy fun rest t _ ht => next_of_ready ht).bind fun f z _ hz => .ok hz

theorem ready_of_skipTrivia (hs : Stands text stage .between cs s)
    (h : skipTrivia cs = .ok rest) : ∃ t, s.Steps t ∧ Ready text stage rest t := by
  have hfollows := follows_skipTrivia hs
  rwa [h] at hfollows

theorem next_of_row {braced : Bool} (hs : Ready text (.key braced) (x :: rest) s)
    (hbrace : ¬ (braced ∧ x = '}')) : s.next = s.string (.separator braced) := by
  rw [next_of_ready hs]
  simp only [Scanner.token, List.head?_cons, Option.some.injEq, if_neg hbrace, reduceCtorEq,
    if_false]

theorem follows_readRows {braced : Bool} (hs : Stands text (.key braced) .between cs s) :
    Follows (readRows braced cs) s (fun _ t => t.next = .done) (Stops text) := by
  fun_induction readRows braced cs generalizing s with
  | case1 cs fault hskip =>
    have hfollows := follows_skipTrivia hs
    rwa [hskip] at hfollows
  | case2 cs hskip hbraced =>
    obtain ⟨t, ht, hready⟩ := ready_of_skipTrivia hs hskip
    have hfails := next_of_ready hready
    simp only [Scanner.token, hbraced] at hfails
    exact .steps ht (.error (stops_of_ready hready hfails .noBrace))
  | case3 cs hskip hbraced =>
    obtain ⟨t, ht, hready⟩ := ready_of_skipTrivia hs hskip
    have hdone := next_of_ready hready
    simp only [Scanner.token, hbraced] at hdone
    exact .steps ht (.ok hdone)
  | case4 cs x rest hskip _ hbrace =>
    obtain ⟨t, ht, hready⟩ := ready_of_skipTrivia hs hskip
    obtain ⟨rfl, rfl⟩ := hbrace
    have hcloses := next_of_ready hready
    obtain ⟨⟨c, hat, hrest, rfl⟩, -⟩ := hready
    refine .steps ht (.step hcloses ?_)
    refine (follows_skipTrivia (stands_one hat hrest)).bind fun after u _ hu => ?_
    split
    · exact .ok (next_of_ready hu)
    · next hmore =>
      have hne : after ≠ [] := hmore
      have hfails := (next_of_ready hu).trans (if_neg hne)
      exact .error (stops_of_ready hu hfails (.surplus hu.2.not_piece hne))
  | case5 cs x rest hskip _ hbrace fault hread =>
    obtain ⟨t, ht, hready⟩ := ready_of_skipTrivia hs hskip
    have hfollows := follows_readRow hready (next_of_row hready hbrace)
    rw [hread] at hfollows
    exact .steps ht hfollows
  | case6 cs x rest hskip _ hbrace row more hread _ ih =>
    obtain ⟨t, ht, hready⟩ := ready_of_skipTrivia hs hskip
    have hfollows := follows_readRow hready (next_of_row hready hbrace)
    rw [hread] at hfollows
    obtain ⟨u, hu, hstands⟩ := hfollows
    exact .steps (ht.trans hu) ((ih hstands).bind fun _ _ _ h => .ok h)

theorem follows_rows (text : List Char) :
    Follows (rows text) (Scanner.start text) (fun _ t => t.next = .done) (Stops text) := by
  have hstart : Stands text .opening .between text (Scanner.start text) :=
    ⟨.start text, Cursor.at_start text, rfl, rfl⟩
  refine (follows_skipTrivia hstart).bind fun rest t _ ht => ?_
  have hopens := next_of_ready ht
  obtain ⟨⟨c, hat, hrest, rfl⟩, -⟩ := ht
  split
  · exact .step hopens (follows_readRows (stands_one hat hrest))
  · next hbrace =>
    have hhead : ¬ rest.head? = some '{' := by
      rw [List.head?_eq_some_iff]
      rintro ⟨more, hmore⟩
      exact hbrace more hmore
    exact .step (hopens.trans (if_neg hhead)) (follows_readRows (stands_here hat hrest))

end scanning

theorem follows_parse (text : List Char) :
    Follows (parse text) (Scanner.start text) (fun _ t => t.next = .done) (Stops text) := by
  have hfollows := follows_rows text
  unfold parse
  cases h : rows text with
  | error fault =>
    rw [h] at hfollows
    exact hfollows
  | ok found =>
    rw [h] at hfollows
    exact hfollows

/-- At every place that the scanner comes to, its line is that of its position. It comes to the end of
every text that is accepted, and fails just where a text is refused: for the same reason, and on the line
of the place that is at fault. -/
theorem fault_reported_on_its_line (text : List Char) :
    (∀ s, Scanner.Reached text s → s.cursor.At text) ∧
    (∀ table, parse text = .ok table → ∃ s, Scanner.Reached text s ∧ s.next = .done) ∧
    (∀ fault, parse text = .error fault →
      ∃ before s, text = before ++ fault.rest ∧ Offends fault.reason fault.rest ∧
        lineOf text fault.rest = 1 + before.count '\n' ∧ Scanner.Reached text s ∧
        s.next = .fails fault.reason (lineOf text fault.rest) ∧
        (¬ fault.reason.ofString → s.cursor.rest = fault.rest)) ∧
    ∀ s reason line, Scanner.Reached text s → s.next = .fails reason line →
      ∃ place, parse text = .error ⟨reason, place⟩ ∧ line = lineOf text place := by
  have hfollows := follows_parse text
  refine ⟨fun s hs => Scanner.at_of_reached hs, fun table htable => ?_, fun fault hfault => ?_,
    fun s reason line hs hfails => ?_⟩
  · rw [htable] at hfollows
    exact hfollows
  · rw [hfault] at hfollows
    obtain ⟨s, hs, hstops⟩ := hfollows
    obtain ⟨before, hbefore⟩ := faultIn_parse text fault hfault
    have hline : lineOf text fault.rest = 1 + before.count '\n' := by
      rw [lineOf, ← hbefore, List.length_append, Nat.add_sub_cancel, List.take_left]
    exact ⟨before, s, hbefore.symm, hstops.offends, hline, hs, hstops.next_eq, hstops.rest_eq⟩
  · -- The scanner has one end only, and that of the readers is known.
    have hend : ∀ t, s.next ≠ .goes t := by simp [hfails]
    cases hparse : parse text with
    | ok table =>
      rw [hparse] at hfollows
      obtain ⟨t, ht, hdone⟩ := hfollows
      have heq := Scanner.end_unique hs ht hend (by simp [hdone])
      rw [heq, hdone] at hfails
      cases hfails
    | error fault =>
      rw [hparse] at hfollows
      obtain ⟨t, ht, hstops⟩ := hfollows
      have heq := Scanner.end_unique hs ht hend (by simp [hstops.next_eq])
      rw [heq, hstops.next_eq] at hfails
      cases hfails
      exact ⟨fault.rest, rfl, rfl⟩

/-- A string that runs on over the end of its line is at fault where it begins. -/
theorem open_string_reported_on_its_first_line :
    let text := "a = b;\n\"c\nd".toList
    parse text = .error ⟨.unterminatedString, "\"c\nd".toList⟩ ∧
      ∃ s, Scanner.Reached text s ∧ s.next = .fails .unterminatedString 2 := by
  intro text
  have hparse : parse text = .error ⟨.unterminatedString, "\"c\nd".toList⟩ := by decide +kernel
  obtain ⟨-, -, hfault, -⟩ := fault_reported_on_its_line text
  obtain ⟨before, s, -, -, -, hs, hnext, -⟩ := hfault _ hparse
  have hline : lineOf text "\"c\nd".toList = 2 := by decide
  rw [hline] at hnext
  exact ⟨hparse, s, hs, hnext⟩

end LocaleAccessors.Strings
