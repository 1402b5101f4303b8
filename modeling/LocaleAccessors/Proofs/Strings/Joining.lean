import LocaleAccessors.Proofs.Strings.Places

/-!
Two strings files in one. A text that is accepted, a newline and another text are read as the rows of the
first and then the rows of the second. The newline ends a comment that the first text breaks off in, and
no token goes on behind it.
-/

namespace LocaleAccessors.Strings
open Table (Entry Assigned assigned_iff assigned_entries entries)
open Text (isBlank OctalDigit octalValue?_eq_none_iff)
open Relation (ReflTransGen)

/-! What is read at the front of a text is read there when the text goes on behind a newline. -/

section extended
variable {text rest s : List Char} {c : Char} (more : List Char)

theorem head?_extend {p : Char → Prop} (h : ∀ c ∈ rest.head?, p c) (hnewline : p '\n') :
    ∀ c ∈ (rest ++ '\n' :: more).head?, p c := by
  cases rest with
  | nil =>
    intro c hc
    rwa [← Option.some.inj hc]
  | cons d rest => exact h

theorem Piece.extend (h : Piece text rest) :
    Piece (text ++ '\n' :: more) (rest ++ '\n' :: more) := by
  cases h with
  | blank hblank => exact .blank hblank
  | @block body rest hbody =>
    have hpiece : Piece ('/' :: '*' :: (body ++ '*' :: '/' :: (rest ++ '\n' :: more)))
        (rest ++ '\n' :: more) := .block hbody
    simpa using hpiece
  | @line body rest hbody hrest =>
    have hpiece : Piece ('/' :: '/' :: (body ++ (rest ++ '\n' :: more))) (rest ++ '\n' :: more) :=
      .line hbody (head?_extend more hrest rfl)
    simpa using hpiece

theorem pieces_extend (h : ReflTransGen Piece text rest) :
    ReflTransGen Piece (text ++ '\n' :: more) (rest ++ '\n' :: more) :=
  h.lift (· ++ '\n' :: more) fun _ _ hpiece => hpiece.extend more

theorem Gap.extend (h : Gap text (c :: rest)) (hc : ¬ ['/', '*'] <+: c :: rest) :
    Gap (text ++ '\n' :: more) (c :: rest ++ '\n' :: more) := by
  refine ⟨pieces_extend more h.1, fun after hpiece => ?_⟩
  rw [List.cons_append] at hpiece
  generalize htail : rest ++ '\n' :: more = tail at hpiece
  cases hpiece with
  | blank hblank => exact h.2 rest (.blank hblank)
  | block _ =>
    cases rest with
    | nil => exact absurd (List.cons.inj htail).1 (by decide)
    | cons d rest =>
      rw [(List.cons.inj htail).1] at hc
      exact hc (List.prefix_append ['/', '*'] rest)
  | line _ _ =>
    cases rest with
    | nil => exact absurd (List.cons.inj htail).1 (by decide)
    | cons d rest =>
      rw [(List.cons.inj htail).1] at h
      exact h.2 _ (piece_line rest)

theorem Hex4.extend {n : Nat} (h : Hex4 text n rest) :
    Hex4 (text ++ '\n' :: more) n (rest ++ '\n' :: more) := by
  obtain ⟨digits, values, hdigits, hlength, hn, rfl⟩ := h
  exact ⟨digits, values, hdigits, hlength, hn, List.append_assoc _ _ _⟩

theorem Escape.extend (h : Escape text c rest) :
    Escape (text ++ '\n' :: more) c (rest ++ '\n' :: more) := by
  cases h with
  | named hnamed => exact .named hnamed
  | unit hmarker hx => exact .unit hmarker (hx.extend more)
  | pair hfirst hx hsecond hy h1 h2 h3 h4 hc =>
    exact .pair hfirst (hx.extend more) hsecond (hy.extend more) h1 h2 h3 h4 hc
  | octal hdigits hne hlength hrest hc =>
    rw [List.append_assoc]
    have hnewline : ∀ v, ¬ OctalDigit '\n' v := octalValue?_eq_none_iff.mp rfl
    exact .octal hdigits hne hlength (fun hlt => head?_extend more (hrest hlt) hnewline) hc
  | itself hnamed hmarker hoctal => exact .itself hnamed hmarker hoctal

theorem Quoted.extend (h : Quoted text s rest) :
    Quoted (text ++ '\n' :: more) s (rest ++ '\n' :: more) := by
  induction h with
  | close => exact .close
  | escape he _ ih => exact .escape (he.extend more) ih
  | char hquote hslash _ ih => exact .char hquote hslash ih

theorem Token.extend (h : Token text s rest) :
    Token (text ++ '\n' :: more) s (rest ++ '\n' :: more) := by
  cases h with
  | quoted hq => exact .quoted (hq.extend more)
  | plain hne hs hrest =>
    rw [List.append_assoc]
    exact .plain hne hs (head?_extend more hrest (by decide))

theorem Row.extend {row : String × String} (h : Row text row rest) :
    Row (text ++ '\n' :: more) row (rest ++ '\n' :: more) := by
  cases h with
  | alone ht hg => exact .alone (ht.extend more) (hg.extend more (by simp))
  | pair ht ha hb hv hd =>
    obtain ⟨c, after, rfl, -⟩ := hv.head
    exact .pair (ht.extend more) (ha.extend more (by simp))
      (hb.extend more (hv.not_comment hd (by decide))) (hv.extend more) (hd.extend more (by simp))

end extended

section joined
variable {first second a : List Char} {found : List (String × String)}

theorem skipTrivia_joined (h : Gap first []) (second : List Char) :
    skipTrivia (first ++ '\n' :: second) = skipTrivia second := by
  rw [skipTrivia_of_pieces (pieces_extend second h.1), List.nil_append,
    skipTrivia_of_piece (.blank (by decide))]

theorem readRows_congr {braced : Bool} {text rest : List Char}
    (h : skipTrivia text = skipTrivia rest) : readRows braced text = readRows braced rest := by
  rw [readRows, readRows]
  grind

theorem rows_of_not_brace {text : List Char} (h : ∀ rest, ¬ Gap text ('{' :: rest)) :
    rows text = readRows false text := by
  cases hs : skipTrivia text with
  | error fault =>
    rw [rows, hs, readRows_of_error hs]
    rfl
  | ok rest =>
    have hgap := gap_of_skipTrivia hs
    have hrest : rows text = readRows false rest := by
      simp only [rows, hs, bind, Except.bind]
      split
      · exact absurd hgap (h _)
      · rfl
    rw [hrest, readRows_congr (skipTrivia_of_pieces hgap.1)]

theorem readRows_joined (hgap : Gap first a) (h : Rows a found []) (second : List Char) :
    readRows false (first ++ '\n' :: second) = (readRows false second).map (found ++ ·) := by
  generalize hlast : [] = last at h
  induction h generalizing first with
  | nil =>
    subst hlast
    rw [readRows_congr (skipTrivia_joined hgap second)]
    cases readRows false second <;> rfl
  | cons hrow hafter _ ih =>
    obtain ⟨c, more, rfl, -, hc⟩ := hrow.head
    have hrow' := hrow.extend second
    have hskip := skipTrivia_of_gap (hgap.extend second hrow.not_comment) hrow'.not_comment
    rw [readRows_of_row hskip hc (readRow_eq_ok_iff.mpr hrow'), ih hafter hlast]
    cases readRows false second <;> rfl

/-- What the first text begins with the joined text begins with, and what the second does if the first is
trivia alone. -/
theorem not_brace_joined (hgap : Gap first a) (h : Rows a found [])
    (hsecond : ∀ rest, ¬ Gap second ('{' :: rest)) (rest : List Char) :
    ¬ Gap (first ++ '\n' :: second) ('{' :: rest) := by
  intro hjoined
  rw [← skipTrivia_eq_ok_iff (by decide)] at hjoined
  cases h with
  | nil =>
    rw [skipTrivia_joined hgap, skipTrivia_eq_ok_iff (by decide)] at hjoined
    exact hsecond rest hjoined
  | cons hrow _ _ =>
    obtain ⟨c, more, rfl, hc, -⟩ := hrow.head
    have hskip := skipTrivia_of_gap (hgap.extend second hrow.not_comment)
      (hrow.extend second).not_comment
    rw [hskip] at hjoined
    exact hc (List.cons.inj (Except.ok.inj hjoined)).1

theorem rows_joined (hfirst : ∀ rest, ¬ Gap first ('{' :: rest))
    (hsecond : ∀ rest, ¬ Gap second ('{' :: rest)) (h : Document first found) :
    rows (first ++ '\n' :: second) = (rows second).map (found ++ ·) := by
  cases h with
  | bare hgap hrows =>
    rw [rows_of_not_brace (not_brace_joined hgap hrows hsecond), rows_of_not_brace hsecond,
      readRows_joined hgap hrows]
  | braced hgap _ _ _ => exact absurd hgap (hfirst _)

/-- Two texts without braces, the first of them accepted, are read together as one after the other: the
table is that of all their rows, and a fault of the second is found where it stands. -/
theorem parse_joined {table : List Entry} (hfirst : ∀ rest, ¬ Gap first ('{' :: rest))
    (hsecond : ∀ rest, ¬ Gap second ('{' :: rest)) (h : parse first = .ok table) :
    ∃ found, Document first found ∧ Assigned found table ∧
      (∀ other, parse second = .ok other →
        ∃ others joined, Document second others ∧ Assigned others other ∧
          parse (first ++ '\n' :: second) = .ok joined ∧ Assigned (found ++ others) joined) ∧
      ∀ fault, parse second = .error fault →
        parse (first ++ '\n' :: second) = .error fault ∧
          lineOf (first ++ '\n' :: second) fault.rest =
            lineOf second fault.rest + first.count '\n' + 1 := by
  obtain ⟨found, hdocument, hassigned⟩ := document_of_parse h
  have hjoined := rows_joined hfirst hsecond hdocument
  refine ⟨found, hdocument, hassigned, ?_, ?_⟩
  · intro other hother
    obtain ⟨others, hothers, hassigned'⟩ := document_of_parse hother
    refine ⟨others, entries (found ++ others), hothers, hassigned', ?_, assigned_entries _⟩
    rw [parse, hjoined, rows_eq_ok_iff.mpr hothers]
    rfl
  · intro fault hfault
    have hline := lineOf_append (first ++ ['\n']) (faultIn_parse second fault hfault)
    rw [List.append_assoc, List.singleton_append, List.count_append, List.count_singleton_self]
      at hline
    refine ⟨?_, by omega⟩
    rw [parse, hjoined, map_eq_error_iff.mp hfault]
    rfl

/-- The first text breaks off in a comment. The second is one that is accepted, and then one that ends on
its second line where a value should come. -/
theorem parse_joined_behind_comment :
    let first := "a = 1; // x".toList
    let second := "b; a = 2;".toList
    let faulty := "b;\na".toList
    parse first = .ok [⟨"a", "1"⟩] ∧ (∀ rest, ¬ Gap first ('{' :: rest)) ∧
      (∀ rest, ¬ Gap second ('{' :: rest)) ∧ (∀ rest, ¬ Gap faulty ('{' :: rest)) ∧
      parse second = .ok [⟨"b", "b"⟩, ⟨"a", "2"⟩] ∧
      parse (first ++ '\n' :: second) = .ok [⟨"a", "2"⟩, ⟨"b", "b"⟩] ∧
      parse faulty = .error ⟨.expected '=' none, []⟩ ∧ lineOf faulty [] = 2 ∧
      parse (first ++ '\n' :: faulty) = .error ⟨.expected '=' none, []⟩ ∧
      lineOf (first ++ '\n' :: faulty) [] = 3 := by
  intro first second faulty
  have hfirst : parse first = .ok [⟨"a", "1"⟩] := by decide +kernel
  have hsecond : parse second = .ok [⟨"b", "b"⟩, ⟨"a", "2"⟩] := by decide +kernel
  have hfaulty : parse faulty = .error ⟨.expected '=' none, []⟩ := by decide +kernel
  have hbrace (text : List Char) (h : skipTrivia text = .ok text) (hne : text.head? ≠ some '{') :
      ∀ rest, ¬ Gap text ('{' :: rest) := by
    intro rest hgap
    rw [← skipTrivia_eq_ok_iff (by decide), h] at hgap
    rw [Except.ok.inj hgap] at hne
    exact hne rfl
  have hbrace₁ := hbrace first (by decide +kernel) (by decide +kernel)
  have hbrace₂ := hbrace second (by decide +kernel) (by decide +kernel)
  have hbrace₃ := hbrace faulty (by decide +kernel) (by decide +kernel)
  obtain ⟨found, hfound, -, hok, -⟩ := parse_joined hbrace₁ hbrace₂ hfirst
  obtain ⟨-, -, -, -, herror⟩ := parse_joined hbrace₁ hbrace₃ hfirst
  obtain ⟨others, joined, hothers, -, hjoined, hassigned⟩ := hok _ hsecond
  obtain ⟨hparse, hline⟩ := herror _ hfaulty
  have hrows : found = [("a", "1")] :=
    Except.ok.inj ((rows_eq_ok_iff.mpr hfound).symm.trans (by decide +kernel))
  have hrows' : others = [("b", "b"), ("a", "2")] :=
    Except.ok.inj ((rows_eq_ok_iff.mpr hothers).symm.trans (by decide +kernel))
  have hentries : joined = [⟨"a", "2"⟩, ⟨"b", "b"⟩] := by
    rw [assigned_iff.mp hassigned, hrows, hrows']
    decide
  exact ⟨hfirst, hbrace₁, hbrace₂, hbrace₃, hsecond, hentries ▸ hjoined, hfaulty, by decide, hparse,
    hline⟩

end joined

end LocaleAccessors.Strings
