import LocaleAccessors.Proofs.Strings.Tokens
import LocaleAccessors.Proofs.Table.Dictionary

/-!
A strings file is accepted exactly when its text is in the grammar, and its table is the dictionary
of the rows that the grammar finds.
-/

namespace LocaleAccessors.Strings
open Table (Entry Assigned assigned_entries assigned_iff)
open Relation (ReflTransGen)

theorem Gap.trans {a b c : List Char} (hab : Gap a b) (hbc : Gap b c) : Gap a c :=
  ⟨hab.1.trans hbc.1, hbc.2⟩

theorem Gap.stop {a b : List Char} (h : Gap a b) : Gap b b :=
  ⟨.refl, h.2⟩

theorem Gap.eq_of_stop {a b : List Char} (ha : ∀ more, ¬ Piece a more) (h : Gap a b) : a = b := by
  obtain ⟨hs, -⟩ := h
  cases hs using ReflTransGen.head_induction_on with
  | refl => rfl
  | head hp => exact absurd hp (ha _)

theorem skipTrivia_eq_ok_iff {text rest : List Char} {c : Char} (hc : c ≠ '/') :
    skipTrivia text = .ok (c :: rest) ↔ Gap text (c :: rest) := by
  refine ⟨gap_of_skipTrivia, fun h => skipTrivia_of_gap h ?_⟩
  rintro ⟨t, ht⟩
  cases ht
  exact hc rfl

theorem expect_eq_ok_iff {text rest : List Char} {c : Char} (hc : c ≠ '/') :
    expect c text = .ok rest ↔ Gap text (c :: rest) := by
  rw [← skipTrivia_eq_ok_iff hc, expect, bind_eq_ok_iff]
  constructor
  · rintro ⟨found, hs, h⟩
    split at h
    · cases h
    · split_ifs at h with hf
      cases h
      rw [hs, hf]
  · intro h
    exact ⟨_, h, by simp⟩

theorem Token.head {text s rest : List Char} (h : Token text s rest) :
    ∃ c more, text = c :: more ∧ (c = '"' ∨ isPlain c) := by
  cases h with
  | @quoted text _ _ hq => exact ⟨'"', text, rfl, .inl rfl⟩
  | plain hne hs hrest =>
    obtain ⟨c, t, rfl⟩ := List.exists_cons_of_ne_nil hne
    exact ⟨c, t ++ rest, rfl, .inr (hs c (by simp))⟩

/-- A slash that opens a comment is no token, for what comes after it is no trivia and ends no row. -/
theorem Token.not_comment {text s a rest : List Char} {c : Char} (h : Token text s a)
    (hg : Gap a (c :: rest)) (hc : c ≠ '*') : ¬ ['/', '*'] <+: text := by
  rintro ⟨t, ht⟩
  cases h with
  | quoted => cases ht
  | plain hne hs _ =>
    obtain ⟨d, s, rfl⟩ := List.exists_cons_of_ne_nil hne
    cases s with
    | cons e s =>
      simp only [List.cons_append, List.nil_append, List.cons.injEq] at ht
      obtain ⟨rfl, rfl, -⟩ := ht
      exact absurd (hs '*' (by simp)) (by decide)
    | nil =>
      simp only [List.cons_append, List.nil_append, List.cons.injEq] at ht
      obtain ⟨rfl, rfl⟩ := ht
      have hstop : ∀ more, ¬ Piece ('*' :: t) more := by
        rintro more ⟨hb⟩
        exact absurd hb (by decide)
      exact hc (List.cons.inj (Gap.eq_of_stop hstop hg)).1.symm

theorem Row.token {text rest : List Char} {row : String × String} (h : Row text row rest) :
    ∃ s a c after, Token text s a ∧ Gap a (c :: after) ∧ c ≠ '*' := by
  cases h with
  | alone ht hg => exact ⟨_, _, _, _, ht, hg, by decide⟩
  | pair ht hg _ _ _ => exact ⟨_, _, _, _, ht, hg, by decide⟩

theorem Row.not_comment {text rest : List Char} {row : String × String} (h : Row text row rest) :
    ¬ ['/', '*'] <+: text := by
  obtain ⟨s, a, c, after, ht, hg, hc⟩ := h.token
  exact ht.not_comment hg hc

theorem Row.head {text rest : List Char} {row : String × String} (h : Row text row rest) :
    ∃ c more, text = c :: more ∧ c ≠ '{' ∧ c ≠ '}' := by
  obtain ⟨s, a, _, _, ht, -, -⟩ := h.token
  obtain ⟨c, more, rfl, hc⟩ := ht.head
  refine ⟨c, more, rfl, ?_, ?_⟩
  · rintro rfl; exact absurd hc (by decide)
  · rintro rfl; exact absurd hc (by decide)

theorem readRow_eq_ok_iff {text rest : List Char} {row : String × String} :
    readRow text = .ok (row, rest) ↔ Row text row rest := by
  constructor
  · intro h
    unfold readRow at h
    obtain ⟨⟨key, a⟩, hkey, h⟩ := bind_eq_ok_iff.mp h
    obtain ⟨b, hb, h⟩ := bind_eq_ok_iff.mp h
    have hkey := readString_eq_ok_iff.mp hkey
    have hb := gap_of_skipTrivia hb
    split at h
    · cases h
      exact .alone hkey hb
    · obtain ⟨c, hc, h⟩ := bind_eq_ok_iff.mp h
      obtain ⟨d, hd, h⟩ := bind_eq_ok_iff.mp h
      obtain ⟨⟨value, e⟩, hvalue, h⟩ := bind_eq_ok_iff.mp h
      obtain ⟨f, hf, h⟩ := bind_eq_ok_iff.mp h
      cases h
      have hc := (expect_eq_ok_iff (by decide)).mp hc
      have hf := (expect_eq_ok_iff (by decide)).mp hf
      exact .pair hkey (hb.trans hc) (gap_of_skipTrivia hd) (readString_eq_ok_iff.mp hvalue) hf
  · intro h
    cases h with
    | alone ht hg =>
      simp [readRow, readString_eq_ok_iff.mpr ht, (skipTrivia_eq_ok_iff (by decide)).mpr hg,
        bind, Except.bind, pure, Except.pure]
    | @pair a b c d _ key value ht ha hb hv hd =>
      have hsb := (skipTrivia_eq_ok_iff (by decide)).mpr ha
      have heq : expect '=' ('=' :: b) = .ok b := (expect_eq_ok_iff (by decide)).mpr ha.stop
      have hsc := skipTrivia_of_gap hb (hv.not_comment hd (by decide))
      have hsemi : expect ';' d = .ok rest := (expect_eq_ok_iff (by decide)).mpr hd
      simp [readRow, readString_eq_ok_iff.mpr ht, hsb, heq, hsc, readString_eq_ok_iff.mpr hv, hsemi,
        bind, Except.bind, pure, Except.pure]

/-- The rows of a file from the first one on, up to the end of the file. -/
def Body (braced : Bool) (text : List Char) (rows : List (String × String)) : Prop :=
  ∃ last, Rows text rows last ∧ if braced then ∃ c, last = '}' :: c ∧ Gap c [] else last = []

theorem Body.cons {braced : Bool} {text a b : List Char} {row : String × String}
    {rows : List (String × String)} (hr : Row text row a) (hg : Gap a b) (h : Body braced b rows) :
    Body braced text (row :: rows) := by
  obtain ⟨last, hrows, hlast⟩ := h
  exact ⟨last, .cons hr hg hrows, hlast⟩

theorem body_of_readRows {braced : Bool} {text : List Char} {rows : List (String × String)}
    (h : readRows braced text = .ok rows) : ∃ a, Gap text a ∧ Body braced a rows := by
  fun_induction readRows braced text generalizing rows with
  | case1 => cases h
  | case2 => cases h
  | case3 text hs hb =>
    cases h
    exact ⟨[], gap_of_skipTrivia hs, [], .nil, by simp [hb]⟩
  | case4 text c rest hs _ hc =>
    obtain ⟨rfl, rfl⟩ := hc
    obtain ⟨after, hafter, h⟩ := bind_eq_ok_iff.mp h
    split at h
    · cases h
      exact ⟨_, gap_of_skipTrivia hs, _, .nil, rest, rfl, gap_of_skipTrivia hafter⟩
    · cases h
  | case5 => cases h
  | case6 text c rest hs _ hc row more hr _ ih =>
    obtain ⟨others, ho, h⟩ := bind_eq_ok_iff.mp h
    cases h
    obtain ⟨a, hg, hbody⟩ := ih ho
    exact ⟨_, gap_of_skipTrivia hs, hbody.cons (readRow_eq_ok_iff.mp hr) hg⟩

theorem readRows_of_error {braced : Bool} {text : List Char} {fault : Fault}
    (h : skipTrivia text = .error fault) : readRows braced text = .error fault := by
  rw [readRows]
  split <;> simp_all

theorem readRows_of_nil {braced : Bool} {text : List Char} (h : skipTrivia text = .ok []) :
    readRows braced text = if braced then .error ⟨.missingBrace, []⟩ else .ok [] := by
  rw [readRows]
  split <;> simp_all

theorem readRows_of_close {text rest : List Char} (h : skipTrivia text = .ok ('}' :: rest))
    (hr : skipTrivia rest = .ok []) : readRows true text = .ok [] := by
  rw [readRows]
  split <;> simp_all [bind, Except.bind, pure, Except.pure]

theorem readRows_of_row {braced : Bool} {text rest more : List Char} {c : Char}
    {row : String × String} (h : skipTrivia text = .ok (c :: rest)) (hc : c ≠ '}')
    (hr : readRow (c :: rest) = .ok (row, more)) :
    readRows braced text = (readRows braced more).map (row :: ·) := by
  rw [readRows]
  split
  · simp_all
  · simp_all
  · rename_i heq
    rw [h] at heq
    cases heq
    rw [if_neg fun hb => hc hb.2]
    split
    · simp_all
    · rename_i heq
      rw [hr] at heq
      cases heq
      rfl

theorem readRows_of_body {braced : Bool} {text a : List Char} {rows : List (String × String)}
    (hg : Gap text a) (h : Body braced a rows) : readRows braced text = .ok rows := by
  obtain ⟨last, hrows, hlast⟩ := h
  induction hrows generalizing text with
  | @nil last =>
    cases braced with
    | false =>
      cases hlast
      exact readRows_of_nil (skipTrivia_of_gap hg (by simp))
    | true =>
      obtain ⟨c, rfl, hc⟩ := hlast
      exact readRows_of_close ((skipTrivia_eq_ok_iff (by decide)).mpr hg)
        (skipTrivia_of_gap hc (by simp))
  | cons hr hgap hrows ih =>
    obtain ⟨c, more, rfl, -, hc⟩ := hr.head
    rw [readRows_of_row (skipTrivia_of_gap hg hr.not_comment) hc (readRow_eq_ok_iff.mpr hr),
      ih hgap hlast]
    rfl

theorem readRows_eq_ok_iff {braced : Bool} {text : List Char} {rows : List (String × String)} :
    readRows braced text = .ok rows ↔ ∃ a, Gap text a ∧ Body braced a rows :=
  ⟨body_of_readRows, fun ⟨_, hg, hb⟩ => readRows_of_body hg hb⟩

theorem Body.not_comment {text : List Char} {rows : List (String × String)}
    (h : Body false text rows) : ¬ ['/', '*'] <+: text := by
  obtain ⟨last, hrows, hlast⟩ := h
  cases hrows with
  | nil =>
    cases hlast
    simp
  | cons hr _ _ => exact hr.not_comment

theorem Body.not_brace {text : List Char} {rows : List (String × String)}
    (h : Body false text rows) : ∀ rest, text ≠ '{' :: rest := by
  rintro rest rfl
  obtain ⟨last, hrows, hlast⟩ := h
  cases hrows with
  | nil => cases hlast
  | cons hr _ _ =>
    obtain ⟨c, more, heq, hc, -⟩ := hr.head
    exact hc (List.cons.inj heq).1.symm

theorem rows_eq_ok_iff {text : List Char} {found : List (String × String)} :
    rows text = .ok found ↔ Document text found := by
  rw [rows, bind_eq_ok_iff]
  constructor
  · rintro ⟨a, ha, h⟩
    have ha := gap_of_skipTrivia ha
    split at h
    · obtain ⟨b, hb, last, hrows, c, rfl, hc⟩ := readRows_eq_ok_iff.mp h
      exact .braced ha hb hrows hc
    · obtain ⟨b, hb, last, hrows, rfl⟩ := readRows_eq_ok_iff.mp h
      exact .bare (ha.trans hb) hrows
  · intro h
    cases h with
    | @bare a _ hg hrows =>
      have hbody : Body false a found := ⟨[], hrows, rfl⟩
      refine ⟨a, skipTrivia_of_gap hg hbody.not_comment, ?_⟩
      split
      · exact absurd rfl (hbody.not_brace _)
      · exact readRows_eq_ok_iff.mpr ⟨a, hg.stop, hbody⟩
    | braced hg hb hrows hc =>
      exact ⟨_, (skipTrivia_eq_ok_iff (by decide)).mpr hg,
        readRows_eq_ok_iff.mpr ⟨_, hb, _, hrows, _, rfl, hc⟩⟩

theorem document_of_parse {text : List Char} {table : List Entry} (h : parse text = .ok table) :
    ∃ found, Document text found ∧ Assigned found table := by
  obtain ⟨found, hrows, rfl⟩ := map_eq_ok_iff.mp h
  exact ⟨found, rows_eq_ok_iff.mp hrows, assigned_entries found⟩

/-- A text is accepted if and only if it is in the grammar; the entries are those of its rows. -/
theorem parse_eq_ok_iff (text : List Char) (table : List Entry) :
    parse text = .ok table ↔ ∃ found, Document text found ∧ Assigned found table := by
  refine ⟨document_of_parse, ?_⟩
  rintro ⟨found, hdocument, hassigned⟩
  exact map_eq_ok_iff.mpr ⟨found, rows_eq_ok_iff.mpr hdocument, (assigned_iff.mp hassigned).symm⟩

end LocaleAccessors.Strings
