import LocaleAccessors.Proofs.Strings.Acceptance

/-!
Places in a strings file. A place is what is left of the text from there on. Readers go on from places
in their text, and a fault is at one of them; its line is the lines before the text and the line in it.
-/

namespace LocaleAccessors.Strings
open Relation (ReflTransGen)

section suffixes
variable {text rest s : List Char} {c : Char}

theorem Piece.suffix (h : Piece text rest) : rest <:+ text := by
  cases h with
  | @blank c rest _ => exact List.suffix_cons c rest
  | @block body rest _ => exact ⟨'/' :: '*' :: body ++ ['*', '/'], by simp⟩
  | @line body rest _ _ => exact ⟨'/' :: '/' :: body, by simp⟩

theorem Gap.suffix (h : Gap text rest) : rest <:+ text := by
  obtain ⟨hpieces, -⟩ := h
  induction hpieces using ReflTransGen.head_induction_on with
  | refl => exact List.suffix_refl rest
  | head hp _ ih => exact ih.trans hp.suffix

theorem Hex4.suffix {n : Nat} (h : Hex4 text n rest) : rest <:+ text := by
  obtain ⟨digits, values, -, -, -, rfl⟩ := h
  exact List.suffix_append digits rest

theorem Escape.suffix (h : Escape text c rest) : rest <:+ text := by
  cases h with
  | @named letter _ rest _ => exact List.suffix_cons letter rest
  | @unit marker _ text rest _ hx => exact hx.suffix.trans (List.suffix_cons marker text)
  | @pair first second _ text more rest high low _ hx _ hy =>
    have hmore : more <:+ text := (List.suffix_append ['\\', second] more).trans hx.suffix
    exact (hy.suffix.trans hmore).trans (List.suffix_cons first text)
  | @octal _ digits rest _ _ _ _ _ _ => exact List.suffix_append digits rest
  | @itself _ rest _ _ _ => exact List.suffix_cons c rest

theorem Quoted.suffix (h : Quoted text s rest) : rest <:+ text := by
  induction h with
  | close => exact List.suffix_cons _ _
  | escape he _ ih => exact (ih.trans he.suffix).trans (List.suffix_cons _ _)
  | char _ _ _ ih => exact ih.trans (List.suffix_cons _ _)

theorem Token.suffix (h : Token text s rest) : rest <:+ text := by
  cases h with
  | quoted hq => exact hq.suffix.trans (List.suffix_cons _ _)
  | plain _ _ _ => exact List.suffix_append _ _

theorem Row.suffix {row : String × String} (h : Row text row rest) : rest <:+ text := by
  cases h with
  | alone ht hg => exact ((List.suffix_cons _ _).trans hg.suffix).trans ht.suffix
  | pair ht ha hb hv hd =>
    have hvalue := ((List.suffix_cons _ _).trans hd.suffix).trans hv.suffix
    exact ((hvalue.trans hb.suffix).trans (List.suffix_cons _ _)).trans (ha.suffix.trans ht.suffix)

end suffixes

def FaultIn {α : Type} (text : List Char) (x : Except Fault α) : Prop :=
  ∀ fault, x = .error fault → fault.rest <:+ text

namespace FaultIn
variable {α β : Type} {text more : List Char}

theorem ok (a : α) : FaultIn text (.ok a) :=
  fun _ h => nomatch h

theorem error {fault : Fault} (h : fault.rest <:+ text) :
    FaultIn text (.error fault : Except Fault α) := by
  intro found hfound
  rwa [← Except.error.inj hfound]

theorem mono {x : Except Fault α} (h : FaultIn more x) (hm : more <:+ text) : FaultIn text x :=
  fun fault hx => (h fault hx).trans hm

theorem bind {x : Except Fault α} {f : α → Except Fault β} (hx : FaultIn text x)
    (hf : ∀ a, x = .ok a → FaultIn text (f a)) : FaultIn text (x >>= f) := by
  intro fault h
  rcases bind_eq_error_iff.mp h with h | ⟨a, ha, h⟩
  · exact hx fault h
  · exact hf a ha fault h

end FaultIn

theorem faultIn_skipTrivia (text : List Char) : FaultIn text (skipTrivia text) := by
  fun_induction skipTrivia text with
  | case1 body rest hr _ ih =>
    obtain ⟨inner, hinner, rfl⟩ := body_of_afterComment hr
    exact ih.mono (Piece.block hinner).suffix
  | case2 body _ => exact .error (List.suffix_refl _)
  | case3 body ih => exact ih.mono (piece_line body).suffix
  | case4 c rest _ _ _ ih => exact ih.mono (List.suffix_cons c rest)
  | case5 | case6 => exact .ok _

theorem faultIn_readQuoted {opening cs : List Char} (h : cs <:+ opening) :
    FaultIn opening (readQuoted opening cs) := by
  fun_induction readQuoted opening cs with
  | case1 => exact .error (List.suffix_refl _)
  | case2 => exact .ok _
  | case3 body reason _ => exact .error h
  | case4 body c rest he _ ih =>
    have hrest := (readEscape_eq_ok_iff.mp he).suffix.trans ((List.suffix_cons _ _).trans h)
    exact (ih hrest).bind fun _ _ => .ok _
  | case5 c rest _ _ ih => exact (ih ((List.suffix_cons c rest).trans h)).bind fun _ _ => .ok _

theorem faultIn_readString (text : List Char) : FaultIn text (readString text) := by
  unfold readString
  split
  · exact faultIn_readQuoted (List.suffix_cons _ _)
  · split_ifs
    · exact .ok _
    · exact .error (List.suffix_refl _)
  · exact .error (List.suffix_refl _)

theorem faultIn_expect (c : Char) (text : List Char) : FaultIn text (expect c text) := by
  refine (faultIn_skipTrivia text).bind fun rest hrest => ?_
  have hsuffix := (gap_of_skipTrivia hrest).suffix
  split
  · exact .error hsuffix
  · split_ifs
    · exact .ok _
    · exact .error hsuffix

theorem faultIn_readRow (text : List Char) : FaultIn text (readRow text) := by
  refine (faultIn_readString text).bind fun ⟨key, a⟩ hkey => ?_
  have ha := (readString_eq_ok_iff.mp hkey).suffix
  refine ((faultIn_skipTrivia a).mono ha).bind fun b hb => ?_
  have hb := (gap_of_skipTrivia hb).suffix.trans ha
  split
  · exact .ok _
  · refine ((faultIn_expect '=' _).mono hb).bind fun c hc => ?_
    have hc := ((List.suffix_cons '=' c).trans ((expect_eq_ok_iff (by decide)).mp hc).suffix).trans hb
    refine ((faultIn_skipTrivia c).mono hc).bind fun d hd => ?_
    have hd := (gap_of_skipTrivia hd).suffix.trans hc
    refine ((faultIn_readString d).mono hd).bind fun ⟨value, e⟩ he => ?_
    have he := (readString_eq_ok_iff.mp he).suffix.trans hd
    exact ((faultIn_expect ';' e).mono he).bind fun _ _ => .ok _

theorem faultIn_readRows (braced : Bool) (text : List Char) : FaultIn text (readRows braced text) := by
  fun_induction readRows braced text with
  | case1 text fault hs => exact .error (faultIn_skipTrivia text fault hs)
  | case2 => exact .error (List.nil_suffix)
  | case3 => exact .ok _
  | case4 text c rest hs _ hc =>
    have hrest := (List.suffix_cons c rest).trans (gap_of_skipTrivia hs).suffix
    refine ((faultIn_skipTrivia rest).mono hrest).bind fun after hafter => ?_
    split
    · exact .ok _
    · exact .error ((gap_of_skipTrivia hafter).suffix.trans hrest)
  | case5 text c rest hs _ _ fault hr =>
    exact .error ((faultIn_readRow _ fault hr).trans (gap_of_skipTrivia hs).suffix)
  | case6 text c rest hs _ _ row more hr _ ih =>
    have hmore := (readRow_eq_ok_iff.mp hr).suffix.trans (gap_of_skipTrivia hs).suffix
    exact (ih.mono hmore).bind fun _ _ => .ok _

theorem faultIn_rows (text : List Char) : FaultIn text (rows text) := by
  refine (faultIn_skipTrivia text).bind fun rest hrest => ?_
  have hsuffix := (gap_of_skipTrivia hrest).suffix
  split
  · exact (faultIn_readRows true _).mono ((List.suffix_cons _ _).trans hsuffix)
  · exact (faultIn_readRows false _).mono hsuffix

theorem faultIn_parse (text : List Char) : FaultIn text (parse text) :=
  fun fault h => faultIn_rows text fault (map_eq_error_iff.mp h)

theorem lineOf_append {text rest : List Char} (before : List Char) (h : rest <:+ text) :
    lineOf (before ++ text) rest = before.count '\n' + lineOf text rest := by
  have hle := h.length_le
  have htake : (before ++ text).take ((before ++ text).length - rest.length) =
      before ++ text.take (text.length - rest.length) := by
    rw [List.length_append, Nat.add_sub_assoc hle, List.take_length_add_append]
  rw [lineOf, htake, List.count_append, lineOf]
  omega

end LocaleAccessors.Strings
