import LocaleAccessors.Json.Content
import LocaleAccessors.Json.Reader
import LocaleAccessors.Proofs.Json.Grammar
import LocaleAccessors.Proofs.Strings.Tokens
import LocaleAccessors.Proofs.Table.Dictionary

/-!
The reader finds the rows of a JSON text in the grammar, however their texts are spelled, and the
table of its content is the dictionary of these rows.
-/

namespace LocaleAccessors.Json
open Strings (Hex4)
open Table (Item Label assignAll assignAll_map entries memberEntries)
open Text (CodePoint Read codePoints characters? readChar dropWhile_run
  mapM_hexValue?_eq_some_iff)
open Text.Utf16 (isHigh isLow joinPair isHigh_iff isLow_iff not_surrogate_toNat)

section texts

theorem ofNat_toNat (c : Char) : CodePoint.ofNat c.toNat = .scalar c := by
  have hvalid : c.toNat.isValidChar := c.valid
  unfold Nat.isValidChar at hvalid
  rw [CodePoint.ofNat, dif_neg (by omega), if_pos (by omega), Char.ofNat_toNat]

/-- Digits are read as far as they go, if something comes after them. What is read carries a proof
that the rest is shorter, here and below, and which one it is does not matter. -/
theorem readHex4_of_hex4 {cs rest : List Char} {n : Nat} (h : Hex4 cs n rest) (hrest : rest ≠ []) :
    ∃ hshorter, readHex4 cs = some ⟨n, rest, hshorter⟩ := by
  obtain ⟨digits, values, hdigits, hlength, rfl, rfl⟩ := h
  obtain ⟨a, b, c, d, rfl⟩ := List.length_eq_four.mp hlength
  obtain ⟨next, rest, rfl⟩ := List.exists_cons_of_ne_nil hrest
  have hread := mapM_hexValue?_eq_some_iff.mpr hdigits
  refine ⟨by simp only [List.length_append, hlength]; omega, ?_⟩
  simp only [List.cons_append, List.nil_append, readHex4, hread]
  rfl

theorem readUnicode_unit {c : Char} {text rest : List Char} (h : Hex4 text c.toNat rest)
    (hrest : rest ≠ []) :
    ∃ hshorter, readUnicode ('u' :: text) = .ok ⟨.scalar c, rest, hshorter⟩ := by
  obtain ⟨hshorter, hunit⟩ := readHex4_of_hex4 h hrest
  refine ⟨Nat.lt_succ_of_lt hshorter, ?_⟩
  simp only [readUnicode, hunit, if_neg (not_surrogate_toNat c).2, ← ofNat_toNat c]
  rfl

theorem readUnicode_pair {c : Char} {text more rest : List Char} {high low : Nat}
    (hfirst : Hex4 text high ('\\' :: 'u' :: more)) (hsecond : Hex4 more low rest)
    (hhigh : isHigh high) (hlow : isLow low) (hc : c.toNat = joinPair high low)
    (hrest : rest ≠ []) :
    ∃ hshorter, readUnicode ('u' :: text) = .ok ⟨.scalar c, rest, hshorter⟩ := by
  obtain ⟨hshorter, hread⟩ := readHex4_of_hex4 hfirst (List.cons_ne_nil _ _)
  obtain ⟨hshorter', hread'⟩ := readHex4_of_hex4 hsecond hrest
  refine ⟨?_, ?_⟩
  · simp only [List.length_cons] at hshorter ⊢
    omega
  · rw [← ofNat_toNat c, hc]
    simp only [readUnicode, hread, if_pos hhigh, readLowEscape, hread', if_pos hlow, bind,
      Except.bind, Read.follow, Read.after]
    rfl

theorem Quoted.ne_nil {text s rest : List Char} (h : Quoted text s rest) : text ≠ [] := by
  cases h <;> exact List.cons_ne_nil _ _

theorem simpleEscape?_of_mem {letter c : Char} (h : (letter, c) ∈ namedEscapes) :
    letter ≠ 'u' ∧ simpleEscape? letter = some c := by
  have hall : ∀ e ∈ namedEscapes, e.1 ≠ 'u' ∧ simpleEscape? e.1 = some e.2 := by decide
  exact hall _ h

theorem readText_of_unicode {c : Char} {text more s rest : List Char} {opening : List Char}
    {hshorter hshorter'}
    (hunicode : readUnicode ('u' :: text) = .ok ⟨.scalar c, more, hshorter⟩)
    (hread : readText opening more = .ok ⟨s.map .scalar, rest, hshorter'⟩) :
    ∃ hshorter,
      readText opening ('\\' :: 'u' :: text) = .ok ⟨(c :: s).map .scalar, rest, hshorter⟩ := by
  refine ⟨Nat.lt_succ_of_lt (hshorter'.trans hshorter), ?_⟩
  rw [readText, hunicode]
  simp only [bind, Except.bind, hread]
  rfl

theorem readText_of_named {letter c : Char} {text s rest : List Char} {opening : List Char}
    {hshorter} (hmem : (letter, c) ∈ namedEscapes)
    (hread : readText opening text = .ok ⟨s.map .scalar, rest, hshorter⟩) :
    ∃ hshorter,
      readText opening ('\\' :: letter :: text) = .ok ⟨(c :: s).map .scalar, rest, hshorter⟩ := by
  obtain ⟨hne, hsimple⟩ := simpleEscape?_of_mem hmem
  refine ⟨Nat.lt_succ_of_lt (Nat.lt_succ_of_lt hshorter), ?_⟩
  rw [readText]
  · simp only [hsimple, bind, Except.bind, hread]
    rfl
  · exact hne

theorem readText_of_quoted {cs s rest : List Char} (opening : List Char) (h : Quoted cs s rest) :
    ∃ hshorter, readText opening cs = .ok ⟨s.map .scalar, rest, hshorter⟩ := by
  induction h with
  | close =>
    refine ⟨Nat.lt_succ_self _, ?_⟩
    rw [readText]
    rfl
  | escape hescape hquoted ih =>
    obtain ⟨hshorter, hread⟩ := ih
    cases hescape with
    | named hmem => exact readText_of_named hmem hread
    | unit h =>
      obtain ⟨_, hunicode⟩ := readUnicode_unit h hquoted.ne_nil
      exact readText_of_unicode hunicode hread
    | pair hfirst hsecond hlow hhigh hlow' hhigh' hc =>
      obtain ⟨_, hunicode⟩ := readUnicode_pair hfirst hsecond (isHigh_iff.mpr ⟨hlow, hhigh⟩)
        (isLow_iff.mpr ⟨hlow', hhigh'⟩) hc hquoted.ne_nil
      exact readText_of_unicode hunicode hread
  | char hc hquote hslash _ ih =>
    obtain ⟨hshorter, hread⟩ := ih
    refine ⟨Nat.lt_succ_of_lt hshorter, ?_⟩
    rw [readText]
    · simp only [if_neg (Nat.not_lt.mpr hc), bind, Except.bind, hread]
      rfl
    · exact hquote
    · intro h; exact absurd h hslash
    · intro _ h; exact absurd h hslash
    · intro _ _ h; exact absurd h hslash

end texts

section objects
variable {text rest : List Char} {rows : List (String × String)}

theorem skipSpace_of_space (h : Space text rest) (hrest : ∀ c ∈ rest.head?, ¬ isSpace c) :
    skipSpace text = rest := by
  obtain ⟨blanks, hblanks, rfl⟩ := h
  refine dropWhile_run (fun c hc => ?_) hrest
  obtain rfl | rfl | rfl | rfl := hblanks c hc <;> rfl

theorem skipSpace_of_sign {sign : Char} (h : Space text (sign :: rest)) (hsign : ¬ isSpace sign) :
    skipSpace text = sign :: rest := by
  refine skipSpace_of_space h fun c hc => ?_
  rw [← Option.some.inj hc]
  exact hsign

theorem readSign_of_space {sign : Char} (h : Space text (sign :: rest)) (hsign : ¬ isSpace sign) :
    ∃ hshorter, readSign sign text = some ⟨sign, rest, hshorter⟩ := by
  have hread : ∃ hshorter, readChar (· = sign) (skipSpace text) = some ⟨sign, rest, hshorter⟩ := by
    rw [skipSpace_of_sign h hsign]
    refine ⟨Nat.lt_succ_self _, ?_⟩
    simp only [readChar, decide_true, if_pos]
    rfl
  obtain ⟨hshorter, hread⟩ := hread
  refine ⟨Nat.lt_of_lt_of_le hshorter (length_skipSpace_le text), ?_⟩
  rw [readSign, hread]
  rfl

theorem readSign_of_other {sign other : Char} (h : Space text (other :: rest))
    (hother : ¬ isSpace other) (hne : other ≠ sign) : readSign sign text = none := by
  have hread : readChar (· = sign) (skipSpace text) = none := by
    rw [skipSpace_of_sign h hother]
    simp only [readChar, decide_eq_true_eq, if_neg hne]
  rw [readSign, hread]
  rfl

theorem readValue_of_quoted (room : Nat) {s : List Char} (h : Quoted text s rest) :
    ∃ hshorter, readValue room ('"' :: text) = .ok ⟨.text (s.map .scalar), rest, hshorter⟩ := by
  obtain ⟨hshorter, hread⟩ := readText_of_quoted ('"' :: text) h
  refine ⟨Nat.lt_succ_of_lt hshorter, ?_⟩
  rw [readValue, hread]
  rfl

def memberOf (row : String × String) : List CodePoint × Value :=
  (codePoints row.1, .text (codePoints row.2))

theorem Members.head (h : Members text rows rest) : ∃ more, text = '"' :: more := by
  cases h with
  | last hmember _ => cases hmember; exact ⟨_, rfl⟩
  | cons hmember _ _ _ => cases hmember; exact ⟨_, rfl⟩

theorem readMembers_of_member (room : Nat) {row : String × String} (h : Member text row rest) :
    ∃ hshorter, readMembers room text =
      match readSign '}' rest, readSign ',' rest with
      | some close, _ =>
        .ok (Read.follow (fun m _ => [m]) (⟨memberOf row, rest, hshorter⟩ : Read _ text) close)
      | none, some comma => do
        let more ← readMembers room (skipSpace comma.rest)
        return Read.follow List.cons (⟨memberOf row, rest, hshorter⟩ : Read _ text)
          (comma.follow (fun _ ms => ms) (more.past isSpace))
      | none, none => .error ⟨.comma, skipSpace rest⟩ := by
  cases h with
  | @mk text a b c _ key value hkey hcolon hspace hvalue =>
    obtain ⟨hshorter, hread⟩ := readText_of_quoted ('"' :: text) hkey
    obtain ⟨hcolon', hsign⟩ := readSign_of_space hcolon (by decide)
    have hread' : ∃ hshorter, readValue room (skipSpace b) =
        .ok ⟨.text (value.map .scalar), rest, hshorter⟩ := by
      rw [skipSpace_of_sign hspace (by decide)]
      exact readValue_of_quoted room hvalue
    obtain ⟨hvalue', hread'⟩ := hread'
    have hcodes (s : List Char) : s.map .scalar = codePoints (String.ofList s) := by
      rw [codePoints, String.toList_ofList]
    rw [hcodes] at hread hread'
    have hlength := length_skipSpace_le b
    refine ⟨Nat.lt_succ_of_lt (by omega), ?_⟩
    rw [readMembers, hread]
    simp only [bind, Except.bind, hsign, hread']
    cases readSign '}' rest <;> cases readSign ',' rest <;> rfl

theorem readMembers_of_members (room : Nat) (h : Members text rows rest) :
    ∃ hshorter, readMembers room text = .ok ⟨rows.map memberOf, rest, hshorter⟩ := by
  induction h with
  | last hmember hclose =>
    obtain ⟨hshorter, hread⟩ := readMembers_of_member room hmember
    obtain ⟨hshorter', hsign⟩ := readSign_of_space hclose (by decide)
    refine ⟨hshorter'.trans hshorter, ?_⟩
    rw [hread, hsign]
    rfl
  | @cons text a b c rest row rows hmember hcomma hspace hmembers ih =>
    obtain ⟨hshorter, hread⟩ := readMembers_of_member room hmember
    obtain ⟨hshorter', hsign⟩ := readSign_of_space hcomma (by decide)
    have hnone : readSign '}' a = none := readSign_of_other hcomma (by decide) (by decide)
    have hmore : ∃ hshorter, readMembers room (skipSpace b) =
        .ok ⟨rows.map memberOf, rest, hshorter⟩ := by
      obtain ⟨more, rfl⟩ := hmembers.head
      rw [skipSpace_of_sign hspace (by decide)]
      exact ih
    obtain ⟨hshorter'', hmore⟩ := hmore
    have hlength := length_skipSpace_le b
    refine ⟨by omega, ?_⟩
    rw [hread, hnone, hsign]
    simp only [bind, Except.bind, hmore]
    rfl

theorem readValue_of_object {room : Nat} (hroom : room ≠ 0) (h : Object text rows rest) :
    ∃ hshorter, readValue room text = .ok ⟨.object (rows.map memberOf), rest, hshorter⟩ := by
  cases h with
  | empty hclose =>
    obtain ⟨hshorter, hsign⟩ := readSign_of_space hclose (by decide)
    refine ⟨Nat.lt_succ_of_lt hshorter, ?_⟩
    rw [readValue, if_neg hroom, hsign]
    rfl
  | @filled text a _ _ hspace hmembers =>
    obtain ⟨more, rfl⟩ := hmembers.head
    have hnone : readSign '}' text = none := readSign_of_other hspace (by decide) (by decide)
    have hread : ∃ hshorter, readMembers (room - 1) (skipSpace text) =
        .ok ⟨rows.map memberOf, rest, hshorter⟩ := by
      rw [skipSpace_of_sign hspace (by decide)]
      exact readMembers_of_members (room - 1) hmembers
    obtain ⟨hshorter, hread⟩ := hread
    have hlength := length_skipSpace_le text
    refine ⟨Nat.lt_succ_of_lt (by omega), ?_⟩
    rw [readValue, if_neg hroom, hnone]
    simp only [bind, Except.bind, hread]
    rfl

theorem Object.head (h : Object text rows rest) : ∃ more, text = '{' :: more := by
  cases h with
  | empty _ => exact ⟨_, rfl⟩
  | filled _ _ => exact ⟨_, rfl⟩

theorem Document.begins (h : Document text rows) : ∃ blanks more, (∀ c ∈ blanks, IsBlank c) ∧
    text = blanks ++ '{' :: more := by
  obtain ⟨a, b, ⟨blanks, hblanks, rfl⟩, hobject, -⟩ := h
  obtain ⟨more, rfl⟩ := hobject.head
  exact ⟨blanks, more, hblanks, rfl⟩

theorem Document.head (h : Document text rows) : ∀ c ∈ text.head?, IsBlank c ∨ c = '{' := by
  obtain ⟨blanks, more, hblanks, rfl⟩ := h.begins
  intro c hc
  cases blanks with
  | nil => exact .inr (Option.some.inj hc).symm
  | cons blank blanks =>
    obtain rfl : blank = c := Option.some.inj hc
    exact .inl (hblanks blank List.mem_cons_self)

theorem parse_of_document (h : Document text rows) :
    parse text = .ok (.object (rows.map memberOf)) := by
  have hhead := h.head
  obtain ⟨a, b, hspace, hobject, hspace'⟩ := h
  have hread : ∃ hshorter, readValue Table.maxDepth (skipSpace text) =
      .ok ⟨.object (rows.map memberOf), b, hshorter⟩ := by
    obtain ⟨more, rfl⟩ := hobject.head
    rw [skipSpace_of_sign hspace (by decide)]
    exact readValue_of_object (by decide) hobject
  obtain ⟨hshorter, hread⟩ := hread
  unfold parse
  split
  · exact absurd (hhead _ rfl) (by decide)
  · simp only [bind, Except.bind, hread, skipSpace_of_space hspace' (by simp)]
    rfl

end objects

theorem codePoints_injective : Function.Injective codePoints := by
  intro s t h
  refine String.toList_inj.mp (List.map_injective_iff.mpr (fun c d hcd => ?_) h)
  exact CodePoint.scalar.inj hcd

theorem characters?_codePoints (s : String) : characters? (codePoints s) = some s := by
  have hread : (codePoints s).mapM CodePoint.char? = some s.toList := by
    rw [codePoints, mapM_eq_some_iff]
    exact List.forall₂_map_left_iff.mpr (List.forall₂_same.mpr fun _ _ => rfl)
  rw [characters?, hread, Option.map_some, String.ofList_toList]

theorem memberEntries_texts (table : List (String × String)) :
    memberEntries (table.map (Prod.map (fun key => Label.text (codePoints key))
      fun value => Item.text (codePoints value))) =
      .ok (table.map fun row => ⟨row.1, row.2⟩) := by
  induction table with
  | nil => rfl
  | cons row table ih =>
    rw [List.map_cons, Prod.map, memberEntries, Table.entryOf, characters?_codePoints,
      characters?_codePoints, ih]
    rfl

theorem entries_of_document {text : List Char} {rows : List (String × String)}
    (h : Document text rows) :
    ∃ value, parse text = .ok value ∧ value.content.entries = .ok (entries rows) := by
  refine ⟨_, parse_of_document h, ?_⟩
  have hinjective : Function.Injective fun key => Label.text (codePoints key) :=
    fun key k hk => codePoints_injective (Label.text.inj hk)
  have hmembers : (rows.map memberOf).map (fun m => (Label.text m.1, m.2.item)) =
      rows.map (Prod.map (fun key => Label.text (codePoints key))
        fun value => Item.text (codePoints value)) := by
    rw [List.map_map]
    rfl
  change memberEntries (assignAll ((rows.map memberOf).map _)) = _
  rw [hmembers, assignAll_map hinjective, memberEntries_texts]
  rfl
end LocaleAccessors.Json
