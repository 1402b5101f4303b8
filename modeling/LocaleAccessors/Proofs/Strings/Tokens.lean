import LocaleAccessors.Proofs.Result
import LocaleAccessors.Proofs.Strings.Trivia
import LocaleAccessors.Proofs.Text.Utf16

/-!
The readers of escapes and string tokens accept what the grammar has, with the same meaning.
-/

namespace LocaleAccessors.Strings
open Text (hexValue? octalValue? numeralValue HexDigit OctalDigit mapM_hexValue?_eq_some_iff
  octalValue?_eq_some_iff octalValue?_eq_none_iff numeralValue_lt toNat_ofNat_of_valid
  takeWhile_run dropWhile_run not_of_head?_dropWhile)
open Text.Utf16 (isHigh isLow joinPair isHigh_iff isLow_iff joinPair_valid
  not_surrogate_toNat)

theorem Hex4.lt {text rest : List Char} {n : Nat} (h : Hex4 text n rest) : n < 0x10000 := by
  obtain ⟨digits, values, hd, hlen, rfl, -⟩ := h
  have hv : ∀ v ∈ values, v < 16 := ((List.forall₂_and_left _ _).mp hd.flip).1
  have hlt := numeralValue_lt hv
  rwa [← hd.length_eq, hlen] at hlt

theorem readHex4_eq_ok_iff {marker : Char} {text rest : List Char} {n : Nat} :
    readHex4 marker text = .ok (n, rest) ↔ Hex4 text n rest := by
  constructor
  · intro h
    unfold readHex4 at h
    split at h
    · rename_i a b c d more
      split at h
      · rename_i values hv
        cases h
        exact ⟨[a, b, c, d], values, mapM_hexValue?_eq_some_iff.mp hv, rfl, rfl, rfl⟩
      · cases h
    · cases h
  · rintro ⟨digits, values, hd, hlen, rfl, rfl⟩
    obtain ⟨a, b, c, d, rfl⟩ := List.length_eq_four.mp hlen
    simp only [readHex4, List.cons_append, List.nil_append, mapM_hexValue?_eq_some_iff.mpr hd]

theorem escape_of_readUnicode {marker c : Char} {text rest : List Char} (hm : IsMarker marker)
    (h : readUnicode marker text = .ok (c, rest)) : Escape (marker :: text) c rest := by
  unfold readUnicode at h
  obtain ⟨⟨code, more⟩, hcode, h⟩ := bind_eq_ok_iff.mp h
  have hcode := readHex4_eq_ok_iff.mp hcode
  have hlt := hcode.lt
  dsimp only at h
  split_ifs at h with hlow hhigh
  · split at h
    · rename_i second after
      split_ifs at h with hs
      obtain ⟨⟨low, last⟩, hl, h⟩ := bind_eq_ok_iff.mp h
      have hl := readHex4_eq_ok_iff.mp hl
      dsimp only at h
      split_ifs at h with hlow'
      simp only [Except.ok.injEq, Prod.mk.injEq] at h
      obtain ⟨rfl, rfl⟩ := h
      have hh := isHigh_iff.mp hhigh
      have hl' := isLow_iff.mp hlow'
      refine Escape.pair hm hcode hs hl hh.1 hh.2 hl'.1 hl'.2 ?_
      exact toNat_ofNat_of_valid (joinPair_valid hhigh hlow')
    · cases h
  · cases h
    have hvalid : code.isValidChar := by
      rw [isHigh_iff] at hhigh
      rw [isLow_iff] at hlow
      unfold Nat.isValidChar
      omega
    refine .unit hm ?_
    rwa [toNat_ofNat_of_valid hvalid]

theorem readUnicode_unit {marker c : Char} {text rest : List Char}
    (h : Hex4 text c.toNat rest) : readUnicode marker text = .ok (c, rest) := by
  unfold readUnicode
  rw [readHex4_eq_ok_iff.mpr h]
  simp [bind, Except.bind, not_surrogate_toNat c]

theorem readUnicode_pair {first second c : Char} {text more rest : List Char} {high low : Nat}
    (h : Hex4 text high ('\\' :: second :: more)) (hs : IsMarker second) (hl : Hex4 more low rest)
    (hhigh : isHigh high) (hlow : isLow low) (hc : c.toNat = joinPair high low) :
    readUnicode first text = .ok (c, rest) := by
  have hnot : ¬ isLow high := by
    rw [isHigh_iff] at hhigh
    rw [isLow_iff]
    omega
  have hm : second = 'U' ∨ second = 'u' := hs
  unfold readUnicode
  rw [readHex4_eq_ok_iff.mpr h]
  simp [bind, Except.bind, hnot, hhigh, hm, readHex4_eq_ok_iff.mpr hl, hlow, ← hc]

theorem readOctal_eq {limit : Nat} {digits rest : List Char} {values : List Nat}
    (h : List.Forall₂ OctalDigit digits values) (hlen : digits.length ≤ limit)
    (hrest : digits.length < limit → ∀ d ∈ rest.head?, ∀ v, ¬ OctalDigit d v) :
    readOctal limit (digits ++ rest) = (values, rest) := by
  induction h generalizing limit with
  | nil =>
    cases limit with
    | zero => rfl
    | succ limit =>
      cases rest with
      | nil => rfl
      | cons d rest =>
        have hd := octalValue?_eq_none_iff.mpr (hrest (Nat.succ_pos _) d rfl)
        simp [readOctal, hd]
  | @cons d v digits values hd _ ih =>
    cases limit with
    | zero => simp at hlen
    | succ limit =>
      simp only [List.length_cons, Nat.add_le_add_iff_right, Nat.add_lt_add_iff_right] at hlen hrest
      simp [readOctal, octalValue?_eq_some_iff.mpr hd, ih hlen hrest]

theorem octal_of_readOctal (limit : Nat) (text : List Char) :
    ∃ digits, List.Forall₂ OctalDigit digits (readOctal limit text).1 ∧ digits.length ≤ limit ∧
      (digits.length < limit → ∀ d ∈ (readOctal limit text).2.head?, ∀ v, ¬ OctalDigit d v) ∧
      text = digits ++ (readOctal limit text).2 := by
  induction limit generalizing text with
  | zero => exact ⟨[], .nil, Nat.le_refl _, nofun, rfl⟩
  | succ limit ih =>
    cases text with
    | nil => exact ⟨[], .nil, Nat.zero_le _, nofun, rfl⟩
    | cons c text =>
      cases hc : octalValue? c with
      | none =>
        refine ⟨[], ?_, Nat.zero_le _, ?_, ?_⟩
        · simp [readOctal, hc]
        · simpa [readOctal, hc] using octalValue?_eq_none_iff.mp hc
        · simp [readOctal, hc]
      | some v =>
        obtain ⟨digits, hd, hlen, hrest, htext⟩ := ih text
        refine ⟨c :: digits, ?_, ?_, ?_, ?_⟩
        · simpa [readOctal, hc] using ⟨octalValue?_eq_some_iff.mp hc, hd⟩
        · simpa using hlen
        · simpa [readOctal, hc] using hrest
        · simpa [readOctal, hc] using htext

theorem simpleEscape?_eq_some_iff {letter c : Char} :
    simpleEscape? letter = some c ↔ (letter, c) ∈ namedEscapes := by
  constructor
  · intro h
    unfold simpleEscape? at h
    split at h <;> cases h <;> decide
  · intro h
    simp only [namedEscapes, List.mem_cons, Prod.mk.injEq, List.not_mem_nil, or_false] at h
    rcases h with h | h | h | h | h | h | h | h | h | h <;> obtain ⟨rfl, rfl⟩ := h <;> rfl

theorem simpleEscape?_marker {c : Char} (h : IsMarker c) : simpleEscape? c = none := by
  rcases h with rfl | rfl <;> rfl

theorem not_named_of_octalDigit {c : Char} {d : Nat} (h : OctalDigit c d) :
    simpleEscape? c = none ∧ ¬ IsMarker c := by
  obtain ⟨hd, rfl⟩ := h
  unfold IsMarker
  interval_cases d <;> decide

theorem octal_valid {digits : List Char} {values : List Nat}
    (h : List.Forall₂ OctalDigit digits values) (hlen : digits.length ≤ 3) :
    (numeralValue 8 values).isValidChar := by
  have hv : ∀ v ∈ values, v < 8 := ((List.forall₂_and_left _ _).mp h.flip).1
  have hlt := numeralValue_lt hv
  have hpow : 8 ^ values.length ≤ 8 ^ 3 := Nat.pow_le_pow_right (by decide) (h.length_eq ▸ hlen)
  exact .inl (by omega)

theorem escape_of_readEscape {c : Char} {text rest : List Char}
    (h : readEscape text = .ok (c, rest)) : Escape text c rest := by
  unfold readEscape at h
  split at h
  · cases h
  rename_i letter more
  split at h
  · rename_i e he
    cases h
    exact .named (simpleEscape?_eq_some_iff.mp he)
  rename_i hnamed
  split_ifs at h with hm
  · exact escape_of_readUnicode hm h
  obtain ⟨digits, hd, hlen, hrest, htext⟩ := octal_of_readOctal 3 (letter :: more)
  split at h
  · rename_i hoct
    cases h
    rw [hoct] at hd hrest htext
    cases hd
    cases htext
    refine .itself ?_ hm (hrest (by decide) _ rfl)
    simp [← simpleEscape?_eq_some_iff, hnamed]
  · rename_i values after hne hoct
    rw [hoct] at hd hrest htext
    simp only [Except.ok.injEq, Prod.mk.injEq] at h
    obtain ⟨rfl, rfl⟩ := h
    rw [htext]
    refine .octal hd ?_ hlen hrest (toNat_ofNat_of_valid (octal_valid hd hlen))
    rintro rfl
    cases hd
    exact hne rfl

theorem readEscape_of_escape {c : Char} {text rest : List Char} (h : Escape text c rest) :
    readEscape text = .ok (c, rest) := by
  cases h with
  | named hn => simp [readEscape, simpleEscape?_eq_some_iff.mpr hn]
  | @unit marker _ text rest hm hx =>
    have hm' : marker = 'U' ∨ marker = 'u' := hm
    simp [readEscape, simpleEscape?_marker hm, hm', readUnicode_unit hx]
  | @pair first second _ text more rest high low hm hx hm' hx' h1 h2 h3 h4 hc =>
    have hf : first = 'U' ∨ first = 'u' := hm
    simp [readEscape, simpleEscape?_marker hm, hf,
      readUnicode_pair hx hm' hx' (isHigh_iff.mpr ⟨h1, h2⟩) (isLow_iff.mpr ⟨h3, h4⟩) hc]
  | @octal _ digits rest values hd hne hlen hrest hc =>
    cases hd with
    | nil => exact absurd rfl hne
    | @cons d v digits values hd hds =>
      have hm : ¬ (d = 'U' ∨ d = 'u') := (not_named_of_octalDigit hd).2
      have hread := readOctal_eq (.cons hd hds) hlen hrest
      rw [List.cons_append] at hread
      simp [readEscape, (not_named_of_octalDigit hd).1, hm, hread, ← hc]
  | @itself _ rest hn hm ho =>
    have hnamed : simpleEscape? c = none := by
      rw [Option.eq_none_iff_forall_ne_some]
      exact fun e he => hn e (simpleEscape?_eq_some_iff.mp he)
    have hm' : ¬ (c = 'U' ∨ c = 'u') := hm
    have hread : readOctal 3 (c :: rest) = ([], c :: rest) := by
      refine readOctal_eq .nil (Nat.zero_le _) fun _ d hd => ?_
      cases hd
      exact ho
    simp [readEscape, hnamed, hm', hread]

theorem readEscape_eq_ok_iff {c : Char} {text rest : List Char} :
    readEscape text = .ok (c, rest) ↔ Escape text c rest :=
  ⟨escape_of_readEscape, readEscape_of_escape⟩

theorem quoted_of_readQuoted {opening text s rest : List Char}
    (h : readQuoted opening text = .ok (s, rest)) : Quoted text s rest := by
  fun_induction readQuoted opening text generalizing s rest with
  | case1 => cases h
  | case2 more =>
    cases h
    exact .close
  | case3 => cases h
  | case4 body c more hr _ ih =>
    obtain ⟨⟨t, last⟩, ht, h⟩ := bind_eq_ok_iff.mp h
    cases h
    exact .escape (readEscape_eq_ok_iff.mp hr) (ih ht)
  | case5 c more hquote hslash ih =>
    obtain ⟨⟨t, last⟩, ht, h⟩ := bind_eq_ok_iff.mp h
    cases h
    exact .char hquote hslash (ih ht)

theorem readQuoted_of_quoted {opening text s rest : List Char} (h : Quoted text s rest) :
    readQuoted opening text = .ok (s, rest) := by
  induction h with
  | close => rw [readQuoted]
  | escape he _ ih =>
    rw [readQuoted]
    split
    · rename_i hr
      rw [readEscape_of_escape he] at hr
      cases hr
    · rename_i hr
      rw [readEscape_of_escape he] at hr
      cases hr
      simp [ih, bind, Except.bind, pure, Except.pure]
  | char hquote hslash _ ih =>
    rw [readQuoted]
    · simp [ih, bind, Except.bind, pure, Except.pure]
    · exact hquote
    · exact hslash

theorem readQuoted_eq_ok_iff {opening text s rest : List Char} :
    readQuoted opening text = .ok (s, rest) ↔ Quoted text s rest :=
  ⟨quoted_of_readQuoted, readQuoted_of_quoted⟩

theorem readString_eq_ok_iff {text s rest : List Char} :
    readString text = .ok (s, rest) ↔ Token text s rest := by
  constructor
  · intro h
    unfold readString at h
    split at h
    · exact .quoted (readQuoted_eq_ok_iff.mp h)
    · rename_i c more _
      split_ifs at h with hc
      cases h
      have hrun : ∀ d ∈ c :: more.takeWhile isPlain, isPlain d := by
        rintro d (_ | ⟨_, hd⟩)
        · exact hc
        · exact List.mem_takeWhile_imp hd
      have ht := Token.plain (List.cons_ne_nil _ _) hrun (not_of_head?_dropWhile more)
      rwa [List.cons_append, List.takeWhile_append_dropWhile] at ht
    · cases h
  · rintro (@⟨_, _, _, hq⟩ | @⟨s, rest, hne, hs, hrest⟩)
    · rw [readString, readQuoted_eq_ok_iff]
      exact hq
    · obtain ⟨c, t, rfl⟩ := List.exists_cons_of_ne_nil hne
      have hc : isPlain c := hs c (by simp)
      have ht : ∀ d ∈ t, isPlain d := fun d hd => hs d (List.mem_cons_of_mem c hd)
      have hq : c ≠ '"' := by rintro rfl; exact absurd hc (by decide)
      rw [List.cons_append, readString, if_pos hc, takeWhile_run ht hrest, dropWhile_run ht hrest]
      exact hq

end LocaleAccessors.Strings
