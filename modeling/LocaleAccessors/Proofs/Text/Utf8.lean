import LocaleAccessors.Proofs.Result
import LocaleAccessors.Text.Utf8
import Mathlib.Tactic.SplitIfs

/-!
What UTF-8 encodes it decodes again. A character has one to four bytes; the first tells how many there
are and how low and high the second may be.
-/

namespace LocaleAccessors.Text.Utf8

theorem decodeFrom_cons {offset code : Nat} {b : UInt8} {lead : Lead} {following rest : List UInt8}
    (hlead : lead? b.toNat = some lead)
    (htail : readTail lead.low lead.high lead.bits lead.following following = .complete code rest) :
    decodeFrom offset (b :: following) =
      (decodeFrom (offset + 1 + lead.following) rest).map (Char.ofNat code :: ·) := by
  rw [decodeFrom]
  simp only [hlead]
  split <;> simp_all

theorem toNat_byte {n : Nat} (h : n < 256) : (UInt8.ofNat n).toNat = n :=
  UInt8.toNat_ofNat_of_lt' h

theorem readTail_cons {low high code missing bits : Nat} {rest : List UInt8} (hbits : bits < 64)
    (hlow : low ≤ bits + 128) (hhigh : bits + 128 ≤ high) :
    readTail low high code (missing + 1) (UInt8.ofNat (bits + 128) :: rest) =
      readTail 0x80 0xBF (64 * code + bits) missing rest := by
  rw [readTail, toNat_byte (by omega), if_pos ⟨hlow, hhigh⟩, Nat.add_sub_cancel]

section leads
variable {bits : Nat}

theorem lead?_one (h : bits < 0x80) : lead? bits = some ⟨0, bits, 0x80, 0xBF⟩ :=
  if_pos h

theorem lead?_two (hlow : 2 ≤ bits) (hhigh : bits < 32) :
    lead? (bits + 192) = some ⟨1, bits, 0x80, 0xBF⟩ := by
  unfold lead?
  rw [if_neg (by omega), if_neg (by omega), if_pos (by omega), Nat.add_sub_cancel]

theorem lead?_three (h : bits < 16) :
    lead? (bits + 224) =
      some ⟨2, bits, if bits = 0 then 0xA0 else 0x80, if bits = 13 then 0x9F else 0xBF⟩ := by
  unfold lead?
  rw [if_neg (by omega), if_neg (by omega), if_neg (by omega), if_pos (by omega),
    Nat.add_sub_cancel]
  simp

theorem lead?_four (h : bits < 5) :
    lead? (bits + 240) =
      some ⟨3, bits, if bits = 0 then 0x90 else 0x80, if bits = 4 then 0x8F else 0xBF⟩ := by
  unfold lead?
  rw [if_neg (by omega), if_neg (by omega), if_neg (by omega), if_neg (by omega),
    if_pos (by omega), Nat.add_sub_cancel]
  simp

end leads

section lengths
variable {n : Nat} (offset : Nat) (rest : List UInt8)

theorem decodeFrom_one (h : n < 0x80) :
    decodeFrom offset (UInt8.ofNat n :: rest) =
      (decodeFrom (offset + 1) rest).map (Char.ofNat n :: ·) := by
  have hlead : lead? (UInt8.ofNat n).toNat = some ⟨0, n, 0x80, 0xBF⟩ := by
    rw [toNat_byte (by omega), lead?_one h]
  exact decodeFrom_cons hlead rfl

theorem decodeFrom_two (hlow : 0x80 ≤ n) (hhigh : n < 0x800) :
    decodeFrom offset (UInt8.ofNat (n / 64 % 32 + 192) :: UInt8.ofNat (n % 64 + 128) :: rest) =
      (decodeFrom (offset + 2) rest).map (Char.ofNat n :: ·) := by
  have hlead : lead? (UInt8.ofNat (n / 64 % 32 + 192)).toNat =
      some ⟨1, n / 64 % 32, 0x80, 0xBF⟩ := by
    rw [toNat_byte (by omega), lead?_two (by omega) (by omega)]
  have hcode : 64 * (n / 64 % 32) + n % 64 = n := by omega
  refine decodeFrom_cons hlead ?_
  dsimp only
  rw [readTail_cons (by omega) (by omega) (by omega), hcode]
  rfl

/-- After `0xE0` the second byte is at least `0xA0`, or the form would be overlong; after `0xED` it is at
most `0x9F`, or the character would be a surrogate. -/
theorem decodeFrom_three (hlow : 0x800 ≤ n) (hhigh : n < 0x10000)
    (hvalid : n < 0xD800 ∨ 0xDFFF < n) :
    decodeFrom offset (UInt8.ofNat (n / 4096 % 16 + 224) :: UInt8.ofNat (n / 64 % 64 + 128) ::
        UInt8.ofNat (n % 64 + 128) :: rest) =
      (decodeFrom (offset + 3) rest).map (Char.ofNat n :: ·) := by
  have hlead : lead? (UInt8.ofNat (n / 4096 % 16 + 224)).toNat = some ⟨2, n / 4096 % 16,
      if n / 4096 % 16 = 0 then 0xA0 else 0x80, if n / 4096 % 16 = 13 then 0x9F else 0xBF⟩ := by
    rw [toNat_byte (by omega), lead?_three (by omega)]
  have hcode : 64 * (64 * (n / 4096 % 16) + n / 64 % 64) + n % 64 = n := by omega
  refine decodeFrom_cons hlead ?_
  dsimp only
  rw [readTail_cons (by omega) (by split_ifs <;> omega) (by split_ifs <;> omega),
    readTail_cons (by omega) (by omega) (by omega), hcode]
  rfl

theorem decodeFrom_four (hlow : 0x10000 ≤ n) (hhigh : n < 0x110000) :
    decodeFrom offset (UInt8.ofNat (n / 262144 % 8 + 240) :: UInt8.ofNat (n / 4096 % 64 + 128) ::
        UInt8.ofNat (n / 64 % 64 + 128) :: UInt8.ofNat (n % 64 + 128) :: rest) =
      (decodeFrom (offset + 4) rest).map (Char.ofNat n :: ·) := by
  have hlead : lead? (UInt8.ofNat (n / 262144 % 8 + 240)).toNat = some ⟨3, n / 262144 % 8,
      if n / 262144 % 8 = 0 then 0x90 else 0x80, if n / 262144 % 8 = 4 then 0x8F else 0xBF⟩ := by
    rw [toNat_byte (by omega), lead?_four (by omega)]
  have hcode : 64 * (64 * (64 * (n / 262144 % 8) + n / 4096 % 64) + n / 64 % 64) + n % 64 = n := by
    omega
  refine decodeFrom_cons hlead ?_
  dsimp only
  rw [readTail_cons (by omega) (by split_ifs <;> omega) (by split_ifs <;> omega),
    readTail_cons (by omega) (by omega) (by omega), readTail_cons (by omega) (by omega) (by omega),
    hcode]
  rfl

end lengths

theorem decodeFrom_char (offset : Nat) (c : Char) (rest : List UInt8) :
    ∃ next, decodeFrom offset (String.utf8EncodeChar c ++ rest) =
      (decodeFrom next rest).map (c :: ·) := by
  have hvalid : c.val.toNat < 0xD800 ∨ 0xDFFF < c.val.toNat ∧ c.val.toNat < 0x110000 := c.valid
  have hchar : Char.ofNat c.val.toNat = c := Char.ofNat_toNat c
  unfold String.utf8EncodeChar
  dsimp only
  split_ifs with hone htwo hthree
  · exact ⟨_, hchar ▸ decodeFrom_one (n := c.val.toNat) offset rest (by omega)⟩
  · exact ⟨_, hchar ▸ decodeFrom_two (n := c.val.toNat) offset rest (by omega) (by omega)⟩
  · exact ⟨_, hchar ▸ decodeFrom_three (n := c.val.toNat) offset rest (by omega) (by omega)
      (by omega)⟩
  · exact ⟨_, hchar ▸ decodeFrom_four (n := c.val.toNat) offset rest (by omega) (by omega)⟩

theorem decodeFrom_append (offset : Nat) (cs : List Char) (rest : List UInt8) :
    ∃ next, decodeFrom offset (cs.flatMap String.utf8EncodeChar ++ rest) =
      (decodeFrom next rest).map (cs ++ ·) := by
  induction cs generalizing offset with
  | nil =>
    refine ⟨offset, ?_⟩
    rw [List.flatMap_nil, List.nil_append]
    cases decodeFrom offset rest <;> rfl
  | cons c cs ih =>
    obtain ⟨middle, hchar⟩ :=
      decodeFrom_char offset c (cs.flatMap String.utf8EncodeChar ++ rest)
    obtain ⟨next, htail⟩ := ih middle
    refine ⟨next, ?_⟩
    rw [List.flatMap_cons, List.append_assoc, hchar, htail]
    cases decodeFrom next rest <;> rfl

theorem decodeFrom_encode (offset : Nat) (cs : List Char) :
    decodeFrom offset (cs.flatMap String.utf8EncodeChar) = .ok cs := by
  obtain ⟨next, h⟩ := decodeFrom_append offset cs []
  rw [List.append_nil] at h
  rw [h, decodeFrom, Except.map, List.append_nil]

theorem decode_encode (s : String) : decode (encode s) = .ok s.toList :=
  decodeFrom_encode 0 s.toList

theorem encode_injective {s t : String} (h : encode s = encode t) : s = t := by
  have hchars := congrArg decode h
  rw [decode_encode, decode_encode] at hchars
  exact String.toList_inj.mp (Except.ok.inj hchars)

/-- The bytes of a text start with the bytes of some characters only where the text starts with
these characters. -/
theorem isPrefix_of_encode {cs : List Char} {s : String}
    (h : cs.flatMap String.utf8EncodeChar <+: encode s) : cs <+: s.toList := by
  obtain ⟨rest, hrest⟩ := h
  have hdecode := decode_encode s
  obtain ⟨next, happend⟩ := decodeFrom_append 0 cs rest
  rw [← hrest, decode, happend, map_eq_ok_iff] at hdecode
  obtain ⟨more, -, hmore⟩ := hdecode
  exact ⟨more, hmore⟩

theorem lt_of_head_encode (s : String) : ∀ b ∈ (encode s).head?, b.toNat < 0xF5 := by
  intro b hb
  obtain ⟨rest, hrest⟩ := List.head?_eq_some_iff.mp hb
  have hdecode := decode_encode s
  rw [hrest, decode, decodeFrom] at hdecode
  by_contra hnot
  have hlead : lead? b.toNat = none := by
    unfold lead?
    rw [if_neg (by omega), if_neg (by omega), if_neg (by omega), if_neg (by omega),
      if_neg (by omega)]
  rw [hlead] at hdecode
  cases hdecode

end LocaleAccessors.Text.Utf8
