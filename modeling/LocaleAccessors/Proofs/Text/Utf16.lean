import LocaleAccessors.Text.Utf16
import LocaleAccessors.Proofs.Text.Digit
import LocaleAccessors.Proofs.Text.Utf8

/-!
UTF-16 as it is written, in both byte orders, and that it decodes again to what was written.
-/

namespace LocaleAccessors.Text.Utf16

/-- The units of a character: its own number, or a high and a low surrogate. -/
def units (c : Char) : List Nat :=
  if c.toNat < 0x10000 then [c.toNat]
  else [0xD800 + (c.toNat - 0x10000) / 0x400, 0xDC00 + (c.toNat - 0x10000) % 0x400]

def ByteOrder.bytes : ByteOrder → Nat → List UInt8
  | .little, n => [UInt8.ofNat (n % 256), UInt8.ofNat (n / 256)]
  | .big, n => [UInt8.ofNat (n / 256), UInt8.ofNat (n % 256)]

def encode (order : ByteOrder) (s : String) : List UInt8 :=
  s.toList.flatMap fun c => (units c).flatMap order.bytes

theorem isHigh_iff {n : Nat} : isHigh n = true ↔ 0xD800 ≤ n ∧ n < 0xDC00 := by
  simp [isHigh]

theorem isLow_iff {n : Nat} : isLow n = true ↔ 0xDC00 ≤ n ∧ n < 0xE000 := by
  simp [isLow]

theorem not_surrogate_toNat (c : Char) : ¬ isLow c.toNat ∧ ¬ isHigh c.toNat := by
  have hvalid : c.toNat.isValidChar := c.valid
  unfold Nat.isValidChar at hvalid
  rw [isLow_iff, isHigh_iff]
  omega

theorem joinPair_valid {high low : Nat} (hh : isHigh high) (hl : isLow low) :
    (joinPair high low).isValidChar := by
  rw [isHigh_iff] at hh
  rw [isLow_iff] at hl
  unfold joinPair
  exact .inr ⟨by omega, by omega⟩

theorem bytes_eq (order : ByteOrder) {n : Nat} (h : n < 0x10000) :
    ∃ a b, order.bytes n = [a, b] ∧ order.unit a b = n := by
  have hlow : (UInt8.ofNat (n % 256)).toNat = n % 256 := Utf8.toNat_byte (by omega)
  have hhigh : (UInt8.ofNat (n / 256)).toNat = n / 256 := Utf8.toNat_byte (by omega)
  cases order with
  | little =>
    refine ⟨_, _, rfl, ?_⟩
    rw [ByteOrder.unit, hlow, hhigh]
    omega
  | big =>
    refine ⟨_, _, rfl, ?_⟩
    rw [ByteOrder.unit, hlow, hhigh]
    omega

theorem decode_single (order : ByteOrder) {n : Nat} (h : n < 0x10000)
    (hvalid : n < 0xD800 ∨ 0xDFFF < n) (rest : List UInt8) :
    decode order (order.bytes n ++ rest) = (decode order rest).map (Char.ofNat n :: ·) := by
  obtain ⟨a, b, hbytes, hunit⟩ := bytes_eq order h
  have hlow : ¬ isLow n := by rw [isLow_iff]; omega
  have hhigh : ¬ isHigh n := by rw [isHigh_iff]; omega
  rw [hbytes, List.cons_append, List.cons_append, List.nil_append, decode.eq_def]
  simp only [hunit, if_neg hlow, if_neg hhigh]

theorem decode_pair (order : ByteOrder) {high low : Nat} (hhigh : isHigh high) (hlow : isLow low)
    (rest : List UInt8) :
    decode order (order.bytes high ++ (order.bytes low ++ rest)) =
      (decode order rest).map (Char.ofNat (joinPair high low) :: ·) := by
  have hbounds := isHigh_iff.mp hhigh
  have hother := isLow_iff.mp hlow
  have hnot : ¬ isLow high := by rw [isLow_iff]; omega
  obtain ⟨a, b, hbytes, hunit⟩ := bytes_eq order (n := high) (by omega)
  obtain ⟨c, d, hmore, hsecond⟩ := bytes_eq order (n := low) (by omega)
  rw [hbytes, hmore, decode.eq_def]
  simp only [List.cons_append, List.nil_append, hunit, hsecond, if_neg hnot, if_pos hhigh,
    if_pos hlow]

theorem decode_char (order : ByteOrder) (c : Char) (rest : List UInt8) :
    decode order ((units c).flatMap order.bytes ++ rest) = (decode order rest).map (c :: ·) := by
  have hvalid : c.toNat < 0xD800 ∨ 0xDFFF < c.toNat ∧ c.toNat < 0x110000 := c.valid
  have hchar : Char.ofNat c.toNat = c := Char.ofNat_toNat c
  unfold units
  split_ifs with hone
  · rw [List.flatMap_singleton, decode_single order hone (by omega), hchar]
  · have hhigh : isHigh (0xD800 + (c.toNat - 0x10000) / 0x400) := by rw [isHigh_iff]; omega
    have hlow : isLow (0xDC00 + (c.toNat - 0x10000) % 0x400) := by rw [isLow_iff]; omega
    have hjoin : joinPair (0xD800 + (c.toNat - 0x10000) / 0x400)
        (0xDC00 + (c.toNat - 0x10000) % 0x400) = c.toNat := by
      unfold joinPair
      omega
    rw [List.flatMap_cons, List.flatMap_singleton, List.append_assoc, decode_pair order hhigh hlow,
      hjoin, hchar]

theorem decode_encode (order : ByteOrder) (s : String) :
    decode order (encode order s) = .ok s.toList := by
  rw [encode]
  induction s.toList with
  | nil => rfl
  | cons c cs ih =>
    rw [List.flatMap_cons, decode_char, ih]
    rfl

end LocaleAccessors.Text.Utf16
