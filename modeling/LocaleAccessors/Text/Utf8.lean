/-!
UTF-8. Encoding is total; decoding names the first bytes that are not part of a character, with the
reason: a byte that starts no character, a byte that does not continue the one begun, or an end
inside a character. Overlong forms, surrogates and code points above U+10FFFF are refused.
-/

namespace LocaleAccessors.Text.Utf8

def encode (s : String) : List UInt8 :=
  s.toList.flatMap String.utf8EncodeChar

inductive Reason where
  | invalidStart
  | invalidContinuation
  | unexpectedEnd
  deriving DecidableEq

def Reason.text : Reason → String
  | .invalidStart => "invalid start byte"
  | .invalidContinuation => "invalid continuation byte"
  | .unexpectedEnd => "unexpected end of data"

structure Fault where
  reason : Reason
  offset : Nat
  bytes : List UInt8
  deriving DecidableEq

/-- What a first byte says: how many bytes follow, the bits it holds, and the bounds of the second
byte, which keep out overlong forms and surrogates. -/
structure Lead where
  following : Nat
  bits : Nat
  low : Nat
  high : Nat

def lead? (n : Nat) : Option Lead :=
  if n < 0x80 then some ⟨0, n, 0x80, 0xBF⟩
  else if n < 0xC2 then none
  else if n < 0xE0 then some ⟨1, n - 0xC0, 0x80, 0xBF⟩
  else if n < 0xF0 then
    some ⟨2, n - 0xE0, if n = 0xE0 then 0xA0 else 0x80, if n = 0xED then 0x9F else 0xBF⟩
  else if n < 0xF5 then
    some ⟨3, n - 0xF0, if n = 0xF0 then 0x90 else 0x80, if n = 0xF4 then 0x8F else 0xBF⟩
  else none

/-- The end of a character: complete, or refused with so many bytes still to come. -/
inductive Tail where
  | complete (code : Nat) (rest : List UInt8)
  | invalid (missing : Nat)
  | cut

def readTail (low high code : Nat) : Nat → List UInt8 → Tail
  | 0, bytes => .complete code bytes
  | _ + 1, [] => .cut
  | missing + 1, b :: bytes =>
    if low ≤ b.toNat ∧ b.toNat ≤ high then
      readTail 0x80 0xBF (64 * code + (b.toNat - 0x80)) missing bytes
    else .invalid (missing + 1)

theorem length_of_readTail {low high code code' missing : Nat} {bytes rest : List UInt8}
    (h : readTail low high code missing bytes = .complete code' rest) :
    rest.length ≤ bytes.length := by
  induction missing generalizing low high code bytes with
  | zero => simp only [readTail, Tail.complete.injEq] at h; simp [h.2]
  | succ missing ih =>
    cases bytes with
    | nil => simp [readTail] at h
    | cons b bytes =>
      simp only [readTail] at h
      split at h
      · exact Nat.le_succ_of_le (ih h)
      · cases h

def decodeFrom (offset : Nat) (bytes : List UInt8) : Except Fault (List Char) :=
  match bytes with
  | [] => .ok []
  | b :: following =>
    match lead? b.toNat with
    | none => .error ⟨.invalidStart, offset, [b]⟩
    | some lead =>
      match h : readTail lead.low lead.high lead.bits lead.following following with
      | .cut => .error ⟨.unexpectedEnd, offset, b :: following⟩
      | .invalid missing =>
        .error ⟨.invalidContinuation, offset,
          (b :: following).take (1 + lead.following - missing)⟩
      | .complete code rest =>
        (decodeFrom (offset + 1 + lead.following) rest).map (Char.ofNat code :: ·)
termination_by bytes.length
decreasing_by simpa using Nat.lt_succ_of_le (length_of_readTail h)

def decode (bytes : List UInt8) : Except Fault (List Char) :=
  decodeFrom 0 bytes

def withoutMark : List UInt8 → List UInt8
  | 0xEF :: 0xBB :: 0xBF :: rest => rest
  | bytes => bytes

end LocaleAccessors.Text.Utf8
