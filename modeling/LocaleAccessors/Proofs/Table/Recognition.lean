import LocaleAccessors.Proofs.Text.Run
import LocaleAccessors.Proofs.Text.Utf8
import LocaleAccessors.Table.Load

/-!
What the bytes of a text show of its format and of its encoding. A text is taken for a property list
only if it starts with the letters of a binary one or, behind blanks, with a tag.
-/

namespace LocaleAccessors.Table
open Text (isBlank dropWhile_run)
open Text.Utf8 (encode decode decode_encode withoutMark isPrefix_of_encode lt_of_head_encode)

theorem startsWith_eq_false {bytes : List UInt8} {word : String} {first : UInt8}
    (hword : (encode word).head? = some first) (h : first ∉ bytes.head?) :
    startsWith bytes word = false := by
  obtain ⟨rest, hrest⟩ := List.head?_eq_some_iff.mp hword
  cases bytes with
  | nil => rw [startsWith, hrest]; rfl
  | cons b bytes =>
    have hne : first ≠ b := fun heq => h (congrArg some heq.symm)
    rw [startsWith, hrest, List.isPrefixOf_cons_cons, beq_false_of_ne hne, Bool.false_and]

theorem formatOf_eq (suffix : String) {bytes : List UInt8}
    (hbinary : startsWith bytes "bplist" = false)
    (htag : 0x3C ∉ (bytes.dropWhile isBlankByte).head?) :
    formatOf suffix bytes =
      if suffix.toList.map Char.toLower = ".json".toList then .json else .strings := by
  have hxml : ["<?xml", "<plist", "<!DOCTYPE"].any (startsWith (bytes.dropWhile isBlankByte)) =
      false := by
    simp only [List.any_cons, List.any_nil, Bool.or_false]
    rw [startsWith_eq_false rfl htag, startsWith_eq_false rfl htag, startsWith_eq_false rfl htag]
    rfl
  unfold formatOf
  simp only [hbinary, hxml, Bool.false_eq_true, if_false]

theorem formatOf_of_head (suffix : String) {bytes : List UInt8}
    (hhead : ∀ b ∈ bytes.head?, isBlankByte b = false ∧ b ≠ 0x62 ∧ b ≠ 0x3C) :
    formatOf suffix bytes =
      if suffix.toList.map Char.toLower = ".json".toList then .json else .strings := by
  have hstripped : bytes.dropWhile isBlankByte = bytes := by
    cases bytes with
    | nil => rfl
    | cons b bytes => exact List.dropWhile_cons_of_neg (by simp [(hhead b rfl).1])
  refine formatOf_eq suffix (startsWith_eq_false rfl fun h => (hhead _ h).2.1 rfl) ?_
  rw [hstripped]
  exact fun h => (hhead _ h).2.2 rfl

section texts
variable {s : String}

theorem exists_blank_of_isBlankByte {b : UInt8} (h : isBlankByte b) :
    ∃ c, isBlank c ∧ String.utf8EncodeChar c = [b] := by
  simp only [isBlankByte, decide_eq_true_eq, List.mem_cons, List.not_mem_nil, or_false] at h
  obtain rfl | rfl | rfl | rfl | rfl | rfl := h
  · exact ⟨' ', by decide, rfl⟩
  · exact ⟨'\t', by decide, rfl⟩
  · exact ⟨'\n', by decide, rfl⟩
  · exact ⟨'\x0B', by decide, rfl⟩
  · exact ⟨'\x0C', by decide, rfl⟩
  · exact ⟨'\r', by decide, rfl⟩

theorem exists_blanks_of_isBlankByte {bytes : List UInt8} (h : ∀ b ∈ bytes, isBlankByte b) :
    ∃ cs : List Char, (∀ c ∈ cs, isBlank c) ∧ cs.flatMap String.utf8EncodeChar = bytes := by
  induction bytes with
  | nil => exact ⟨[], List.forall_mem_nil _, rfl⟩
  | cons b bytes ih =>
    obtain ⟨hb, hbytes⟩ := List.forall_mem_cons.mp h
    obtain ⟨c, hc, hone⟩ := exists_blank_of_isBlankByte hb
    obtain ⟨cs, hcs, hmore⟩ := ih hbytes
    exact ⟨c :: cs, List.forall_mem_cons.mpr ⟨hc, hcs⟩, by rw [List.flatMap_cons, hone, hmore]; rfl⟩

theorem startsWith_encode {word : String} (h : ¬ word.toList <+: s.toList) :
    startsWith (encode s) word = false := by
  rw [startsWith, ← Bool.not_eq_true, List.isPrefixOf_iff_prefix]
  exact fun hword => h (isPrefix_of_encode hword)

theorem no_tag_of_text (h : '<' ∉ (s.toList.dropWhile isBlank).head?) :
    0x3C ∉ ((encode s).dropWhile isBlankByte).head? := by
  intro htag
  obtain ⟨rest, hrest⟩ := List.head?_eq_some_iff.mp htag
  obtain ⟨blanks, hblanks, hbytes⟩ := exists_blanks_of_isBlankByte
    (fun b hb => List.mem_takeWhile_imp hb : ∀ b ∈ (encode s).takeWhile isBlankByte, isBlankByte b)
  have hencode : (blanks ++ ['<']).flatMap String.utf8EncodeChar <+: encode s := by
    refine ⟨rest, ?_⟩
    rw [List.flatMap_append, hbytes, List.append_assoc]
    refine Eq.trans ?_ (List.takeWhile_append_dropWhile (p := isBlankByte))
    rw [hrest]
    rfl
  obtain ⟨more, hmore⟩ := isPrefix_of_encode hencode
  have hsign : ∀ c ∈ (['<'] ++ more).head?, ¬ isBlank c := by
    intro c hc
    rw [← Option.some.inj hc]
    decide
  rw [← hmore, List.append_assoc, dropWhile_run hblanks hsign] at h
  exact h rfl

theorem formatOf_encode (suffix : String) (hbinary : ¬ "bplist".toList <+: s.toList)
    (htag : '<' ∉ (s.toList.dropWhile isBlank).head?) :
    formatOf suffix (encode s) =
      if suffix.toList.map Char.toLower = ".json".toList then .json else .strings :=
  formatOf_eq suffix (startsWith_encode hbinary) (no_tag_of_text htag)

theorem withoutMark_encode (h : '\uFEFF' ∉ s.toList.head?) :
    withoutMark (encode s) = encode s := by
  unfold withoutMark
  split
  · rename_i rest heq
    have hencode : ['\uFEFF'].flatMap String.utf8EncodeChar <+: encode s := ⟨rest, heq.symm⟩
    obtain ⟨more, hmore⟩ := isPrefix_of_encode hencode
    rw [← hmore] at h
    exact absurd rfl h
  · rfl

theorem decodeText_encode (h : '\uFEFF' ∉ s.toList.head?) :
    decodeText (encode s) = .ok s.toList := by
  have hhead := lt_of_head_encode s
  unfold decodeText
  split
  · rename_i heq
    exact absurd (hhead 0xFF (by rw [heq]; rfl)) (by decide)
  · rename_i heq
    exact absurd (hhead 0xFE (by rw [heq]; rfl)) (by decide)
  · rw [withoutMark_encode h, decode_encode]
    rfl

end texts

end LocaleAccessors.Table
