import LocaleAccessors.Proofs.Files.Store
import LocaleAccessors.Proofs.Strings.Opening
import LocaleAccessors.Proofs.Strings.Written
import LocaleAccessors.Proofs.Table.Recognition
import LocaleAccessors.Proofs.Text.Utf16

/-!
Strings files are read from any of the encodings that they come in, and a table that is written as
one is loaded again. Nothing is assumed of the rows: keys may come twice, and every text may be any.
-/

namespace LocaleAccessors.Table
open Files (Path Store)
open Strings (written rows_eq_ok_iff)
open Text (isBlank)
open Text.Utf16 (ByteOrder)

/-- The encodings of a strings file. UTF-16 is told by its byte order mark. -/
inductive Encoding where
  | utf8
  | markedUtf8
  | utf16 (order : ByteOrder)
  deriving DecidableEq

def orderMark : ByteOrder → List UInt8
  | .little => [0xFF, 0xFE]
  | .big => [0xFE, 0xFF]

def Encoding.bytes (text : String) : Encoding → List UInt8
  | .utf8 => Text.Utf8.encode text
  | .markedUtf8 => 0xEF :: 0xBB :: 0xBF :: Text.Utf8.encode text
  | .utf16 order => orderMark order ++ Text.Utf16.encode order text

section document
variable {text : String} {rows : List (String × String)} (encoding : Encoding)

theorem decodeText_of_orderMark (order : ByteOrder) (bytes : List UInt8) :
    decodeText (orderMark order ++ bytes) = (Text.Utf16.decode order bytes).mapError (·.text) := by
  cases order <;> rfl

theorem decodeText_bytes (h : '\uFEFF' ∉ text.toList.head?) :
    decodeText (encoding.bytes text) = .ok text.toList := by
  cases encoding with
  | utf8 => exact decodeText_encode h
  | markedUtf8 =>
    change (Text.Utf8.decode (Text.Utf8.encode _)).mapError _ = _
    rw [Text.Utf8.decode_encode]
    rfl
  | utf16 order =>
    rw [Encoding.bytes, decodeText_of_orderMark, Text.Utf16.decode_encode]
    rfl

theorem formatOf_bytes (suffix : String) (htag : '<' ∉ (text.toList.dropWhile isBlank).head?)
    (hbinary : encoding = .utf8 → ¬ "bplist".toList <+: text.toList) :
    formatOf suffix (encoding.bytes text) =
      if suffix.toList.map Char.toLower = ".json".toList then .json else .strings := by
  cases encoding with
  | utf8 => exact formatOf_encode suffix (hbinary rfl) htag
  | markedUtf8 =>
    refine formatOf_of_head suffix fun b hb => ?_
    rw [← Option.some.inj hb]
    decide
  | utf16 order =>
    refine formatOf_of_head suffix fun b hb => ?_
    cases order with
    | little =>
      rw [← Option.some.inj hb]
      decide
    | big =>
      rw [← Option.some.inj hb]
      decide

theorem no_mark_of_document (h : Strings.Document text.toList rows) :
    '\uFEFF' ∉ text.toList.head? := by
  intro hmark
  obtain ⟨rest, hrest⟩ := List.head?_eq_some_iff.mp hmark
  have hbegins := h.begins
  rw [hrest, List.dropWhile_cons_of_neg (by decide)] at hbegins
  exact absurd (hbegins _ rfl) (by decide)

/-- The rows of a strings file are read, whatever its encoding. Without a mark in front of them the
letters of a binary property list show that the file is one. -/
theorem read_of_document (h : Strings.Document text.toList rows) {suffix : String}
    (hsuffix : suffix.toList.map Char.toLower ≠ ".json".toList)
    (hbinary : encoding = .utf8 → ¬ "bplist".toList <+: text.toList) :
    read suffix (encoding.bytes text) = .ok (entries rows) := by
  have htag : '<' ∉ (text.toList.dropWhile isBlank).head? :=
    fun hmem => absurd (h.begins '<' hmem) (by decide)
  have hformat := formatOf_bytes encoding suffix htag hbinary
  rw [if_neg hsuffix] at hformat
  rw [read, hformat]
  change readStrings _ = _
  rw [readStrings, decodeText_bytes encoding (no_mark_of_document h)]
  change ((Strings.rows text.toList).map entries).mapError _ = _
  rw [rows_eq_ok_iff.mpr h]
  rfl

end document

theorem not_binary_written (rows : List (String × String)) :
    ¬ "bplist".toList <+: (written rows).toList := by
  cases rows with
  | nil => decide
  | cons row rows =>
    rw [Strings.toList_written_cons, Strings.toList_line]
    exact fun h => absurd (List.cons_prefix_cons.mp h).1 (by decide)

theorem read_written (rows : List (String × String)) (encoding : Encoding) {suffix : String}
    (hsuffix : suffix.toList.map Char.toLower ≠ ".json".toList) :
    read suffix (encoding.bytes (written rows)) = .ok (entries rows) :=
  read_of_document encoding (Strings.document_written rows) hsuffix
    fun _ => not_binary_written rows

theorem load_of_read {s : Store} {p : Path} {bytes : List UInt8} {table : List Entry}
    (hread : s.Readable p) (hbytes : s.bytes p = .ok bytes)
    (h : read p.suffix bytes = .ok table) : load s p = .ok table := by
  obtain ⟨l, hlook⟩ := Store.look_of_bytes hread hbytes
  have hinput : inputBytes s p = .ok bytes := by
    rw [inputBytes, hlook, hread.read]
  rw [load, hinput]
  change (read p.suffix bytes).mapError _ = _
  rw [h]
  rfl

/-- Loading undoes writing in every encoding: the table has every key once, where it came first, with
the value that it was given last. -/
theorem load_written (rows : List (String × String)) :
    ∃ table, Assigned rows table ∧
      ∀ (encoding : Encoding) (s : Store) (p : Path),
        p.suffix.toList.map Char.toLower ≠ ".json".toList → s.Readable p →
        s.bytes p = .ok (encoding.bytes (written rows)) → load s p = .ok table :=
  ⟨entries rows, assigned_entries rows, fun encoding _ _ hsuffix hread hbytes =>
    load_of_read hread hbytes (read_written rows encoding hsuffix)⟩

/-- A control character, a character of two units and a key that is given twice. -/
theorem load_written_in_utf16 :
    let rows := [("a\x01", "1"), ("b", "\"𝄞\""), ("a\x01", "2")]
    let p : Path := ⟨.relative, ["t.strings"]⟩
    let s : Store :=
      { working := []
        nodes := [(["t.strings"], .file ((Encoding.utf16 .big).bytes (written rows)))] }
    p.suffix.toList.map Char.toLower ≠ ".json".toList ∧ s.Readable p ∧
      s.bytes p = .ok ((Encoding.utf16 .big).bytes (written rows)) ∧
      load s p = .ok [⟨"a\x01", "2"⟩, ⟨"b", "\"𝄞\""⟩] := by
  intro rows p s
  have hsuffix : p.suffix.toList.map Char.toLower ≠ ".json".toList := by decide +kernel
  have hbytes : s.bytes p = .ok ((Encoding.utf16 .big).bytes (written rows)) := by decide +kernel
  obtain ⟨table, hassigned, hload⟩ := load_written rows
  have htable : table = [⟨"a\x01", "2"⟩, ⟨"b", "\"𝄞\""⟩] :=
    (assigned_iff.mp hassigned).trans (by decide +kernel)
  have hread : s.Readable p := ⟨rfl, rfl⟩
  exact ⟨hsuffix, hread, hbytes, htable ▸ hload (.utf16 .big) s p hsuffix hread hbytes⟩

end LocaleAccessors.Table
