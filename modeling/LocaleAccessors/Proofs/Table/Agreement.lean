import LocaleAccessors.Proofs.Json.Reading
import LocaleAccessors.Proofs.Table.Encodings

/-!
Two formats of one table. A JSON file and a strings file with the same rows load to the same table,
however each of them spells its texts. The one exception is the strings file whose first letters are
those of a binary property list, for it is taken for one.
-/

namespace LocaleAccessors.Table
open Files (Path Store)
open Strings (Hex4 rows_eq_ok_iff)
open Text (isBlank dropWhile_run forall_mem_of_all mapM_hexValue?_eq_some_iff)
open Text.Utf8 (withoutMark decode_encode)

section document
variable {text : String} {rows : List (String × String)}

theorem not_mark_of_jsonDocument (h : Json.Document text.toList rows) :
    '\uFEFF' ∉ text.toList.head? :=
  fun hmem => absurd (h.head _ hmem) (by decide)

theorem not_binary_of_jsonDocument (h : Json.Document text.toList rows) :
    ¬ "bplist".toList <+: text.toList := by
  intro hbinary
  obtain ⟨more, hmore⟩ := hbinary
  exact absurd (h.head 'b' (by rw [← hmore]; rfl)) (by decide)

theorem not_tag_of_jsonDocument (h : Json.Document text.toList rows) :
    '<' ∉ (text.toList.dropWhile isBlank).head? := by
  obtain ⟨blanks, more, hblanks, htext⟩ := h.begins
  have hrun : ∀ c ∈ blanks, isBlank c := by
    intro c hc
    obtain rfl | rfl | rfl | rfl := hblanks c hc <;> decide
  have hbrace : ∀ c ∈ ('{' :: more).head?, ¬ isBlank c := by
    intro c hc
    rw [← Option.some.inj hc]
    decide
  rw [htext, dropWhile_run hrun hbrace]
  exact fun hmem => absurd (Option.some.inj hmem) (by decide)

theorem jsonContent_of_document {encoding : Encoding}
    (hencoding : encoding = .utf8 ∨ encoding = .markedUtf8)
    (h : Json.Document text.toList rows) :
    ∃ content, jsonContent (encoding.bytes text) = .ok content ∧
      content.entries = .ok (entries rows) := by
  obtain ⟨value, hparse, hentries⟩ := Json.entries_of_document h
  have hbytes : withoutMark (encoding.bytes text) = Text.Utf8.encode text := by
    obtain rfl | rfl := hencoding
    · exact withoutMark_encode (not_mark_of_jsonDocument h)
    · rfl
  refine ⟨value.content, ?_, hentries⟩
  rw [jsonContent, hbytes, decode_encode]
  simp only [hparse]

theorem read_of_jsonDocument {encoding : Encoding}
    (hencoding : encoding = .utf8 ∨ encoding = .markedUtf8) (h : Json.Document text.toList rows)
    {suffix : String} (hsuffix : suffix.toList.map Char.toLower = ".json".toList) :
    read suffix (encoding.bytes text) = .ok (entries rows) := by
  obtain ⟨content, hcontent, hentries⟩ := jsonContent_of_document hencoding h
  have hformat := formatOf_bytes encoding suffix (not_tag_of_jsonDocument h)
    (fun _ => not_binary_of_jsonDocument h)
  rw [if_pos hsuffix] at hformat
  rw [read, hformat]
  change (jsonContent _ >>= fun content => content.entries.mapError _) = _
  rw [hcontent]
  change content.entries.mapError _ = _
  rw [hentries]
  rfl

end document

/-- For all rows there are files of both formats. Every JSON file of the rows and every strings file
of them loads to the table of the rows, unless the strings file is UTF-8 without a mark and starts
with the letters of a binary property list. -/
theorem json_and_strings_agree (rows : List (String × String)) :
    (∃ text : String, Json.Document text.toList rows) ∧
    (∃ text : String, Strings.Document text.toList rows ∧ ¬ "bplist".toList <+: text.toList) ∧
    ∃ table, Assigned rows table ∧
      (∀ (text : String) (encoding : Encoding) (s : Store) (p : Path),
        Json.Document text.toList rows → encoding = .utf8 ∨ encoding = .markedUtf8 →
        p.suffix.toList.map Char.toLower = ".json".toList → s.Readable p →
        s.bytes p = .ok (encoding.bytes text) → load s p = .ok table) ∧
      ∀ (text : String) (encoding : Encoding) (s : Store) (p : Path),
        Strings.Document text.toList rows →
        (encoding = .utf8 → ¬ "bplist".toList <+: text.toList) →
        p.suffix.toList.map Char.toLower ≠ ".json".toList → s.Readable p →
        s.bytes p = .ok (encoding.bytes text) → load s p = .ok table := by
  refine ⟨?_, ?_, entries rows, assigned_entries rows, ?_, ?_⟩
  · obtain ⟨text, h⟩ := Json.exists_document rows
    exact ⟨String.ofList text, by rwa [String.toList_ofList]⟩
  · exact ⟨Strings.written rows, Strings.document_written rows, not_binary_written rows⟩
  · intro text encoding s p h hencoding hsuffix hread hbytes
    exact load_of_read hread hbytes (read_of_jsonDocument hencoding h hsuffix)
  · intro text encoding s p h hbinary hsuffix hread hbytes
    exact load_of_read hread hbytes (read_of_document encoding h hsuffix hbinary)

/-- A key is given twice, once as it is and once by two surrogates. -/
theorem json_and_strings_agree_on_surrogates :
    let rows := [("𝄞", "1"), ("𝄞", "/")]
    let json := "\x7b\"𝄞\":\"1\", \"\\ud834\\uDD1E\":\"\\/\"\x7d"
    let strings := "\"\\Ud834\\Udd1e\" = \"1\"; \"𝄞\" = \"/\";"
    let s : Store :=
      { working := []
        nodes := [(["t.json"], .file (Encoding.markedUtf8.bytes json)),
          (["t.strings"], .file ((Encoding.utf16 .little).bytes strings))] }
    Json.Document json.toList rows ∧ Strings.Document strings.toList rows ∧
      load s ⟨.relative, ["t.json"]⟩ = .ok [⟨"𝄞", "/"⟩] ∧
      load s ⟨.relative, ["t.strings"]⟩ = .ok [⟨"𝄞", "/"⟩] := by
  intro rows json strings s
  have hhigh (rest : List Char) : Hex4 ('d' :: '8' :: '3' :: '4' :: rest) 0xD834 rest :=
    ⟨['d', '8', '3', '4'], [13, 8, 3, 4], mapM_hexValue?_eq_some_iff.mp rfl, rfl, rfl, rfl⟩
  have hlow (rest : List Char) : Hex4 ('D' :: 'D' :: '1' :: 'E' :: rest) 0xDD1E rest :=
    ⟨['D', 'D', '1', 'E'], [13, 13, 1, 14], mapM_hexValue?_eq_some_iff.mp rfl, rfl, rfl, rfl⟩
  have hspelled (rest : List Char) :
      Json.Quoted ('\\' :: 'u' :: 'd' :: '8' :: '3' :: '4' :: '\\' :: 'u' :: 'D' :: 'D' :: '1' ::
        'E' :: '"' :: rest) ['𝄞'] rest :=
    .escape (.pair (hhigh _) (hlow _) (by decide) (by decide) (by decide) (by decide) rfl) .close
  have hslash (rest : List Char) : Json.Quoted ('\\' :: '/' :: '"' :: rest) ['/'] rest :=
    .escape (.named (by decide)) .close
  have hspace (rest : List Char) : Json.Space (' ' :: '"' :: rest) ('"' :: rest) :=
    ⟨[' '], forall_mem_of_all (by decide), rfl⟩
  have hjson : Json.Document json.toList rows := by
    have htext : json.toList =
        ['{', '"', '𝄞', '"', ':', '"', '1', '"', ',', ' ', '"', '\\', 'u', 'd', '8', '3', '4',
          '\\', 'u', 'D', 'D', '1', 'E', '"', ':', '"', '\\', '/', '"', '}'] := by
      decide +kernel
    have hclef (rest : List Char) := Json.quoted_of_plain ['𝄞'] rest (forall_mem_of_all (by decide))
    have hone (rest : List Char) := Json.quoted_of_plain ['1'] rest (forall_mem_of_all (by decide))
    rw [htext]
    exact ⟨_, [], .refl _, .filled (.refl _)
      (.cons (.mk (hclef _) (.refl _) (.refl _) (hone _)) (.refl _) (hspace _)
        (.last (.mk (hspelled _) (.refl _) (.refl _) (hslash _)) (.refl _))), .refl _⟩
  have hstrings : Strings.Document strings.toList rows :=
    rows_eq_ok_iff.mp (by decide +kernel)
  obtain ⟨-, -, table, hassigned, hloadJson, hloadStrings⟩ := json_and_strings_agree rows
  have htable : table = [⟨"𝄞", "/"⟩] := (assigned_iff.mp hassigned).trans (by decide +kernel)
  subst htable
  refine ⟨hjson, hstrings, ?_, ?_⟩
  · exact hloadJson json .markedUtf8 s ⟨.relative, ["t.json"]⟩ hjson (.inr rfl)
      (by decide +kernel) ⟨rfl, rfl⟩ (by decide +kernel)
  · exact hloadStrings strings (.utf16 .little) s ⟨.relative, ["t.strings"]⟩ hstrings nofun
      (by decide +kernel) ⟨rfl, rfl⟩ (by decide +kernel)

/-- A string without quotes may start a strings file, and its letters may be those that show a binary
property list. The JSON file of the same row loads, but the strings file is refused. -/
theorem unquoted_bplist_refused :
    let rows := [("bplist", "x")]
    let json := "\x7b\"bplist\":\"x\"\x7d"
    let strings := "bplist = x;\n"
    let s : Store :=
      { working := []
        nodes := [(["t.json"], .file (Encoding.utf8.bytes json)),
          (["t.strings"], .file (Encoding.utf8.bytes strings))] }
    Json.Document json.toList rows ∧ Strings.Document strings.toList rows ∧
      load s ⟨.relative, ["t.json"]⟩ = .ok [⟨"bplist", "x"⟩] ∧
      load s ⟨.relative, ["t.strings"]⟩ = .error (.format (.propertyList [])) := by
  intro rows json strings s
  have hjson : Json.Document json.toList rows := by
    have htext : json.toList =
        ['{', '"', 'b', 'p', 'l', 'i', 's', 't', '"', ':', '"', 'x', '"', '}'] := by
      decide +kernel
    have hkey (rest : List Char) :=
      Json.quoted_of_plain ['b', 'p', 'l', 'i', 's', 't'] rest (forall_mem_of_all (by decide))
    have hvalue (rest : List Char) :=
      Json.quoted_of_plain ['x'] rest (forall_mem_of_all (by decide))
    rw [htext]
    exact ⟨_, [], .refl _, .filled (.refl _)
      (.last (.mk (hkey _) (.refl _) (.refl _) (hvalue _)) (.refl _)), .refl _⟩
  have hstrings : Strings.Document strings.toList rows :=
    rows_eq_ok_iff.mp (by decide +kernel)
  have hentries : entries rows = [⟨"bplist", "x"⟩] := by decide +kernel
  have hread : read ".json" (Encoding.utf8.bytes json) = .ok [⟨"bplist", "x"⟩] :=
    hentries ▸ read_of_jsonDocument (.inl rfl) hjson rfl
  exact ⟨hjson, hstrings, load_of_read ⟨rfl, rfl⟩ (by decide +kernel) hread, by decide +kernel⟩

end LocaleAccessors.Table
