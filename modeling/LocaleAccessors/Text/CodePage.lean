import LocaleAccessors.Text.Separated

/-!
Code pages: encodings in which every byte is a character by itself. All of them agree with ASCII in
the bytes below `80`.
-/

namespace LocaleAccessors.Text

/-- The bytes from `80` to the start of the page are characters by their own numbers. From the start
on the characters are listed; the replacement character, and the end of the list, stand for none. Of
ASCII the missing characters have no byte. A name is written as it is; in an alias points may stand
for underscores. -/
structure CodePage where
  names : List String
  aliases : List String := []
  start : Nat := 0x80
  characters : String := ""
  missing : List Char := []
  deriving DecidableEq

namespace CodePage

def table (p : CodePage) : List (Option Char) :=
  p.characters.toList.map fun c => if c = '\ufffd' then none else some c

def character? (p : CodePage) (table : List (Option Char)) (b : UInt8) : Option Char :=
  let c := Char.ofNat b.toNat
  if b < 0x80 then if c ∈ p.missing then none else some c
  else if b.toNat < p.start then some c
  else (table[b.toNat - p.start]?).join

def decode (p : CodePage) (bytes : List UInt8) : List (Option Char) :=
  let table := p.table
  bytes.map (p.character? table)

def plainName (name : List Char) : List Char :=
  let marked := name.map fun c => if c = '-' then '_' else c.toLower
  ['_'].intercalate ((pieces ⟨'_', []⟩ marked).filter (· ≠ []))

def answersTo (p : CodePage) (name : List Char) : Bool :=
  let plain := plainName name
  let isAmong (name : List Char) (names : List String) : Bool := String.ofList name ∈ names
  isAmong plain (p.names ++ p.aliases) ||
    isAmong (plain.map fun c => if c = '.' then '_' else c) p.aliases

/-- ASCII, and with it the encodings that use several bytes for other characters, for of these only
the part can be read that takes single bytes. -/
def ascii : CodePage where
  names := [
    "ascii", "utf_8", "utf_8_sig", "iso2022_jp", "iso2022_jp_1", "iso2022_jp_2", "iso2022_jp_2004",
    "iso2022_jp_3", "iso2022_jp_ext"]
  aliases := [
    "ansi_x3.4_1968", "ansi_x3.4_1986", "ansi_x3_4_1968", "cp367", "csascii", "ibm367", "iso646_us",
    "iso_646.irv_1991", "iso_ir_6", "us", "us_ascii", "cp65001", "u8", "utf", "utf8", "utf8_ucs2",
    "utf8_ucs4", "csiso2022jp", "iso2022jp", "iso_2022_jp", "iso2022jp_1", "iso_2022_jp_1",
    "iso2022jp_2", "iso_2022_jp_2", "iso2022jp_2004", "iso_2022_jp_2004", "iso2022jp_3",
    "iso_2022_jp_3", "iso2022jp_ext", "iso_2022_jp_ext"]

def hanzi : CodePage where
  names := ["hz"]
  aliases := ["hzgb", "hz_gb", "hz_gb_2312"]
  missing := ['~']

def latin1 : CodePage where
  names := ["latin_1", "charmap", "raw_unicode_escape", "unicode_escape"]
  aliases := [
    "cp819", "csisolatin1", "ibm819", "iso8859", "iso8859_1", "iso_8859_1", "iso_8859_1_1987",
    "iso_ir_100", "l1", "latin", "latin1"]
  start := 0x100

end CodePage

end LocaleAccessors.Text
