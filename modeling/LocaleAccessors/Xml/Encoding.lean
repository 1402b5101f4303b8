import LocaleAccessors.Text.CodePage.Dos
import LocaleAccessors.Text.CodePage.International
import LocaleAccessors.Text.CodePage.Macintosh
import LocaleAccessors.Text.CodePage.Regional
import LocaleAccessors.Text.CodePage.Windows
import LocaleAccessors.Text.Utf8

/-!
The encodings of XML texts. UTF-8 and Latin-1 under their registered names are read as such; every
other encoding is read byte by byte from a code page.
-/

namespace LocaleAccessors.Xml
open Text (CodePage)

inductive Encoding where
  | utf8
  | latin1
  | page (p : CodePage)
  deriving DecidableEq

namespace Encoding

def pages : List CodePage :=
  [.ascii, .latin1] ++ CodePage.windowsPages ++ CodePage.internationalPages ++ CodePage.dosPages ++
    CodePage.macintoshPages ++ CodePage.regionalPages ++ [.hanzi]

/-- An encoding is named by a word that starts with a letter. Unknown encodings are refused, and so
are those that no single byte can be told in. -/
def ofName? (name : List Char) : Option Encoding :=
  if (name.head?.map Char.isAlpha) = some true then
    match String.ofList (name.map Char.toLower) with
    | "utf-8" => some .utf8
    | "iso-8859-1" => some .latin1
    | _ => (pages.find? (·.answersTo name)).map .page
  else none

def addedLetters : Encoding → List Char
  | .latin1 => ['ª', 'µ', 'º']
  | _ => []

/-- The text of some bytes. What cannot be decoded is read as the null character, which no text may
hold. -/
def decode (encoding : Encoding) (bytes : List UInt8) : List Char :=
  match encoding with
  | .latin1 => bytes.map fun b => Char.ofNat b.toNat
  | .page p => (p.decode bytes).map fun c => c.getD '\x00'
  | .utf8 =>
    match Text.Utf8.decode bytes with
    | .ok cs => cs
    | .error fault =>
      match Text.Utf8.decode (bytes.take fault.offset) with
      | .ok cs => cs ++ ['\x00']
      | .error _ => ['\x00']

end Encoding

end LocaleAccessors.Xml
