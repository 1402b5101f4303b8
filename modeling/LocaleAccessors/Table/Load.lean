import LocaleAccessors.Files.Store
import LocaleAccessors.Json.Content
import LocaleAccessors.Json.Reader
import LocaleAccessors.PropertyList.Binary
import LocaleAccessors.PropertyList.Builder
import LocaleAccessors.Strings.Reader
import LocaleAccessors.Table.FormatFault

/-!
Tables loaded from files. The bytes tell a property list; otherwise the extension tells JSON, and all
else is a strings file.
-/

namespace LocaleAccessors.Table
open Files (Path Store PathFault)
open Text.Utf16 (ByteOrder)

inductive Format where
  | binaryPropertyList
  | xmlPropertyList
  | unknownPropertyList
  | json
  | strings
  deriving DecidableEq

def startsWith (bytes : List UInt8) (word : String) : Bool :=
  (Text.Utf8.encode word).isPrefixOf bytes

def isBlankByte (b : UInt8) : Bool :=
  b ∈ [0x20, 0x09, 0x0A, 0x0B, 0x0C, 0x0D]

/-- Blanks in front of a property list in XML show what it is, but then it cannot be read; the same
goes for a document type without a declaration before it. -/
def formatOf (suffix : String) (bytes : List UInt8) : Format :=
  let stripped := bytes.dropWhile isBlankByte
  if startsWith bytes "bplist" then
    if startsWith bytes "bplist00" then .binaryPropertyList else .unknownPropertyList
  else if ["<?xml", "<plist", "<!DOCTYPE"].any (startsWith stripped) then
    if ["<?xml", "<plist"].any (startsWith bytes) then .xmlPropertyList
    else .unknownPropertyList
  else if suffix.toList.map Char.toLower = ".json".toList then .json
  else .strings

/-- The text of a strings file. A byte order mark tells UTF-16. -/
def decodeText (bytes : List UInt8) : Except String (List Char) :=
  match bytes with
  | 0xFF :: 0xFE :: rest => (Text.Utf16.decode .little rest).mapError (·.text)
  | 0xFE :: 0xFF :: rest => (Text.Utf16.decode .big rest).mapError (·.text)
  | bytes => (Text.Utf8.decode (Text.Utf8.withoutMark bytes)).mapError (·.reason.text)

def readStrings (bytes : List UInt8) : Except FormatReason (List Entry) :=
  match decodeText bytes with
  | .error reason => .error (.undecodable reason)
  | .ok text =>
    (Strings.parse text).mapError fun fault =>
      .strings fault.reason (Strings.lineOf text fault.rest)

def jsonContent (bytes : List UInt8) : Except FormatReason Content :=
  match Text.Utf8.decode (Text.Utf8.withoutMark bytes) with
  | .error fault => .error (.jsonBytes fault)
  | .ok text =>
    match Json.parse text with
    | .ok value => .ok value.content
    | .error fault => .error (.json fault text)

def contentOf (format : Format) (bytes : List UInt8) : Except FormatReason Content :=
  match format with
  | .json => jsonContent bytes
  | .xmlPropertyList => (PropertyList.ofXml bytes).mapError .propertyList
  | .binaryPropertyList =>
    match PropertyList.ofBinary bytes with
    | some content => .ok content
    | none => .error (.propertyList [])
  | .unknownPropertyList | .strings => .error (.propertyList [])

def read (suffix : String) (bytes : List UInt8) : Except FormatReason (List Entry) :=
  match formatOf suffix bytes with
  | .strings => readStrings bytes
  | format => do (← contentOf format bytes).entries.mapError .content

def skippedKeys (suffix : String) (bytes : List UInt8) : List String :=
  match contentOf (formatOf suffix bytes) bytes with
  | .ok content => content.skipped
  | .error _ => []

inductive LoadFault where
  | notFound
  | nameTooLong
  | refused (words : String)
  | unreadable (words : String)
  | format (reason : FormatReason)
  deriving DecidableEq

/-- The bytes of the input. What is no file counts as not found, but for a name that is too long. It is
looked for first; to be refused then is another fault than to be refused when it is read. -/
def inputBytes (s : Store) (p : Path) : Except LoadFault (List UInt8) :=
  match s.look p, s.machine.refuses (.read p) with
  | .error (.refused words), _ => .error (.refused words)
  | .error _, _ => .error .nameTooLong
  | .ok (some (_, .file bytes)), none => .ok bytes
  | .ok (some (_, .file _)), some refusal => .error (.unreadable refusal.words)
  | .ok _, _ => .error .notFound

def load (s : Store) (p : Path) : Except LoadFault (List Entry) := do
  (read p.suffix (← inputBytes s p)).mapError .format

def unreadMessage (p : Path) (words : String) : String :=
  "Cannot read input file '" ++ p.text ++ "': " ++ words

def notFoundMessage (p : Path) : String :=
  unreadMessage p "file not found"

def unseenMessage (p : Path) (words : String) : String :=
  words ++ ": " ++ Text.quoted (Text.codePoints p.text)

def nameTooLongMessage (p : Path) : String :=
  unseenMessage p "[Errno 36] File name too long"

end LocaleAccessors.Table
