import LocaleAccessors.Json.Fault
import LocaleAccessors.Strings.Fault
import LocaleAccessors.Table.Content
import LocaleAccessors.Text.Utf8

/-!
Why the content of a file is no table, and how that is reported.
-/

namespace LocaleAccessors.Table
open Text (CodePoint codePoints)

/-- Of a property list at fault the words are kept that tell what is wrong. -/
inductive FormatReason where
  | strings (reason : Strings.Reason) (line : Nat)
  | undecodable (reason : String)
  | json (fault : Json.Fault) (text : List Char)
  | jsonBytes (fault : Text.Utf8.Fault)
  | propertyList (words : List CodePoint)
  | content (fault : ContentFault)
  deriving DecidableEq

def FormatReason.line : FormatReason → Option Nat
  | .strings _ line => some line
  | _ => none

def bytesMessage (f : Text.Utf8.Fault) : String :=
  let place :=
    match f.bytes with
    | [b] => "byte 0x" ++ String.ofList (Text.numeral 16 2 b.toNat) ++ " in position " ++
        toString f.offset
    | bytes => "bytes in position " ++ toString f.offset ++ "-" ++
        toString (f.offset + bytes.length - 1)
  "'utf-8' codec can't decode " ++ place ++ ": " ++ f.reason.text

def FormatReason.words : FormatReason → List CodePoint
  | .strings reason _ => codePoints reason.text
  | .undecodable reason => codePoints ("cannot decode text (" ++ reason ++ ")")
  | .json fault text => codePoints (fault.message text)
  | .jsonBytes fault => codePoints (bytesMessage fault)
  | .propertyList words =>
    codePoints "invalid property list (" ++ words ++ codePoints ")"
  | .content fault => fault.message

/-- The place in front of a message: the path, where there is one, and the line. -/
def location (path : Option String) (line : Option Nat) : String :=
  match path.filter (· ≠ ""), line with
  | some path, some line => path ++ ":" ++ toString line ++ ": "
  | some path, none => path ++ ": "
  | none, some line => "line " ++ toString line ++ ": "
  | none, none => ""

def FormatReason.isLimit : FormatReason → Bool
  | .json fault _ => fault.reason.isLimit
  | _ => false

def FormatReason.message (reason : FormatReason) (path : Option String) : List CodePoint :=
  if reason.isLimit then reason.words
  else codePoints ("Bad format of input file: " ++ location path reason.line) ++ reason.words

end LocaleAccessors.Table
