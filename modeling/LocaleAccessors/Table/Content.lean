import LocaleAccessors.Table.Entry
import LocaleAccessors.Text.Quoted

/-!
The content of a table that comes in a format with values of many kinds. It must be a dictionary
whose values are texts; keys of other kinds are left out.
-/

namespace LocaleAccessors.Table
open Text (CodePoint codePoints characters? quoted)

def maxDepth : Nat := 988

inductive Kind where
  | integer
  | float
  | bool
  | null
  | list
  | dictionary
  | bytes
  | date
  | reference
  deriving DecidableEq

def Kind.word : Kind → String
  | .integer => "int"
  | .float => "float"
  | .bool => "bool"
  | .null => "NoneType"
  | .list => "list"
  | .dictionary => "dict"
  | .bytes => "bytes"
  | .date => "datetime"
  | .reference => "UID"

/-- A value, as far as it matters here. -/
inductive Item where
  | text (s : List CodePoint)
  | other (kind : Kind)
  deriving DecidableEq

def Item.word : Item → String
  | .text _ => "str"
  | .other kind => kind.word

/-- The key of a member. Of a key that is no text the form in diagnostics is kept. -/
inductive Label where
  | text (s : List CodePoint)
  | other (shown : String)
  deriving DecidableEq

inductive Content where
  | dictionary (members : List (Label × Item))
  | single (item : Item)
  deriving DecidableEq

inductive ContentFault where
  | notDictionary (word : String)
  | notText (key : List CodePoint) (word : String)
  | surrogate (key : List CodePoint)
  deriving DecidableEq

def ContentFault.message : ContentFault → List CodePoint
  | .notDictionary word => codePoints ("top-level object must be a dictionary, not " ++ word)
  | .notText key word =>
    codePoints "value for key '" ++ key ++ codePoints ("' must be a string, not " ++ word)
  | .surrogate key =>
    codePoints ("entry '" ++ quoted key ++
      "' contains an unpaired surrogate (surrogates not allowed)")

def entryOf (key : List CodePoint) : Item → Except ContentFault Entry
  | .other kind => .error (.notText key kind.word)
  | .text value =>
    match characters? key, characters? value with
    | some key, some value => .ok ⟨key, value⟩
    | _, _ => .error (.surrogate key)

def memberEntries : List (Label × Item) → Except ContentFault (List Entry)
  | [] => .ok []
  | (.other _, _) :: rest => memberEntries rest
  | (.text key, item) :: rest => do
    let entry ← entryOf key item
    return entry :: (← memberEntries rest)

def Content.entries : Content → Except ContentFault (List Entry)
  | .dictionary members => memberEntries members
  | .single item => .error (.notDictionary item.word)

def skippedLabels : List (Label × Item) → List String
  | [] => []
  | (.other shown, _) :: rest => shown :: skippedLabels rest
  | (.text key, item) :: rest =>
    match entryOf key item with
    | .ok _ => skippedLabels rest
    | .error _ => []

def Content.skipped : Content → List String
  | .dictionary members => skippedLabels members
  | .single _ => []

end LocaleAccessors.Table
