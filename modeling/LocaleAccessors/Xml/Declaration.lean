import LocaleAccessors.Xml.Encoding
import LocaleAccessors.Xml.Tag

/-!
The declaration at the start of an XML text, and the encoding that it names.
-/

namespace LocaleAccessors.Xml
open Text (Read readChar readRun readUntil)

structure Declaration where
  encoding : Encoding
  standalone : Bool
  deriving DecidableEq

structure Setting where
  name : String
  value : List Char
  deriving DecidableEq

def isSettingCharacter (c : Char) : Bool :=
  c.isAlphanum || c ∈ ['.', '-', '_']

def readSettingValue (cs : List Char) : Option (Read (List Char) cs) :=
  match cs with
  | [] => none
  | quote :: rest =>
    if quote = '"' ∨ quote = '\'' then do
      let r ← readUntil [quote] rest
      if r.value.all isSettingCharacter then return r.after else none
    else none

def readSetting (cs : List Char) : Option (Read Setting cs) := do
  let name ← readRun Char.isAlpha cs
  let sign ← (name.skip isSpace).andThen (readChar equalsSign)
  let value ← (sign.skip isSpace).andThen readSettingValue
  return value.map fun value => ⟨String.ofList name.value, value⟩

def settings (cs : List Char) : Option (List Setting) :=
  if cs = [] then some []
  else do
    let space ← readRun isSpace cs
    if space.rest = [] then return []
    let setting ← readSetting space.rest
    return setting.value :: (← settings setting.rest)
termination_by cs.length
decreasing_by exact Nat.lt_trans setting.shorter space.shorter

def standaloneOf : List Setting → Option Bool
  | [] => some false
  | [⟨"standalone", value⟩] =>
    if value = "yes".toList then some true
    else if value = "no".toList then some false
    else none
  | _ => none

/-- The version comes first, whichever it is, then the encoding, then whether the text stands
alone. -/
def Declaration.ofSettings : List Setting → Option Declaration
  | ⟨"version", _⟩ :: ⟨"encoding", name⟩ :: rest => do
    return ⟨← Encoding.ofName? name, ← standaloneOf rest⟩
  | ⟨"version", _⟩ :: rest => do
    return ⟨.utf8, ← standaloneOf rest⟩
  | _ => none

def Declaration.absent : Declaration := ⟨.utf8, false⟩

def readDeclared (cs : List Char) : Option (Declaration × List Char) :=
  match cs with
  | '<' :: '?' :: 'x' :: 'm' :: 'l' :: body =>
    if (body.head?.map fun c => isSpace c || c = '?') = some true then do
      let r ← readUntil ['?', '>'] body
      return (← Declaration.ofSettings (← settings r.value), r.rest)
    else some (.absent, cs)
  | _ => some (.absent, cs)

end LocaleAccessors.Xml
