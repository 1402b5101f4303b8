import LocaleAccessors.Xml.DocumentType
import LocaleAccessors.Xml.Tag

/-!
The tokens of XML texts.
-/

namespace LocaleAccessors.Xml
open Text (Read readChar readRun readUntil)

/-- Comments and processing instructions stand aside. -/
inductive Token where
  | start (name : List Char) (tag : StartTag)
  | finish (name : List Char)
  | text (cs : List Char)
  | verbatim (cs : List Char)
  | reference (reference : Reference)
  | aside
  | documentType (type : DocumentType)
  deriving DecidableEq

def readStart (added cs : List Char) : Option (Read Token cs) := do
  let name ← readName added cs
  let tag ← name.andThen (readAttributes added)
  if (tag.value.attributes.map (·.name)).Nodup then
    return tag.map fun tag => .start name.value tag
  else none

def readFinish (added cs : List Char) : Option (Read Token cs) := do
  let name ← readName added cs
  let done ← (name.skip isSpace).andThen (readChar angleBracket)
  return done.map fun _ => .finish name.value

def readVerbatim (cs : List Char) : Option (Read Token cs) := do
  let r ← readUntil [']', ']', '>'] cs
  if r.value.all isCharacter then return r.map .verbatim else none

def isPlain (c : Char) : Bool :=
  c ≠ '<' && c ≠ '&'

def holdsVerbatimEnd (cs : List Char) : Bool :=
  (readUntil [']', ']', '>'] cs).isSome

def readToken (added cs : List Char) : Option (Read Token cs) :=
  match cs with
  | '<' :: '!' :: '-' :: '-' :: rest =>
    (readComment rest).map fun r => (r.map fun _ => Token.aside).after.after.after.after
  | '<' :: '!' :: '[' :: 'C' :: 'D' :: 'A' :: 'T' :: 'A' :: '[' :: rest =>
    (readVerbatim rest).map fun r => r.after.after.after.after.after.after.after.after.after
  | '<' :: '!' :: 'D' :: 'O' :: 'C' :: 'T' :: 'Y' :: 'P' :: 'E' :: rest =>
    (readDocumentType added rest).map fun r =>
      (r.map Token.documentType).after.after.after.after.after.after.after.after.after
  | '<' :: '?' :: rest =>
    (readInstruction added rest).map fun r => (r.map fun _ => Token.aside).after.after
  | '<' :: '/' :: rest => (readFinish added rest).map fun r => r.after.after
  | '<' :: rest => (readStart added rest).map Read.after
  | '&' :: rest => (readReference added rest).map fun r => (r.map Token.reference).after
  | cs => do
    let run ← readRun isPlain cs
    if run.value.all isCharacter && !holdsVerbatimEnd run.value then return run.map .text else none

structure Placed where
  token : Token
  place : List Char
  deriving DecidableEq

/-- The tokens up to the end or to the first fault, and whether there is none. -/
def tokens (added cs : List Char) : List Placed × Bool :=
  match cs with
  | [] => ([], true)
  | c :: rest =>
    match readToken added (c :: rest) with
    | none => ([], false)
    | some r =>
      let more := tokens added r.rest
      (⟨r.value, c :: rest⟩ :: more.1, more.2)
termination_by cs.length
decreasing_by exact r.shorter

end LocaleAccessors.Xml
