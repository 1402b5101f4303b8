import LocaleAccessors.PropertyList.Date
import LocaleAccessors.PropertyList.Scalar
import LocaleAccessors.Table.Content
import LocaleAccessors.Xml.Document

/-!
Property lists in XML. The elements are taken one after the other: a dictionary takes a key and then
a value, an array takes values, and a value outside both is the whole list. Elements with unknown
names are passed over.
-/

namespace LocaleAccessors.PropertyList
open Table (Content Item Kind Label assign)
open Text (CodePoint codePoints)
open Xml (Event Document)

inductive Container where
  | dictionary
  | array
  deriving DecidableEq

/-- Why a property list is refused. A dictionary that ends after a key is told from the other causes,
with its place. -/
inductive Refusal where
  | malformed
  | missingValue (key place : List Char)
  deriving DecidableEq

/-- Only the words for a missing value are kept, for the key is part of them. -/
def Refusal.words (d : Document) : Refusal → List CodePoint
  | .malformed => []
  | .missingValue key place =>
    codePoints ("missing value for key '" ++ String.ofList key ++ "' at line " ++
      toString (d.line place))

/-- What is known of a property list so far: its content, the containers around the current place,
the innermost first, the key that waits for its value, and the text since the last tag. -/
structure Builder where
  root : Content := .single (.other .null)
  containers : List Container := []
  key : Option (List Char) := none
  text : List Char := []

namespace Builder

def addMember (root : Content) (key : List Char) (item : Item) : Content :=
  match root with
  | .dictionary members => .dictionary (assign (.text (key.map .scalar)) item members)
  | .single item => .single item

def rootOf : Item → Content
  | .other .dictionary => .dictionary []
  | item => .single item

def add (b : Builder) (item : Item) : Option Builder :=
  match b.key, b.containers with
  | some key, [.dictionary] => some { b with root := addMember b.root key item, key := none }
  | some _, .dictionary :: _ => some { b with key := none }
  | some _, _ => none
  | none, [] => some { b with root := rootOf item }
  | none, .array :: _ => some b
  | none, .dictionary :: _ => none

def enter (b : Builder) (container : Container) (kind : Kind) : Option Builder :=
  (b.add (.other kind)).map fun b => { b with containers := container :: b.containers }

def start (b : Builder) (name : String) : Option Builder :=
  let b := { b with text := [] }
  match name with
  | "dict" => b.enter .dictionary .dictionary
  | "array" => b.enter .array .list
  | _ => some b

def leave (b : Builder) : Builder :=
  { b with containers := b.containers.tail }

def addSpelled (b : Builder) (spelled : List Char → Bool) (kind : Kind) : Option Builder :=
  if spelled b.text then { b with text := [] }.add (.other kind) else none

/-- A key waits for a value, unless it is empty: then another key may take its place. -/
def isWaiting (b : Builder) : Bool :=
  match b.key with
  | some (_ :: _) => true
  | _ => false

def addKey (b : Builder) : Option Builder :=
  match b.isWaiting, b.containers with
  | false, .dictionary :: _ => some { b with key := some b.text, text := [] }
  | _, _ => none

def finish (b : Builder) (name : String) (place : List Char) : Except Refusal Builder :=
  let orMalformed (next : Option Builder) : Except Refusal Builder :=
    match next with
    | some b => .ok b
    | none => .error .malformed
  match name with
  | "dict" =>
    match b.key with
    | some (c :: key) => .error (.missingValue (c :: key) place)
    | _ => .ok b.leave
  | "array" => .ok b.leave
  | "key" => orMalformed b.addKey
  | "true" | "false" => orMalformed (b.add (.other .bool))
  | "string" => orMalformed ({ b with text := [] }.add (.text (b.text.map .scalar)))
  | "integer" => orMalformed (b.addSpelled isInteger .integer)
  | "real" => orMalformed (b.addSpelled isReal .float)
  | "data" => orMalformed (b.addSpelled isData .bytes)
  | "date" => orMalformed (b.addSpelled isDate .date)
  | _ => .ok b

def run : Builder → List Event → Except Refusal Builder
  | b, [] => .ok b
  | b, .start name :: rest =>
    match b.start name with
    | some b => run b rest
    | none => .error .malformed
  | b, .text cs :: rest => run { b with text := b.text ++ cs } rest
  | b, .finish name place :: rest => do run (← b.finish name place) rest

end Builder

/-- The content of a property list in XML, or the words that tell what is wrong. -/
def ofXml (bytes : List UInt8) : Except (List CodePoint) Content :=
  let d := Document.ofBytes bytes
  match Builder.run {} d.events with
  | .ok b => if d.wellFormed then .ok b.root else .error []
  | .error refusal => .error (refusal.words d)

end LocaleAccessors.PropertyList
