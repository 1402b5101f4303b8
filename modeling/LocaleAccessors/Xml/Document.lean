import LocaleAccessors.Xml.Declaration
import LocaleAccessors.Xml.Token

/-!
XML documents as events: the starts and ends of elements and the text between them. A document has
one element with all others inside it.
-/

namespace LocaleAccessors.Xml

/-- Of the end of an element its place is kept: what is left of the text from its tag on. -/
inductive Event where
  | start (name : String)
  | text (cs : List Char)
  | finish (name : String) (place : List Char)
  deriving DecidableEq

/-- Where a document stands: before its element, after its type or without one, inside the element,
with the names of the elements around, or after it. Undeclared entities are passed over where it is
lenient. -/
inductive Position where
  | before (lenient : Option Bool)
  | inside (name : List Char) (outer : List (List Char)) (lenient : Bool)
  | after
  deriving DecidableEq

def Position.leave : List (List Char) → Bool → Position
  | [], _ => .after
  | name :: outer, lenient => .inside name outer lenient

def allSpace (cs : List Char) : Bool :=
  cs.all isSpace

def StartTag.isSound (tag : StartTag) (lenient : Bool) : Bool :=
  tag.attributes.all fun a => areSound lenient a.references

def enter (name : List Char) (tag : StartTag) (outer : List (List Char)) (lenient : Bool)
    (place : List Char) : Option (Position × List Event) :=
  if !tag.isSound lenient then none
  else if tag.closed then
    some (.leave outer lenient, [.start (String.ofList name), .finish (String.ofList name) place])
  else some (.inside name outer lenient, [.start (String.ofList name)])

def advance (standalone : Bool) (position : Position) (t : Placed) :
    Option (Position × List Event) :=
  match position, t.token with
  | position, .aside => some (position, [])
  | .before lenient, .start name tag => enter name tag [] (lenient.getD false) t.place
  | .before none, .documentType type => do
    let lenient ← type.lenient? standalone
    return (.before (some lenient), [])
  | .before lenient, .text cs => if allSpace cs then some (.before lenient, []) else none
  | .inside name outer lenient, .start inner tag => enter inner tag (name :: outer) lenient t.place
  | .inside name outer lenient, .finish found =>
    if name = found then
      some (.leave outer lenient, [.finish (String.ofList name) t.place])
    else none
  | .inside name outer lenient, .text cs
  | .inside name outer lenient, .verbatim cs => some (.inside name outer lenient, [.text cs])
  | .inside name outer lenient, .reference (.char c) =>
    some (.inside name outer lenient, [.text [c]])
  | .inside name outer lenient, .reference .undeclared =>
    if lenient then some (.inside name outer lenient, []) else none
  | .after, .text cs => if allSpace cs then some (.after, []) else none
  | _, _ => none

/-- The events up to the end or to the first fault, and whether there is none. -/
def walk (standalone ended : Bool) : Position → List Placed → List Event × Bool
  | position, [] => ([], ended && position = .after)
  | position, t :: rest =>
    match advance standalone position t with
    | none => ([], false)
    | some (next, events) =>
      let more := walk standalone ended next rest
      (events ++ more.1, more.2)

structure Document where
  text : List Char
  events : List Event
  wellFormed : Bool
  deriving DecidableEq

def Document.ofBytes (bytes : List UInt8) : Document :=
  match readDeclared (Encoding.latin1.decode bytes) with
  | none => ⟨[], [], false⟩
  | some (declaration, _) =>
    let text := normalizeBreaks (declaration.encoding.decode bytes)
    match readDeclared text with
    | none => ⟨text, [], false⟩
    | some (_, body) =>
      let read := tokens declaration.encoding.addedLetters body
      let walked := walk declaration.standalone read.2 (.before none) read.1
      ⟨text, walked.1, walked.2⟩

def Document.line (d : Document) (place : List Char) : Nat :=
  1 + (d.text.take (d.text.length - place.length)).count '\n'

end LocaleAccessors.Xml
