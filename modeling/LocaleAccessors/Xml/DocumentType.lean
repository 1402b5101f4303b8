import LocaleAccessors.Xml.Markup

/-!
Document types, comments and processing instructions. Parts of a document type that are kept outside
the text are not read.
-/

namespace LocaleAccessors.Xml
open Text (Read readChar readRun readUntil readWord)

def angleBracket (c : Char) : Bool := c = '>'

def readComment (cs : List Char) : Option (Read Unit cs) := do
  let r ← readUntil ['-', '-'] cs
  if r.value.all isCharacter then
    let done ← r.andThen (readChar angleBracket)
    return done.map fun _ => ()
  else none

/-- The rest of a processing instruction. The name `xml` is kept for the declaration of the text. -/
def readInstruction (added cs : List Char) : Option (Read Unit cs) := do
  let name ← readName added cs
  if name.value.map Char.toLower = ['x', 'm', 'l'] then none
  else
    match name.rest with
    | '?' :: _ => name.andThen (readWord ['?', '>'])
    | _ =>
      let space ← name.andThen (readRun isSpace)
      let r ← space.andThen (readUntil ['?', '>'])
      if r.value.all isCharacter then return r.map fun _ => () else none

/-- A part of a document type. A reference stands for declarations that are not read. -/
inductive DocumentTypePart where
  | markup (m : Markup)
  | reference
  | aside
  deriving DecidableEq

def readMarkup (added cs : List Char) : Option (Read Markup cs) := do
  let keyword ← readRun (startsName added) cs
  let space ← keyword.andThen (readRun isSpace)
  let marks ← space.andThen (readMarks added)
  if marks.value.bracket then none
  else
    let m ← Markup.ofMarks? added (String.ofList keyword.value) marks.value.marks
    return marks.map fun _ => m

def readPart (added cs : List Char) : Option (Read DocumentTypePart cs) :=
  match cs with
  | '<' :: '!' :: '-' :: '-' :: rest =>
    (readComment rest).map fun r =>
      (r.map fun _ => DocumentTypePart.aside).after.after.after.after
  | '<' :: '?' :: rest =>
    (readInstruction added rest).map fun r =>
      (r.map fun _ => DocumentTypePart.aside).after.after
  | '<' :: '!' :: rest =>
    (readMarkup added rest).map fun r => (r.map DocumentTypePart.markup).after.after
  | '%' :: rest => do
    let name ← readName added rest
    let done ← name.andThen (readChar semicolon)
    return (done.map fun _ => .reference).after
  | cs => (readRun isSpace cs).map fun r => r.map fun _ => .aside

def readParts (added cs : List Char) : Option (Read (List DocumentTypePart) cs) :=
  match cs with
  | ']' :: _ => some (.first [])
  | cs => do
    let part ← readPart added cs
    let more ← readParts added part.rest
    return part.follow (· :: ·) more
termination_by cs.length
decreasing_by exact part.shorter

structure DocumentType where
  external : Bool
  parts : List DocumentTypePart
  deriving DecidableEq

def externalOf? : List Mark → Option Bool
  | [.name _ .once] => some false
  | .name _ .once :: identifier => if isExternal identifier then some true else none
  | _ => none

def readDocumentType (added cs : List Char) : Option (Read DocumentType cs) := do
  let space ← readRun isSpace cs
  let marks ← space.andThen (readMarks added)
  let external ← externalOf? marks.value.marks
  if marks.value.bracket then
    let parts ← marks.andThen (readParts added)
    let done ← (parts.skip isSpace).andThen (readChar angleBracket)
    return done.map fun _ => ⟨external, parts.value⟩
  else return marks.map fun _ => ⟨external, []⟩

namespace DocumentType

/-- What is known while the parts are gone through: whether there are declarations that are not
read, and whether the others still count. -/
structure Progress where
  unread : Bool
  counts : Bool
  deriving DecidableEq

/-- Where there are declarations that are not read, undeclared entities are passed over, unless the
text stands alone. -/
def Progress.lenient (p : Progress) (standalone : Bool) : Bool :=
  p.unread && !standalone

def isHarmless (lenient : Bool) : Markup → Bool
  | .passed => true
  | .attributes presets => presets.all fun references => references.any (areSound lenient)
  | .entity harmless => harmless

/-- Declarations that are not read may overrule all that come after them. -/
def Progress.step (standalone : Bool) (p : Progress) : DocumentTypePart → Option Progress
  | .aside => some p
  | .reference => some ⟨true, standalone⟩
  | .markup m => if !p.counts || isHarmless (p.lenient standalone) m then some p else none

/-- Whether undeclared entities are passed over in a text of this type. A type with a declaration that
does harm is refused. -/
def lenient? (t : DocumentType) (standalone : Bool) : Option Bool :=
  (t.parts.foldlM (Progress.step standalone) ⟨t.external, true⟩).map (·.lenient standalone)

end DocumentType

end LocaleAccessors.Xml
