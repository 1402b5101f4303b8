import LocaleAccessors.Xml.Mark

/-!
Declarations of elements, attributes, entities and notations, as lists of marks. Little more than
their form matters, for entities may not be declared and attributes are passed over.
-/

namespace LocaleAccessors.Xml

def isPublicCharacter (c : Char) : Bool :=
  c.isAlphanum || c ∈ " \n\r-'()+,./:=?;!*#@$_%".toList

def isPublic (identifier : List Char) : Bool :=
  identifier.all isPublicCharacter

def isExternal : List Mark → Bool
  | [.name "SYSTEM" .once, .literal _] => true
  | [.name "PUBLIC" .once, .literal identifier, .literal _] => isPublic identifier
  | _ => false

/-! The content of an element. -/

inductive Connector where
  | sequence
  | choice
  deriving DecidableEq

mutual

/-- A particle is due, inside some open groups, the innermost first, each with its connector where
one was seen. -/
def isParticle : List (Option Connector) → List Mark → Bool
  | groups, .opening :: rest => isParticle (none :: groups) rest
  | groups, .name _ _ :: rest => isParticleEnd groups rest
  | _, _ => false

def isParticleEnd : List (Option Connector) → List Mark → Bool
  | [], [] => true
  | _ :: groups, .closing _ :: rest => isParticleEnd groups rest
  | connector :: groups, .comma :: rest =>
    connector ≠ some .choice && isParticle (some .sequence :: groups) rest
  | connector :: groups, .bar :: rest =>
    connector ≠ some .sequence && isParticle (some .choice :: groups) rest
  | _, _ => false

end

def isMixedEnd : List Mark → Bool
  | [.closing .zeroOrMore] => true
  | .bar :: .name _ .once :: rest => isMixedEnd rest
  | _ => false

def isContent : List Mark → Bool
  | [.name "EMPTY" .once] | [.name "ANY" .once] => true
  | [.opening, .keyword "PCDATA", .closing .once] => true
  | .opening :: .keyword "PCDATA" :: rest => isMixedEnd rest
  | .opening :: rest => isParticle [none] rest
  | _ => false

/-! Attributes. -/

inductive AttributePart where
  | name
  | type
  | group
  | choice (named : Bool)
  | choiceEnd (named : Bool)
  | preset
  | fixed
  deriving DecidableEq

def attributeTypes : List String :=
  ["CDATA", "ID", "IDREF", "IDREFS", "ENTITY", "ENTITIES", "NMTOKEN", "NMTOKENS"]

def AttributePart.next : AttributePart → Mark → Option AttributePart
  | .name, .name _ .once => some .type
  | .type, .opening => some (.choice false)
  | .type, .name word .once =>
    if word ∈ attributeTypes then some .preset
    else if word = "NOTATION" then some .group
    else none
  | .group, .opening => some (.choice true)
  | .choice named, .name _ .once => some (.choiceEnd named)
  | .choice false, .token _ => some (.choiceEnd false)
  | .choiceEnd named, .bar => some (.choice named)
  | .choiceEnd _, .closing .once => some .preset
  | .preset, .keyword "IMPLIED" | .preset, .keyword "REQUIRED" => some .name
  | .preset, .keyword "FIXED" => some .fixed
  | .preset, .literal _ | .fixed, .literal _ => some .name
  | _, _ => none

def isAttributeList (marks : List Mark) : Bool :=
  marks.foldlM AttributePart.next .name = some .name

def Mark.literal? : Mark → Option (List Char)
  | .literal text => some text
  | _ => none

/-! Declarations. -/

abbrev References := Option (List Reference)

/-- Of the presets of attributes the references are kept. An entity is harmless if it is declared
like one that needs no declaration. -/
inductive Markup where
  | passed
  | attributes (presets : List References)
  | entity (harmless : Bool)
  deriving DecidableEq

def isEntityValue (added value : List Char) : Bool :=
  '%' ∉ value && (references added value).isSome

/-- A definition of an entity. Where it is given by its value, tells whether the value is sound. -/
def entityDefinition (added : List Char) : List Mark → Option (Option Bool)
  | [.literal value] => some (some (isEntityValue added value))
  | marks => if isExternal marks then some none else none

def withoutFormat : List Mark → List Mark
  | [a, b, .name "NDATA" .once, .name _ .once] => [a, b]
  | [a, b, c, .name "NDATA" .once, .name _ .once] => [a, b, c]
  | marks => marks

def entityMarkup (added : List Char) : List Mark → Option Markup
  | .percent :: .name _ .once :: definition =>
    (entityDefinition added definition).map fun _ => .entity false
  | .name name .once :: definition => do
    let sound ← entityDefinition added (withoutFormat definition)
    return .entity ((knownEntity? name.toList).isSome && sound.getD true)
  | _ => none

def isFormat : List Mark → Bool
  | [.name _ .once, .name "PUBLIC" .once, .literal identifier] => isPublic identifier
  | .name _ .once :: definition => isExternal definition
  | _ => false

def Markup.ofMarks? (added : List Char) (keyword : String) (marks : List Mark) : Option Markup :=
  match keyword, marks with
  | "ELEMENT", .name _ .once :: content => if isContent content then some .passed else none
  | "ATTLIST", .name _ .once :: parts =>
    if isAttributeList parts then
      some (.attributes ((parts.filterMap Mark.literal?).map (valueReferences added)))
    else none
  | "ENTITY", marks => entityMarkup added marks
  | "NOTATION", marks => if isFormat marks then some .passed else none
  | _, _ => none

end LocaleAccessors.Xml
