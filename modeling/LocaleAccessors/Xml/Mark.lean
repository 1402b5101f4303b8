import LocaleAccessors.Xml.Reference

/-!
The marks that declarations in a document type are made of. What may follow a mark is part of how it
is read: two quoted texts, for one, never touch.
-/

namespace LocaleAccessors.Xml
open Text (Read readRun)

inductive Occurrence where
  | once
  | optional
  | zeroOrMore
  | oneOrMore
  deriving DecidableEq

/-- A token is like a name, but starts with a character that no name starts with. A keyword has a
number sign in front. -/
inductive Mark where
  | name (text : String) (occurs : Occurrence)
  | token (text : String)
  | keyword (text : String)
  | literal (text : List Char)
  | opening
  | closing (occurs : Occurrence)
  | comma
  | bar
  | percent
  deriving DecidableEq

def goesOn (p : Char → Bool) (cs : List Char) : Bool :=
  cs.head?.any p

def isSpaceOr (signs : List Char) (c : Char) : Bool :=
  isSpace c || c ∈ signs

def readOccurrence (cs : List Char) : Option (Read Occurrence cs) :=
  match cs with
  | '?' :: _ => some (.first .optional)
  | '*' :: _ => some (.first .zeroOrMore)
  | '+' :: _ => some (.first .oneOrMore)
  | _ => none

def readWordMark (added cs : List Char) : Option (Read Mark cs) := do
  let word ← readRun (continuesName added) cs
  let text := String.ofList word.value
  let isName := goesOn (startsName added) word.value
  if goesOn (isSpaceOr ['>', ')', ',', '|', '[']) word.rest then
    return word.map fun _ => if isName then .name text .once else .token text
  else if isName then
    let occurs ← word.andThen readOccurrence
    return occurs.map (.name text)
  else none

def readClosing (cs : List Char) : Option (Read Mark cs) :=
  match cs with
  | ')' :: rest =>
    match readOccurrence rest with
    | some occurs => some (occurs.map .closing).after
    | none =>
      if goesOn (isSpaceOr ['>', ')', ',', '|']) rest then some (.first (.closing .once)) else none
  | _ => none

def readKeyword (added cs : List Char) : Option (Read Mark cs) := do
  let word ← readName added cs
  if goesOn (isSpaceOr ['>', ')', '|']) word.rest then
    return word.map fun text => .keyword (String.ofList text)
  else none

def readMark (added cs : List Char) : Option (Read Mark cs) :=
  match cs with
  | '(' :: _ => some (.first .opening)
  | ')' :: rest => readClosing (')' :: rest)
  | ',' :: _ => some (.first .comma)
  | '|' :: _ => some (.first .bar)
  | '%' :: rest => if goesOn isSpace rest then some (.first .percent) else none
  | '#' :: rest => (readKeyword added rest).map Read.after
  | cs =>
    match readLiteral cs with
    | some text => if goesOn (isSpaceOr ['>', '[']) text.rest then some (text.map .literal) else none
    | none => readWordMark added cs

/-- Marks up to the end of a declaration, or up to the bracket that opens the inner part of a
document type. -/
structure Marks where
  marks : List Mark
  bracket : Bool
  deriving DecidableEq

def readMarks (added cs : List Char) : Option (Read Marks cs) :=
  match cs with
  | [] => none
  | c :: rest =>
    if c = '>' then some (.first ⟨[], false⟩)
    else if c = '[' then some (.first ⟨[], true⟩)
    else if isSpace c then (readMarks added rest).map Read.after
    else do
      let mark ← readMark added (c :: rest)
      let more ← readMarks added mark.rest
      return mark.follow (fun mark more => { more with marks := mark :: more.marks }) more
termination_by cs.length
decreasing_by
  · exact Nat.lt_succ_self _
  · exact mark.shorter

end LocaleAccessors.Xml
