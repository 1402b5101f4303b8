import LocaleAccessors.Xml.Reference

/-!
Tags. Of attributes only what a tag needs to be well formed is looked at.
-/

namespace LocaleAccessors.Xml
open Text (Read readChar readRun)

structure Attribute where
  name : List Char
  references : List Reference
  deriving DecidableEq

def equalsSign (c : Char) : Bool := c = '='

def readAttribute (added cs : List Char) : Option (Read Attribute cs) := do
  let name ← readName added cs
  let sign ← (name.skip isSpace).andThen (readChar equalsSign)
  let value ← (sign.skip isSpace).andThen readLiteral
  let references ← valueReferences added value.value
  return value.map fun _ => ⟨name.value, references⟩

structure StartTag where
  attributes : List Attribute
  closed : Bool
  deriving DecidableEq

def readTagEnd (cs : List Char) : Option (Read Bool cs) :=
  match cs with
  | '>' :: _ => some (.first false)
  | '/' :: '>' :: _ => some (Read.first true).after
  | _ => none

def readAttributes (added cs : List Char) : Option (Read StartTag cs) :=
  match readTagEnd cs with
  | some done => some (done.map fun closed => ⟨[], closed⟩)
  | none => do
    let space ← readRun isSpace cs
    match readTagEnd space.rest with
    | some done => return space.follow (fun _ closed => ⟨[], closed⟩) done
    | none => do
      let first ← readAttribute added space.rest
      let tag ← readAttributes added first.rest
      return space.follow (fun _ tag => tag)
        (first.follow (fun a tag => { tag with attributes := a :: tag.attributes }) tag)
termination_by cs.length
decreasing_by exact Nat.lt_trans first.shorter space.shorter

end LocaleAccessors.Xml
