import LocaleAccessors.PropertyList.Binary.Key
import LocaleAccessors.Table.Content

/-!
Binary property lists. After the header come the objects; a table gives their offsets, and a trailer
of 32 bytes tells where that table is, how wide its numbers are, and which object is the whole list.
All objects that the whole list leads to must be sound.
-/

namespace LocaleAccessors.PropertyList
open Table (Content maxDepth)

namespace Binary

structure File where
  bytes : List UInt8
  offsets : List Nat
  referenceWidth : Nat
  top : Nat

def File.ofBytes (bytes : List UInt8) : Option File := do
  let trailer ← takeExactly 32 (bytes.drop (bytes.length - 32))
  let field (start count : Nat) := number ((trailer.drop start).take count)
  let offsets ← readNumbers (field 6 1) (field 8 8) (bytes.drop (field 24 8))
  return ⟨bytes, offsets, field 7 1, field 16 8⟩

def File.object (f : File) (place : Nat) : Option Object := do
  let offset ← f.offsets[place]?
  match f.bytes.drop offset with
  | [] => none
  | first :: rest => readObject f.referenceWidth first rest

/-- An object is sound if it can be read and no key in it is a container. -/
def File.soundObject (f : File) (place : Nat) : Option Object := do
  let object ← f.object place
  match object with
  | .dictionary keys _ =>
    let keys ← keys.mapM f.object
    if keys.any Object.isContainer then none else return object
  | _ => return object

/-- The places seen after a visit to one, and to those that it leads to, if all objects there are
sound. An array takes three units of the room for nested objects, a dictionary takes one, and in the
end two must be left. A place is visited only once. -/
def File.visit (f : File) (room : Nat) (seen : List Nat) (place : Nat) : Option (List Nat) :=
  if place ∈ seen then some seen
  else
    match room with
    | 0 | 1 => none
    | room + 2 => do
      let seen := place :: seen
      match ← f.soundObject place with
      | .array items => items.foldlM (f.visit (room - 1)) seen
      | .dictionary keys values =>
        (keys.zip values).foldlM (fun seen (key, value) => do
          f.visit (room + 1) (← f.visit (room + 1) seen value) key) seen
      | _ => return seen
termination_by room
decreasing_by all_goals omega

def File.members (f : File) : List (Nat × Nat) → Option (List Member)
  | [] => some []
  | (key, value) :: rest => do
    let object ← f.object key
    let member : Member := ⟨object.identity key, object.label, (← f.object value).item⟩
    return member :: (← f.members rest)

def File.content (f : File) : Option Content := do
  let _ ← f.visit maxDepth [] f.top
  match ← f.object f.top with
  | .dictionary keys values => return .dictionary (assignMembers (← f.members (keys.zip values)))
  | object => return .single object.item

end Binary

def ofBinary (bytes : List UInt8) : Option Content := do
  (← Binary.File.ofBytes bytes).content

end LocaleAccessors.PropertyList
