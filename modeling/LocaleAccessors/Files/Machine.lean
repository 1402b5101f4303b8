import LocaleAccessors.Files.Path

/-!
What a run meets that its words and its files do not tell: calls that the system refuses, the names
that are drawn for files put aside, words that are no text, a stream that fails, and the end of the
stack.
-/

namespace LocaleAccessors.Files

/-- The names on the way up from a node to the root. -/
abbrev Location := List String

def Location.path (l : Location) : Path :=
  ⟨.slash, l.reverse⟩

/-- What the program asks of the system. Only what a path leads to is looked at and read by the path. -/
inductive Call where
  | look (path : Path)
  | read (path : Path)
  | makeDirectory (place : Location)
  | create (place : Location)
  | write (place : Location)
  | close (place : Location)
  | copy (source goal : Location)
  | replace (source goal : Location)
  | remove (place : Location)
  deriving DecidableEq

/-- A call that is refused has no effect, but for some bytes that may have been written before. -/
structure Refusal where
  words : String
  taken : Option Nat := none

/-- What a character can stand for instead of itself. The words of a command line are bytes and need not
be text; a byte that is none can be part of the name of a file, the half of a surrogate pair cannot, and
neither has a form in UTF-8. -/
inductive StandIn where
  | byte
  | surrogate
  deriving DecidableEq

/-- A stream takes so many characters and then fails, and it refuses a text with a character that it has
no form for. -/
structure Stream where
  room : Option Nat := none
  forbidden : List Char := []
  words : String := ""

/-- The characters that a stream takes of a text, and the stream after it, unless it fails. -/
def Stream.write (stream : Stream) (text : String) : List Char × Option Stream :=
  if stream.forbidden.any fun c => c ∈ text.toList then ([], none)
  else
    match stream.room with
    | none => (text.toList, some stream)
    | some room =>
      if room < text.length then (text.toList.take room, none)
      else (text.toList, some { stream with room := some (room - text.length) })

/-- The characters that a stream takes of some texts, and whether it takes all of them. -/
def Stream.writeAll (stream : Stream) : List String → List Char × Bool
  | [] => ([], true)
  | text :: rest =>
    match stream.write text with
    | (taken, none) => (taken, false)
    | (taken, some stream) =>
      let more := stream.writeAll rest
      (taken ++ more.1, more.2)

/-- The walks through a tree that go as deep into the stack as the tree is. -/
inductive Walk where
  | counting
  | building
  | rendering
  deriving DecidableEq

/-- `draw` gives the number of the name that is tried beside a target at an attempt, `standIns` are the
characters that do not stand for themselves, none of them in ASCII, and `levels` is how deep a tree each
walk can follow. -/
structure Machine where
  refuses : Call → Option Refusal
  draw : Location → String → Nat → Nat
  standIns : List (Char × StandIn)
  foreign : ∀ entry ∈ standIns, 0x7F < entry.1.toNat
  stream : Stream
  levels : Walk → Nat

namespace Machine

/-- A system that refuses nothing, and words that are texts. -/
def plain : Machine where
  refuses _ := none
  draw _ _ attempt := attempt
  standIns := []
  foreign _ h := absurd h List.not_mem_nil
  stream := {}
  levels _ := 980

def size (machine : Machine) (name : String) : Nat :=
  name.toList.foldl (fun bytes c =>
    bytes + match machine.standIns.lookup c with
      | some .byte => 1
      | _ => c.utf8Size) 0

def isText (machine : Machine) (text : String) : Bool :=
  machine.standIns.all fun entry => entry.1 ∉ text.toList

def isName (machine : Machine) (text : String) : Bool :=
  machine.standIns.all fun entry => entry.2 = .byte ∨ entry.1 ∉ text.toList

end Machine
end LocaleAccessors.Files
