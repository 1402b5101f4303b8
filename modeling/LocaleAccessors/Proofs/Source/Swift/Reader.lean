import LocaleAccessors.Proofs.Source.Parts
import LocaleAccessors.Proofs.Source.Swift.Literal

/-!
A reader of Swift files. It goes line by line, knows no lines but those that accessors are made of, and
gives the declarations in their order and nesting.
-/

namespace LocaleAccessors.Source.Swift

structure Parameter where
  name : String
  type : String
  deriving DecidableEq

/-- A translation that is looked up, and the table that it is looked up in. -/
structure Lookup where
  key : String
  table : Option String
  deriving DecidableEq

inductive Line where
  | silent
  | opening (name : String)
  | closing
  | property (name : String) (lookup : Lookup)
  | function (name : String) (parameters : List Parameter)
  | result (lookup : Lookup) (arguments : List String)
  deriving DecidableEq

/-- Declarations in their order. Each stands in front of those after it. A property is an accessor
without parameters. -/
inductive Declarations where
  | nil
  | accessor (name : String) (lookup : Lookup) (parameters : List Parameter)
      (arguments : List String) (others : Declarations)
  | struct (name : String) (members others : Declarations)
  deriving DecidableEq

def readString (cs : List Char) : Option (String × List Char) := do
  let (text, cs) ← readLiteral .plain (← after? "\"" cs)
  return (String.ofList text, cs)

def readTable (cs : List Char) : Option (Option String × List Char) :=
  match after? "tableName: " cs with
  | none => some (none, cs)
  | some cs => do
    let (table, cs) ← readString cs
    return (some table, ← after? ", " cs)

def readLookup (cs : List Char) : Option (Lookup × List Char) := do
  let (key, cs) ← readString (← after? "NSLocalizedString(" cs)
  let (table, cs) ← readTable (← after? ", " cs)
  return (⟨key, table⟩, ← after? "comment: \"\")" cs)

def readParameter (cs : List Char) : Option Parameter := do
  let (name, cs) ← readName (← after? "_ " cs)
  let (type, cs) ← readName (← after? " : " cs)
  if cs = [] then some ⟨name, type⟩ else none

def readArgument (cs : List Char) : Option String := do
  let (name, cs) ← readName cs
  if cs = [] then some name else none

def readOpening (cs : List Char) : Option Line := do
  let (name, cs) ← readName cs
  if cs = " \x7b".toList then some (.opening name) else none

def readProperty (cs : List Char) : Option Line := do
  let (name, cs) ← readName cs
  let (lookup, cs) ← readLookup (← after? " : String = " cs)
  if cs = [] then some (.property name lookup) else none

def readFunction (cs : List Char) : Option Line := do
  let (name, cs) ← readName cs
  return .function name (← readList readParameter ") -> String \x7b" (← after? "(" cs))

def readResult (cs : List Char) : Option Line := do
  let (lookup, cs) ← readLookup cs
  return .result lookup (← readList readArgument ")" (← after? ", " cs))

def keywords : List (String × (List Char → Option Line)) := [
  ("//", fun _ => some .silent),
  ("import ", fun _ => some .silent),
  ("public struct ", readOpening),
  ("public static var ", readProperty),
  ("public static func ", readFunction),
  ("return String(format: ", readResult)]

def readLine (line : List Char) : Option Line :=
  let cs := line.dropWhile (· == ' ')
  match keyword? keywords cs with
  | some (reader, rest) => reader rest
  | none =>
    if cs = [] then some .silent
    else if cs = ['\x7d'] then some .closing
    else none

/-- A block of which the lines after some line are known: its declarations, or the result of a function
that has nothing else in it. -/
inductive Block where
  | declarations (d : Declarations)
  | result (lookup : Lookup) (arguments : List String)

/-- Puts a line in front of the lines after it. These leave a stack of blocks without their opening
lines, the innermost first. -/
def precede : Line → List Block → Option (List Block)
  | .silent, blocks => some blocks
  | .closing, blocks => some (.declarations .nil :: blocks)
  | .opening name, .declarations members :: .declarations d :: blocks =>
    some (.declarations (.struct name members d) :: blocks)
  | .property name lookup, .declarations d :: blocks =>
    some (.declarations (.accessor name lookup [] [] d) :: blocks)
  | .result lookup arguments, .declarations .nil :: blocks =>
    some (.result lookup arguments :: blocks)
  | .function name parameters, .result lookup arguments :: .declarations d :: blocks =>
    some (.declarations (.accessor name lookup parameters arguments d) :: blocks)
  | _, _ => none

/-- The declarations of a file, read from its last line up. -/
def read (text : String) : Option Declarations := do
  let lines ← (linesOf text).mapM readLine
  match ← lines.foldrM precede [.declarations .nil] with
  | [.declarations d] => some d
  | _ => none

end LocaleAccessors.Source.Swift
