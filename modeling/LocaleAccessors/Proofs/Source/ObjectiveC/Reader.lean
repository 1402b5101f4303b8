import LocaleAccessors.Proofs.Source.Parts

/-!
A reader of the classes in Objective-C headers and implementations, line by line. Outside the blocks of
classes, and in the bodies of methods, it skips what it does not know.
-/

namespace LocaleAccessors.Source.ObjectiveC

/-- A method of a class, or one of its instances, with the type that it returns. -/
structure Method where
  ofClass : Bool
  type : String
  name : String
  deriving DecidableEq

structure Block where
  className : String
  methods : List Method
  deriving DecidableEq

inductive Line where
  | silent
  | method (m : Method)
  | ending
  deriving DecidableEq

def readType : Nat → List Char → Option (List Char × List Char)
  | _, [] => none
  | depth, c :: rest =>
    if c = '(' then prepend c (readType (depth + 1) rest)
    else if c = ')' then
      if depth = 0 then some ([], rest) else prepend c (readType (depth - 1) rest)
    else prepend c (readType depth rest)

/-- A method from its type on. A declaration and a definition differ in what they end with. -/
def readMethod (ending : String) (ofClass : Bool) (cs : List Char) : Option Line := do
  let (type, cs) ← readType 0 cs
  let (name, cs) ← readName cs
  if cs = ending.toList then some (.method ⟨ofClass, String.ofList type, name⟩) else none

/-- What begins the lines in a block that say something. A comment says nothing, and no block begins
inside another one. -/
def keywords (ending : String) : List (String × (List Char → Option Line)) := [
  ("///", fun _ => some .silent),
  ("- (", readMethod ending false),
  ("+ (", readMethod ending true),
  ("@end", fun rest => if rest = [] then some .ending else none),
  ("@interface", fun _ => none),
  ("@implementation", fun _ => none)]

def readLine (ending : String) (line : List Char) : Option Line :=
  match keyword? (keywords ending) line with
  | some (reader, rest) => reader rest
  | none => some .silent

def opening? (keyword : String) (line : List Char) : Option String :=
  (after? keyword line).bind fun rest => (readName rest).map Prod.fst

/-- The blocks of some lines, where `block` is the one that the lines before them leave open. -/
def readBlocks (keyword ending : String) : Option Block → List (List Char) → Option (List Block)
  | none, [] => some []
  | some _, [] => none
  | none, line :: lines =>
    match opening? keyword line with
    | some name => readBlocks keyword ending (some ⟨name, []⟩) lines
    | none => readBlocks keyword ending none lines
  | some block, line :: lines =>
    match readLine ending line with
    | some .silent => readBlocks keyword ending (some block) lines
    | some (.method m) =>
      readBlocks keyword ending (some { block with methods := block.methods ++ [m] }) lines
    | some .ending => (readBlocks keyword ending none lines).map (block :: ·)
    | none => none

def declared (header : String) : Option (List Block) :=
  readBlocks "@interface " ";" none (linesOf header)

def defined (implementation : String) : Option (List Block) :=
  readBlocks "@implementation " " \x7b" none (linesOf implementation)

end LocaleAccessors.Source.ObjectiveC
