import LocaleAccessors.Files.Machine

/-!
Files and directories. A path is followed part by part from the working directory or the root; each
part but the last must lead to a directory that exists.
-/

namespace LocaleAccessors.Files

inductive Node where
  | file (bytes : List UInt8)
  | directory
  deriving DecidableEq

structure Store where
  working : Location
  nodes : List (Location × Node)
  machine : Machine := .plain

inductive PathFault where
  | unencodable
  | nullCharacter
  | notFound
  | notDirectory
  | nameTooLong
  | exists
  | isDirectory
  | tooDeep
  | refused (words : String)
  deriving DecidableEq

def maxName : Nat := 255

def maxPath : Nat := 4095

def maxLevels : Nat := 984

namespace Store

/-- The root is always there. -/
def node? (s : Store) (l : Location) : Option Node :=
  if l = [] then some .directory else s.nodes.lookup l

def put (s : Store) (l : Location) (node : Node) : Store :=
  { s with nodes := (l, node) :: s.nodes.filter (·.1 ≠ l) }

def remove (s : Store) (l : Location) : Store :=
  { s with nodes := s.nodes.filter (·.1 ≠ l) }

def follow (s : Store) (l : Location) (part : String) : Except PathFault Location :=
  match s.node? l with
  | none => .error .notFound
  | some (.file _) => .error .notDirectory
  | some .directory =>
    if part = ".." then .ok l.tail
    else if maxName < s.machine.size part then .error .nameTooLong
    else .ok (part :: l)

/-- Where a path leads. There need not be anything yet. -/
def locate (s : Store) (p : Path) : Except PathFault Location :=
  if ¬ s.machine.isName p.text then .error .unencodable
  else if '\x00' ∈ p.text.toList then .error .nullCharacter
  else if maxPath < s.machine.size p.text then .error .nameTooLong
  else
    let start :=
      match p.root with
      | .relative => s.working
      | _ => []
    p.parts.foldlM s.follow start

def find (s : Store) (p : Path) : Except PathFault Node := do
  match s.node? (← s.locate p) with
  | some node => .ok node
  | none => .error .notFound

def bytes (s : Store) (p : Path) : Except PathFault (List UInt8) := do
  match ← s.find p with
  | .file bytes => .ok bytes
  | .directory => .error .isDirectory

/-! What the program does with the files. Each call can be refused. -/

def refused? (s : Store) (call : Call) : Option PathFault :=
  (s.machine.refuses call).map fun refusal => .refused refusal.words

/-- What is at a path, if anything is. What cannot be a path leads nowhere; a name that is too long and
a refusal are faults. -/
def look (s : Store) (p : Path) : Except PathFault (Option (Location × Node)) :=
  match s.locate p, s.refused? (.look p) with
  | .error .unencodable, _ | .error .nullCharacter, _ => .ok none
  | _, some fault => .error fault
  | .error .nameTooLong, none => .error .nameTooLong
  | .error _, none => .ok none
  | .ok l, none => .ok ((s.node? l).map fun node => (l, node))

def makeDirectory (s : Store) (p : Path) : Except PathFault Store := do
  let l ← s.locate p
  match s.node? l, s.refused? (.makeDirectory l) with
  | some _, _ => .error .exists
  | none, some fault => .error fault
  | none, none => .ok (s.put l .directory)

def unlessDirectory (s : Store) (p : Path) (fault : PathFault) : Option PathFault :=
  match s.look p with
  | .ok (some (_, .directory)) => none
  | .ok _ => some fault
  | .error fault => some fault

/-- Makes a directory and those above it, where they are missing. The parts are those of the path
from the last one on, and `levels` of them are tried. What was made before a fault stays. -/
def ensureParts (s : Store) (root : Root) (levels : Nat) : List String → Store × Option PathFault
  | [] => (s, none)
  | part :: outer =>
    if levels = 0 then (s, some .tooDeep)
    else
      let p : Path := ⟨root, (part :: outer).reverse⟩
      match s.makeDirectory p with
      | .ok s => (s, none)
      | .error .notFound =>
        match s.ensureParts root (levels - 1) outer with
        | (s, some fault) => (s, some fault)
        | (s, none) =>
          match s.makeDirectory p with
          | .ok s => (s, none)
          | .error fault => (s, s.unlessDirectory p fault)
      | .error fault => (s, s.unlessDirectory p fault)

def ensureDirectory (s : Store) (p : Path) : Store × Option PathFault :=
  s.ensureParts p.root maxLevels p.parts.reverse

end Store
end LocaleAccessors.Files
