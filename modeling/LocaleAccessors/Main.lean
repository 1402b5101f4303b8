import LocaleAccessors.CommandLine.Run
import LocaleAccessors.Files.Changes

/-!
The program: it looks at the files that a command line names, runs on what it has seen, and brings
the files on the disk to the state that the run has left.
-/

namespace LocaleAccessors
open Files (Location Node Path Store)
open Text (CodePoint numeral)

def nodeOnDisk (l : Location) : IO (Option Node) := do
  let place := System.mkFilePath [l.path.text]
  if ← place.isDir then return some .directory
  try
    return some (.file (← IO.FS.readBinFile place).toList)
  catch _ => return none

def lookAt (s : Store) (p : Path) : IO Store :=
  (List.range (p.parts.length + 1)).foldlM (fun s count => do
    match s.locate { p with parts := p.parts.take count } with
    | .error _ => return s
    | .ok l => return ((← nodeOnDisk l).map (s.put l)).getD s) s

def storeFor (words : List String) : IO Store := do
  let working := (Path.ofString (← IO.currentDir).toString).parts.reverse
  let start ← lookAt { working, nodes := [] } ⟨.slash, working.reverse⟩
  match CommandLine.arguments words with
  | .error _ => return start
  | .ok a =>
    let paths := a.input :: a.output.toList ++ (a.output.bind headerPath).toList
    paths.foldlM lookAt start

def stagingName (p : Path) : String :=
  let name := Files.asideName (p.name?.getD "") Files.stagedEnding 0
  { p.parent with parts := p.parent.parts ++ [name] }.text

def applyChanges (before after : Store) : IO Unit := do
  let whole (s : Store) : Store := { s with working := [] }
  let changed := (Files.changes (whole before) (whole after)).changed.map fun (name, node) =>
    (Path.ofString ("/" ++ name), node)
  for (path, node) in changed do
    match node with
    | .directory => IO.FS.createDirAll path.text
    | .file bytes => IO.FS.writeBinFile (stagingName path) ⟨bytes.toArray⟩
  for (path, node) in changed do
    if node ≠ .directory then IO.FS.rename (stagingName path) path.text

def shown (text : List CodePoint) : String :=
  String.join (text.map fun c =>
    match c.char? with
    | some c => String.singleton c
    | none => "\\u" ++ String.ofList (numeral 16 4 c.value))

def perform (words : List String) : IO UInt32 := do
  let store ← storeFor words
  let outcome := CommandLine.run store words
  (← IO.getStderr).putStr (shown outcome.messages)
  match outcome.exit with
  | .ok code =>
    applyChanges store outcome.store
    (← IO.getStdout).putStr outcome.output
    return code.number.toUInt32
  | .error breakdown =>
    (← IO.getStderr).putStr (shown (CommandLine.unlines breakdown.messages))
    return 1

def program (words : List String) : IO UInt32 := do
  try
    perform words
  catch e =>
    IO.eprintln ("Error: Cannot write output file: " ++ toString e)
    return ExitCode.inputOutput.number.toUInt32

end LocaleAccessors

def main (words : List String) : IO UInt32 :=
  LocaleAccessors.program words
