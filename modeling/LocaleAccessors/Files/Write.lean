import LocaleAccessors.Files.Store
import LocaleAccessors.Log
import LocaleAccessors.Text.Utf8

/-!
Writing several files as one unit. Every text is first staged in a temporary file beside its target;
then, if there are several targets, those that exist are copied aside; only then do the temporary
files take the places of the targets. A fault on the way undoes what was replaced, and in every case
the temporary files and the copies are removed. Directories that were made stay, and so does what the
system does not let go.
-/

namespace LocaleAccessors.Files

def nameLetters : List Char :=
  "abcdefghijklmnopqrstuvwxyz0123456789_".toList

def drawnLetters : Nat → Nat → List Char
  | 0, _ => []
  | count + 1, number => nameLetters.getD (number % 37) 'a' :: drawnLetters count (number / 37)

/-- The name of a file that is put aside: the target's name between dots, eight letters and an
ending. -/
def asideName (target ending : String) (number : Nat) : String :=
  "." ++ target ++ "." ++ String.ofList (drawnLetters 8 number) ++ ending

def stagedEnding : String := ".tmp"

def keptEnding : String := ".bak"

def maxTries : Nat := 10000

def Machine.asidePlace (machine : Machine) (directory : Location) (name ending : String)
    (attempt : Nat) : Location :=
  asideName name ending (machine.draw directory (name ++ ending) attempt) :: directory

namespace Store

def freePlace? (s : Store) (directory : Location) (name ending : String) : Nat → Nat → Option Location
  | 0, _ => none
  | tries + 1, attempt =>
    let l := s.machine.asidePlace directory name ending attempt
    if (s.node? l).isSome then s.freePlace? directory name ending tries (attempt + 1) else some l

/-- Makes an empty file beside the target, where its directory must be. The file is made by its path
from the root, which can be too long where that of the target is not. -/
def create (s : Store) (target : Path) (ending : String) : Except PathFault (Store × Location) := do
  let directory ← s.locate target.parent
  let name := target.name?.getD ""
  if ¬ s.machine.isName name then .error .unencodable
  else if '\x00' ∈ name.toList then .error .nullCharacter
  else
    match s.freePlace? directory name ending maxTries 0 with
    | none => .error .exists
    | some l =>
      if maxName < s.machine.size (l.headD "") then .error .nameTooLong
      else if maxPath < s.machine.size l.path.text then .error .nameTooLong
      else
        match s.refused? (.create l) with
        | some fault => .error fault
        | none => .ok (s.put l (.file []), l)

/-- Removes a file that was put aside, if it is there. What the system does not let be looked at or
removed stays. -/
def discard (s : Store) (l : Location) : Store :=
  match s.node? l, s.refused? (.look l.path), s.refused? (.remove l) with
  | some _, none, none => s.remove l
  | _, _, _ => s

def discardAll (s : Store) (places : List Location) : Store :=
  places.foldl discard s

/-- Writes the bytes of a file that was made. It is closed in every case, and where closing it fails,
it stays; where only the writing fails, it is removed. -/
def fill (s : Store) (l : Location) (bytes : List UInt8) : Store × Option PathFault :=
  match s.machine.refuses (.write l), s.refused? (.close l) with
  | none, fault => (s.put l (.file bytes), fault)
  | some refusal, some fault => (s.put l (.file (bytes.take (refusal.taken.getD 0))), some fault)
  | some refusal, none =>
    ((s.put l (.file (bytes.take (refusal.taken.getD 0)))).discard l, some (.refused refusal.words))

/-- Stages one text. The directories above the target are made. -/
def stage (s : Store) (target : Path) (text : String) : Store × Except PathFault Location :=
  match s.ensureDirectory target.parent with
  | (s, some fault) => (s, .error fault)
  | (s, none) =>
    match s.create target stagedEnding with
    | .error fault => (s, .error fault)
    | .ok (s, l) =>
      match s.fill l (Text.Utf8.encode text) with
      | (s, some fault) => (s, .error fault)
      | (s, none) => (s, .ok l)

/-- Copies a file over another one. A refusal can come when a part is already written. -/
def copy (s : Store) (source goal : Location) : Store × Option PathFault :=
  match s.node? source, s.machine.refuses (.copy source goal) with
  | none, _ => (s, some .notFound)
  | some .directory, _ => (s, some .isDirectory)
  | some (.file bytes), none => (s.put goal (.file bytes), none)
  | some (.file _), some ⟨words, none⟩ => (s, some (.refused words))
  | some (.file bytes), some ⟨words, some taken⟩ =>
    (s.put goal (.file (bytes.take taken)), some (.refused words))

def keep (s : Store) (target : Path) : Store × Except PathFault (Option Location) :=
  match s.look target with
  | .error fault => (s, .error fault)
  | .ok none => (s, .ok none)
  | .ok (some (source, _)) =>
    match s.create target keptEnding with
    | .error fault => (s, .error fault)
    | .ok (s, l) =>
      match s.refused? (.close l) with
      | some fault => (s, .error fault)
      | none =>
        match s.copy source l with
        | (s, some fault) => (s.discard l, .error fault)
        | (s, none) => (s, .ok (some l))

def replace (s : Store) (target : Path) (staged : Location) : Except PathFault Store := do
  let l ← s.locate target
  match s.node? l, s.node? staged, s.refused? (.replace staged l) with
  | some .directory, _, _ => .error .isDirectory
  | _, none, _ => .error .notFound
  | _, some _, some fault => .error fault
  | _, some node, none => .ok ((s.remove staged).put l node)

/-- Brings a replaced target back to what was kept of it, unless the system refuses it. -/
def restore (s : Store) (target : Path) (kept : Option Location) : Store × Option PathFault :=
  match s.locate target, kept with
  | .error fault, _ => (s, some fault)
  | .ok l, some kept => s.copy kept l
  | .ok l, none =>
    match s.refused? (.remove l) with
    | some fault => (s, some fault)
    | none => (s.remove l, none)

structure Progress (α : Type) where
  store : Store
  done : List α
  fault : Option PathFault

def stageAll (s : Store) : List (Path × String) → Progress Location
  | [] => ⟨s, [], none⟩
  | (target, text) :: rest =>
    match s.stage target text with
    | (s, .error fault) => ⟨s, [], some fault⟩
    | (s, .ok l) =>
      let more := s.stageAll rest
      ⟨more.store, l :: more.done, more.fault⟩

def keepAll (s : Store) : List Path → Progress (Option Location)
  | [] => ⟨s, [], none⟩
  | target :: rest =>
    match s.keep target with
    | (s, .error fault) => ⟨s, [], some fault⟩
    | (s, .ok kept) =>
      let more := s.keepAll rest
      ⟨more.store, kept :: more.done, more.fault⟩

/-- One target has nothing to be undone with it. -/
def keepSeveral (s : Store) (targets : List Path) : Progress (Option Location) :=
  if 1 < targets.length then s.keepAll targets else ⟨s, targets.map fun _ => none, none⟩

/-- How a run of replacements ends: how many targets were replaced, what was told, and the fault of the
next one. -/
structure Ending where
  store : Store
  replaced : Nat
  records : List Record
  fault : Option PathFault

def wroteRecord (target : Path) : Record :=
  ⟨.debug, .output, "Wrote " ++ target.text⟩

def restoredRecord (target : Path) : Option PathFault → Record
  | none => ⟨.warning, .output, "Restored " ++ target.text ++ " after a failed write"⟩
  | some _ => ⟨.error, .output, "Could not restore " ++ target.text ++ " after a failed write"⟩

def replaceAll (s : Store) : List (Path × Location × Option Location) → Ending
  | [] => ⟨s, 0, [], none⟩
  | (target, staged, kept) :: rest =>
    match s.replace target staged with
    | .error fault => ⟨s, 0, [], some fault⟩
    | .ok s =>
      let more := s.replaceAll rest
      let records := wroteRecord target :: more.records
      match more.fault with
      | none => ⟨more.store, more.replaced + 1, records, none⟩
      | some fault =>
        let restored := more.store.restore target kept
        ⟨restored.1, more.replaced + 1, records ++ [restoredRecord target restored.2], some fault⟩

/-- Writes the texts to their targets, or none of them. -/
def write (s : Store) (files : List (Path × String)) : Ending :=
  let targets := files.map Prod.fst
  let staged := s.stageAll files
  match staged.fault with
  | some fault => ⟨staged.store.discardAll staged.done, 0, [], some fault⟩
  | none =>
    let kept := staged.store.keepSeveral targets
    let aside := staged.done ++ kept.done.filterMap id
    match kept.fault with
    | some fault => ⟨kept.store.discardAll aside, 0, [], some fault⟩
    | none =>
      let ending := kept.store.replaceAll (targets.zip (staged.done.zip kept.done))
      { ending with store := ending.store.discardAll aside }

end Store
end LocaleAccessors.Files
