import LocaleAccessors.Namespace

/-!
Building the namespaces of a tree in one walk, which reports each failure where it is met. A report
may note the failure down, so that the walk goes on without the accessor, or end the walk. A fault that
breaks the reading of a translation off ends every walk.
-/

namespace LocaleAccessors
open Format (Fault inferText)
open Key (Tree)
open Name (Rules distinctName)
open Table (Entry)

section walk
variable {m : Type → Type} [Monad m] (report : Failure → m Unit) (rules : Rules)

def buildAccessor (name : String) (entry : Entry) : m (List Accessor) :=
  match inferText entry.value with
  | .ok arguments => return [⟨name, entry.key, entry.value, arguments⟩]
  | .error fault => do
    report ⟨fault, entry.key, entry.value⟩
    return []

def buildLeaves (taken : List String) : Tree → m (List Accessor × List String)
  | .nil => return ([], [])
  | .leaf segment entry siblings => do
    let name := distinctName (rules.identifier segment) taken
    let here ← buildAccessor report name entry
    let (accessors, names) ← buildLeaves (name :: taken) siblings
    return (here ++ accessors, name :: names)
  | .group _ _ siblings => buildLeaves taken siblings

def buildGroups (taken : List String) : Tree → m Namespaces
  | .nil => return .nil
  | .leaf _ _ siblings => buildGroups taken siblings
  | .group segment children siblings => do
    let name := distinctName (rules.identifier segment) taken
    let (accessors, names) ← buildLeaves report rules [] children
    let inner ← buildGroups names children
    let others ← buildGroups (name :: taken) siblings
    return .cons name accessors inner others

def Namespace.build (name : String) (tree : Tree) : m Namespace := do
  let (accessors, names) ← buildLeaves report rules [] tree
  return ⟨name, accessors, ← buildGroups report rules names tree⟩

end walk

inductive BuildFault where
  | failure (failure : Failure)
  | breakdown (fault : Fault)
  deriving DecidableEq

def noteFailure (failure : Failure) : StateT (List Failure) (Except Fault) Unit :=
  if failure.fault.breaks then throw failure.fault else modify (· ++ [failure])

def raiseFailure (failure : Failure) : Except BuildFault Unit :=
  throw (if failure.fault.breaks then .breakdown failure.fault else .failure failure)

/-- The namespaces without the translations at fault, whose failures come after those in the list. -/
def Namespace.collect (rules : Rules) (name : String) (tree : Tree) :
    StateT (List Failure) (Except Fault) Namespace :=
  build noteFailure rules name tree

def Namespace.strict (rules : Rules) (name : String) (tree : Tree) : Except BuildFault Namespace :=
  build raiseFailure rules name tree

end LocaleAccessors
