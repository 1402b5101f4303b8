import LocaleAccessors.Format.Inference
import LocaleAccessors.Key.Tree
import LocaleAccessors.Name.Identifier

/-!
Namespaces of accessors, built from a tree of keys. The accessors and the inner namespaces of one
namespace have distinct names: the leaves of a group are named first, then its groups. A translation
whose specifiers are at fault has no accessor, but it keeps its name from the others.
-/

namespace LocaleAccessors
open Format (Argument Fault inferText)
open Key (Tree)
open Name (Rules distinctName)
open Table (Entry)

structure Accessor where
  name : String
  key : String
  translation : String
  arguments : List Argument
  deriving DecidableEq

inductive Namespaces where
  | nil
  | cons (name : String) (accessors : List Accessor) (inner siblings : Namespaces)
  deriving DecidableEq

structure Namespace where
  name : String
  accessors : List Accessor
  inner : Namespaces
  deriving DecidableEq

structure Failure where
  fault : Fault
  key : String
  translation : String
  deriving DecidableEq

def Failure.breakdown? (found : List Failure) : Option Fault :=
  (found.find? (·.fault.breaks)).map (·.fault)

def Failure.message (f : Failure) : String :=
  f.fault.message ++ " (key '" ++ f.key ++ "', translation \"" ++ f.translation ++ "\")"

def Failure.ofEntry? (entry : Entry) : Option Failure :=
  match inferText entry.value with
  | .ok _ => none
  | .error fault => some ⟨fault, entry.key, entry.value⟩

def Accessor.ofEntry? (name : String) (entry : Entry) : Option Accessor :=
  match inferText entry.value with
  | .ok arguments => some ⟨name, entry.key, entry.value, arguments⟩
  | .error _ => none

def namedLeaves (rules : Rules) (taken : List String) : Tree → List (String × Entry)
  | .nil => []
  | .leaf segment entry siblings =>
    let name := distinctName (rules.identifier segment) taken
    (name, entry) :: namedLeaves rules (name :: taken) siblings
  | .group _ _ siblings => namedLeaves rules taken siblings

def accessorsOf (rules : Rules) (children : Tree) : List Accessor :=
  (namedLeaves rules [] children).filterMap fun (name, entry) => Accessor.ofEntry? name entry

def Namespaces.ofGroups (rules : Rules) (taken : List String) : Tree → Namespaces
  | .nil => .nil
  | .leaf _ _ siblings => ofGroups rules taken siblings
  | .group segment children siblings =>
    let name := distinctName (rules.identifier segment) taken
    .cons name (accessorsOf rules children)
      (ofGroups rules ((namedLeaves rules [] children).map Prod.fst) children)
      (ofGroups rules (name :: taken) siblings)

def Namespace.ofTree (rules : Rules) (name : String) (tree : Tree) : Namespace :=
  ⟨name, accessorsOf rules tree,
    .ofGroups rules ((namedLeaves rules [] tree).map Prod.fst) tree⟩

def leafFailures : Tree → List Failure
  | .nil => []
  | .leaf _ entry siblings => (Failure.ofEntry? entry).toList ++ leafFailures siblings
  | .group _ _ siblings => leafFailures siblings

def groupFailures : Tree → List Failure
  | .nil => []
  | .leaf _ _ siblings => groupFailures siblings
  | .group _ children siblings =>
    leafFailures children ++ groupFailures children ++ groupFailures siblings

/-- All failures of a tree: in each group those of its leaves first, then those of its groups. -/
def failures (tree : Tree) : List Failure :=
  leafFailures tree ++ groupFailures tree

/-- The paths of the namespaces, each before those inside it. -/
def Namespaces.paths : Namespaces → List (List String)
  | .nil => []
  | .cons name _ inner siblings => [name] :: (paths inner).map (name :: ·) ++ paths siblings

/-- The paths below the root, whose own path is empty. -/
def Namespace.paths (n : Namespace) : List (List String) :=
  [] :: n.inner.paths

end LocaleAccessors
