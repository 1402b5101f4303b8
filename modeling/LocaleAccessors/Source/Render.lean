import LocaleAccessors.Log
import LocaleAccessors.Source.ObjectiveC
import LocaleAccessors.Source.Swift

/-!
Sources rendered from a tree of keys. The options must be in order and no translation at fault; a
tree with faults renders to nothing, but to the list of all of them, if all of it can be read.
-/

namespace LocaleAccessors.Source
open Key (Tree)

/-- Only Objective-C has a header. -/
structure Rendered where
  language : Language
  implementation : String
  header : Option String
  deriving DecidableEq

inductive RenderFault where
  | options (fault : OptionFault)
  | breakdown (fault : Format.Fault)
  | translations (first : Failure) (others : List Failure)
  deriving DecidableEq

def namespaceOf (o : Options) (tree : Tree) : Namespace :=
  .ofTree (.of o.language o.capitalize) o.baseName tree

def sourceOf (o : Options) (root : Namespace) : Rendered :=
  match o.language with
  | .swift => ⟨.swift, Swift.file o root, none⟩
  | .objectiveC =>
    ⟨.objectiveC, ObjectiveC.implementationFile o root, some (ObjectiveC.header o root)⟩

def refusal (first : Failure) (others : List Failure) : RenderFault :=
  match Failure.breakdown? (first :: others) with
  | some fault => .breakdown fault
  | none => .translations first others

def render (o : Options) (tree : Tree) : Except RenderFault Rendered :=
  match o.fault?, failures tree with
  | some fault, _ => .error (.options fault)
  | none, first :: others => .error (refusal first others)
  | none, [] => .ok (sourceOf o (namespaceOf o tree))

def failureRecord (f : Failure) : Record :=
  ⟨.debug, .names, "Inference failed for '" ++ f.key ++ "': " ++ f.fault.message⟩

def renamingRecords (o : Options) (tree : Tree) : List Record :=
  match o.language with
  | .swift => []
  | .objectiveC =>
    (ObjectiveC.renamings (namespaceOf o tree)).map fun r => ⟨.warning, .classes, r.text⟩

def renderRecords (o : Options) (tree : Tree) : List Record :=
  match render o tree with
  | .error (.options _) => []
  | .error _ => ((failures tree).takeWhile (!·.fault.breaks)).map failureRecord
  | .ok _ => renamingRecords o tree

def translationsMessage (count : Nat) : String :=
  "Cannot generate accessors: " ++ toString count ++
    (if count = 1 then " entry" else " entries") ++ " with invalid format arguments"

end LocaleAccessors.Source
