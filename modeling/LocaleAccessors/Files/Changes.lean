import LocaleAccessors.Files.Store

/-!
What differs between two states of the files below the working directory.
-/

namespace LocaleAccessors.Files

/-- The path of a location below the working directory, from there on. A directory's ends in a
slash. -/
def relativePath? (working l : Location) (node : Node) : Option String :=
  let names := l.take (l.length - working.length)
  if names ≠ [] ∧ names ++ working = l then
    let path := "/".intercalate names.reverse
    some (if node = .directory then path ++ "/" else path)
  else none

structure Changes where
  changed : List (String × Node)
  removed : List String
  deriving DecidableEq

def Store.paths (s : Store) : List (String × Node) :=
  s.nodes.filterMap fun (l, node) => (relativePath? s.working l node).map (·, node)

def changes (before after : Store) : Changes where
  changed :=
    (after.paths.filter fun entry => entry ∉ before.paths).mergeSort fun a b => a.1 ≤ b.1
  removed :=
    ((before.paths.map Prod.fst).filter fun path => path ∉ after.paths.map Prod.fst).mergeSort
      fun a b => a ≤ b

end LocaleAccessors.Files
