import LocaleAccessors.Table.Entry
import LocaleAccessors.Text.Separated

/-!
The tree of keys. Inner nodes are groups of segments and leaves are entries; children stand in the
order in which their segments first came. A later entry that needs a node of the other kind replaces
what is there, in place, and a warning tells what is lost.
-/

namespace LocaleAccessors.Key
open Table (Entry)
open Text (Separator pieces)

/-- The segments of a key. Delimiters at the ends and repeated ones count for nothing. -/
def path (delimiter : Separator) (key : String) : List String :=
  ((pieces delimiter key.toList).filter (· ≠ [])).map String.ofList

def emptyDelimiter : String := "Delimiter must not be empty."

/-- The children of a group. Each child stands in front of its later siblings. -/
inductive Tree where
  | nil
  | leaf (segment : String) (entry : Entry) (siblings : Tree)
  | group (segment : String) (children siblings : Tree)
  deriving DecidableEq

inductive Warning where
  | skipped (key : String)
  | translationDropped (key dropped : String)
  | groupReplaced (key : String) (size : Nat)
  deriving DecidableEq

def Warning.text : Warning → String
  | .skipped key => "Skipping key '" ++ key ++ "': it has no named segments"
  | .translationDropped key dropped =>
    "Key '" ++ key ++ "' turns translation '" ++ dropped ++
      "' into a group; the translation is dropped"
  | .groupReplaced key size =>
    "Key '" ++ key ++ "' replaces a group of " ++ toString size ++ " entries"

namespace Tree

def size : Tree → Nat
  | nil => 0
  | leaf _ _ siblings => siblings.size + 1
  | group _ _ siblings => siblings.size + 1

def depth : Tree → Nat
  | nil => 0
  | leaf _ _ siblings => max 1 siblings.depth
  | group _ children siblings => max (children.depth + 1) siblings.depth

def single (entry : Entry) (segment : String) : List String → Tree
  | [] => leaf segment entry nil
  | next :: more => group segment (single entry next more) nil

/-- Puts the entry at `segment` and the segments after it, with a warning if anything is lost. -/
def insert (entry : Entry) : String → List String → Tree → Tree × Option Warning
  | segment, more, nil => (single entry segment more, none)
  | segment, more, leaf s old siblings =>
    if s = segment then
      match more with
      | [] => (leaf s entry siblings, none)
      | next :: more =>
        (group s (single entry next more) siblings,
          some (.translationDropped entry.key old.key))
    else
      let inserted := insert entry segment more siblings
      (leaf s old inserted.1, inserted.2)
  | segment, more, group s children siblings =>
    if s = segment then
      match more with
      | [] => (leaf s entry siblings, some (.groupReplaced entry.key children.size))
      | next :: more =>
        let inserted := insert entry next more children
        (group s inserted.1 siblings, inserted.2)
    else
      let inserted := insert entry segment more siblings
      (group s children inserted.1, inserted.2)

def insertAt (entry : Entry) : List String → Tree → Tree × Option Warning
  | [], tree => (tree, some (.skipped entry.key))
  | segment :: more, tree => tree.insert entry segment more

def addAll (delimiter : Separator) : List Entry → Tree → Tree × List Warning
  | [], tree => (tree, [])
  | entry :: rest, tree =>
    let inserted := tree.insertAt entry (path delimiter entry.key)
    let added := addAll delimiter rest inserted.1
    (added.1, inserted.2.toList ++ added.2)

def build (delimiter : Separator) (entries : List Entry) : Tree × List Warning :=
  addAll delimiter entries nil

/-- As `build`, with a delimiter that may be empty. Without entries none is needed. -/
def build? (delimiter : String) (entries : List Entry) : Option (Tree × List Warning) :=
  match entries, Separator.ofString? delimiter with
  | [], _ => some (nil, [])
  | _, some delimiter => some (build delimiter entries)
  | _, none => none

/-- The leaves with their paths, from the root down and in child order. -/
def leaves : Tree → List (List String × Entry)
  | nil => []
  | leaf segment entry siblings => ([segment], entry) :: leaves siblings
  | group segment children siblings =>
    (leaves children).map (fun (path, entry) => (segment :: path, entry)) ++ leaves siblings

def groupCount : Tree → Nat
  | nil => 1
  | leaf _ _ siblings => siblings.groupCount
  | group _ children siblings => children.groupCount + siblings.groupCount

def leafCount : Tree → Nat
  | nil => 0
  | leaf _ _ siblings => siblings.leafCount + 1
  | group _ children siblings => children.leafCount + siblings.leafCount

/-- An outline of the tree, a line for each node, indented by its depth. -/
def outline (indent : String) : Tree → List String
  | nil => []
  | leaf segment entry siblings =>
    (indent ++ segment ++ " = " ++ entry.key) :: outline indent siblings
  | group segment children siblings =>
    (indent ++ segment ++ "/") :: (outline (indent ++ "  ") children ++ outline indent siblings)

end Tree
end LocaleAccessors.Key
