import LocaleAccessors.Text.Quoted
import LocaleAccessors.Text.Separated

/-!
Paths: a root and parts. Empty parts and single dots are dropped when a path is read; double dots
stay.
-/

namespace LocaleAccessors.Files
open Text (Separator pieces quoted codePoints)

/-- Two slashes at the start are kept; any other number but none counts as one. -/
inductive Root where
  | relative
  | slash
  | twoSlashes
  deriving DecidableEq

def Root.text : Root → String
  | .relative => ""
  | .slash => "/"
  | .twoSlashes => "//"

structure Path where
  root : Root
  parts : List String
  deriving DecidableEq

namespace Path

def rootOf : List Char → Root
  | '/' :: '/' :: '/' :: _ => .slash
  | '/' :: '/' :: _ => .twoSlashes
  | '/' :: _ => .slash
  | _ => .relative

def ofString (s : String) : Path where
  root := rootOf s.toList
  parts := ((pieces ⟨'/', []⟩ s.toList).map String.ofList).filter fun part =>
    part ≠ "" && part ≠ "."

/-- The path of nothing is the dot. -/
def text (p : Path) : String :=
  match p.root, p.parts with
  | .relative, [] => "."
  | root, parts => root.text ++ "/".intercalate parts

def parent (p : Path) : Path :=
  { p with parts := p.parts.dropLast }

/-- The last part; the root and the dot have none. -/
def name? (p : Path) : Option String :=
  p.parts.getLast?

end Path

/-- The stem and the suffix of a name. The suffix is the last dot with what follows it; there must
be something on both sides of the dot. -/
def splitName (name : String) : List Char × List Char :=
  let reversed := name.toList.reverse
  match reversed.takeWhile (· ≠ '.'), reversed.dropWhile (· ≠ '.') with
  | c :: after, '.' :: d :: before => ((d :: before).reverse, '.' :: (c :: after).reverse)
  | _, _ => (name.toList, [])

namespace Path

def stem (p : Path) : String :=
  String.ofList (splitName (p.name?.getD "")).1

def suffix (p : Path) : String :=
  String.ofList (splitName (p.name?.getD "")).2

def withSuffix (p : Path) (suffix : String) : Option Path :=
  p.name?.map fun _ => { p with parts := p.parts.dropLast ++ [p.stem ++ suffix] }

def emptyName (p : Path) : String :=
  "PosixPath(" ++ quoted (codePoints p.text) ++ ") has an empty name"

end Path
end LocaleAccessors.Files
