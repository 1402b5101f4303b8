import LocaleAccessors.Text.Ranges

/-!
The languages that accessors are written in.
-/

namespace LocaleAccessors

inductive Language where
  | swift
  | objectiveC
  deriving DecidableEq

namespace Language

def name : Language → String
  | .swift => "swift"
  | .objectiveC => "objc"

def displayName : Language → String
  | .swift => "Swift"
  | .objectiveC => "Objective-C"

def extension : Language → String
  | .swift => ".swift"
  | .objectiveC => ".m"

def all : List Language := [.swift, .objectiveC]

/-- The language of a name in any case, with blanks around it. Both names are ASCII, and no other
character has a lower case in them. -/
def ofName? (s : String) : Option Language :=
  let name := (Text.trimBlanks s.toList).map Char.toLower
  all.find? fun language => language.name.toList = name

end Language
end LocaleAccessors
