/-!
The switches of the command line: flags, which stand alone, and fields, which take a value. Each has
a letter, written after one dash, and a word, written after two.
-/

namespace LocaleAccessors.CommandLine

inductive Flag where
  | help
  | capitalize
  | verbose
  deriving DecidableEq

inductive Field where
  | input
  | output
  | language
  | delimiter
  | baseName
  | tableName
  | superclass
  deriving DecidableEq

inductive Switch where
  | flag (f : Flag)
  | field (f : Field)
  deriving DecidableEq

namespace Switch

def all : List Switch := [
  .flag .help, .field .input, .field .output, .field .language, .field .delimiter,
  .flag .capitalize, .field .baseName, .field .tableName, .field .superclass, .flag .verbose]

def letter : Switch → Char
  | .flag .help => 'h'
  | .flag .capitalize => 'c'
  | .flag .verbose => 'v'
  | .field .input => 'i'
  | .field .output => 'o'
  | .field .language => 'l'
  | .field .delimiter => 'd'
  | .field .baseName => 'b'
  | .field .tableName => 't'
  | .field .superclass => 's'

def word : Switch → String
  | .flag .help => "help"
  | .flag .capitalize => "capitalize"
  | .flag .verbose => "verbose"
  | .field .input => "input"
  | .field .output => "output"
  | .field .language => "language"
  | .field .delimiter => "delimiter"
  | .field .baseName => "baseClassName"
  | .field .tableName => "stringsTableName"
  | .field .superclass => "customSuperclass"

def text (s : Switch) : String :=
  "-" ++ String.singleton s.letter ++ "/--" ++ s.word

def ofLetter? (c : Char) : Option Switch :=
  all.find? (·.letter = c)

/-- The switches that a word may stand for: the one that it names, or all that begin with it. -/
def ofWord (name : List Char) : List Switch :=
  match all.find? (·.word.toList = name) with
  | some s => [s]
  | none => all.filter fun s => name.isPrefixOf s.word.toList

end Switch

/-- A switch as it is set. Two dashes that are the whole value in the word of a switch are taken out
of it, and what the field holds then is an empty list in place of a text. -/
inductive Setting where
  | flag (f : Flag)
  | field (f : Field) (value : String)
  | emptyList (f : Field)
  deriving DecidableEq

def Setting.attached (f : Field) (value : List Char) : Setting :=
  if value = ['-', '-'] then .emptyList f else .field f (String.ofList value)

end LocaleAccessors.CommandLine
