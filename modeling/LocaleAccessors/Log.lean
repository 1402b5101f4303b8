import LocaleAccessors.Text.CodePoint

/-!
What a run reports while it works. Each record names the part of the program that it comes from.
-/

namespace LocaleAccessors

inductive Level where
  | debug
  | warning
  | error
  deriving DecidableEq

def Level.name : Level → String
  | .debug => "DEBUG"
  | .warning => "WARNING"
  | .error => "ERROR"

inductive Origin where
  | table
  | keyTree
  | names
  | classes
  | generation
  | output
  deriving DecidableEq

def Origin.name : Origin → String
  | .table => "stringtree.parsers.strings_parser"
  | .keyTree => "stringtree.core.key_tree"
  | .names => "stringtree.emitters.base_emitter"
  | .classes => "stringtree.emitters.objc_emitter"
  | .generation => "stringtree.core.generator"
  | .output => "stringtree.utils.output_writer"

structure Record where
  level : Level
  origin : Origin
  text : String
  deriving DecidableEq

def Record.line (r : Record) : String :=
  r.level.name ++ " " ++ r.origin.name ++ ": " ++ r.text

def warnings (records : List Record) : List String :=
  (records.filter (·.level = .warning)).map (·.text)

end LocaleAccessors
