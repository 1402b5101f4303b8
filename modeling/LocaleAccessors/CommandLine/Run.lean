import LocaleAccessors.CommandLine.Arguments
import LocaleAccessors.CommandLine.Exit

/-!
The command line as a function of the files and the words: what it leaves of the files, what it
prints, and its exit code. The written code alone goes to the standard output, all else to the
standard error.
-/

namespace LocaleAccessors.CommandLine
open Files (Store)
open Text (CodePoint codePoints)

/-- What an empty list is no good for: a path, a text without the blanks around it, or a name. -/
inductive ListFault where
  | path
  | trimmed
  | name
  deriving DecidableEq

def ListFault.message : ListFault → String
  | .path => "expected str, bytes or os.PathLike object, not list"
  | .trimmed => "'list' object has no attribute 'strip'"
  | .name => "'list' object has no attribute 'isidentifier'"

inductive Breakdown where
  | generation (fault : GenerationFault)
  | list (fault : ListFault)
  deriving DecidableEq

def Breakdown.messages : Breakdown → List (List CodePoint)
  | .generation fault => fault.messages
  | .list fault => [codePoints fault.message]

/-- A breakdown takes the place of the exit code. -/
structure Outcome where
  store : Store
  output : String
  messages : List CodePoint
  exit : Except Breakdown ExitCode

def unlines (lines : List (List CodePoint)) : List CodePoint :=
  lines.flatMap fun line => line ++ [.scalar '\n']

def usage : String :=
  "usage: locale-accessors [-h] -i INPUT [-o OUTPUT] [-l LANGUAGE] [-d DELIMITER] [-c]\n" ++
  "         [-b BASECLASSNAME] [-t STRINGSTABLENAME] [-s CUSTOMSUPERCLASS] [-v]\n"

def help : String :=
  usage ++ "\n" ++
  "Writes typed accessors for the translations of a table.\n\n" ++
  "  -h, --help               show this text\n" ++
  "  -i, --input              the table: a .strings, .plist or .json file\n" ++
  "  -o, --output             the file to write; a header stands beside it\n" ++
  "  -l, --language           swift or objc (swift)\n" ++
  "  -d, --delimiter          what separates the segments of a key (.)\n" ++
  "  -c, --capitalize         write identifiers in camel case\n" ++
  "  -b, --baseClassName      the name of the outermost type (Localizations)\n" ++
  "  -t, --stringsTableName   the table to look keys up in (Localizable)\n" ++
  "  -s, --customSuperclass   the superclass of Objective-C classes (NSObject)\n" ++
  "  -v, --verbose            report each step\n"

def errorLine (message : List CodePoint) : List CodePoint :=
  codePoints "Error: " ++ message

def shownRecords (verbose : Bool) (records : List Record) : List (List CodePoint) :=
  (records.filter fun r => verbose || r.level ≠ .debug).map fun r => codePoints r.line

def successLines (s : Summary) : List (List CodePoint) :=
  codePoints ("[" ++ s.language.name.toUpper ++ "] SUCCESS") ::
    s.lines.map fun line => codePoints (" " ++ line)

def Arguments.startFault? (a : Arguments) : Option ListFault :=
  if .language ∈ a.lists then some .trimmed
  else if .output ∈ a.lists ∨ .input ∈ a.lists then some .path
  else none

def Arguments.optionFault? (a : Arguments) : OptionFault → Option ListFault
  | .notIdentifier .superclass _ => if .superclass ∈ a.lists then some .name else none
  | .blankTable => if .tableName ∈ a.lists then some .trimmed else none
  | _ => none

def Arguments.exit (a : Arguments) (fault : GenerationFault) : Except Breakdown ExitCode :=
  let misused :=
    match fault with
    | .options fault => a.optionFault? fault
    | _ => none
  match misused, fault.exit? with
  | some list, _ => .error (.list list)
  | none, some code => .ok code
  | none, none => .error (.generation fault)

def outcome (a : Arguments) (r : Run) : Outcome :=
  let shown := shownRecords a.verbose r.records
  match r.result with
  | .ok summary =>
    let told := if a.verbose then successLines summary else []
    ⟨r.store, r.stream, unlines (shown ++ told), .ok .success⟩
  | .error fault =>
    match a.exit fault with
    | .ok code => ⟨r.store, r.stream, unlines (shown ++ fault.messages.map errorLine), .ok code⟩
    | .error breakdown => ⟨r.store, r.stream, unlines shown, .error breakdown⟩

def run (s : Store) (words : List String) : Outcome :=
  match arguments words with
  | .error .help => ⟨s, help, [], .ok .success⟩
  | .error (.usage fault) =>
    ⟨s, "", codePoints (usage ++ "error: " ++ fault.message ++ "\n"), .ok .usage⟩
  | .ok a =>
    if a.delimiter = "" then
      ⟨s, "", unlines [errorLine (codePoints Key.emptyDelimiter)], .ok .usage⟩
    else
      match a.startFault? with
      | some fault => ⟨s, "", [], .error (.list fault)⟩
      | none => outcome a (generate s a.request)

end LocaleAccessors.CommandLine
