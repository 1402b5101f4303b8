import LocaleAccessors.CommandLine.Word
import LocaleAccessors.Generation

/-!
The arguments of a run, read from the words of the command line. Words are used from left to right,
and of a switch that is set more than once the last setting counts.
-/

namespace LocaleAccessors.CommandLine
open Files (Path)

/-- A field that holds an empty list is counted among the lists. In its place stands the text that is
at fault wherever the list would be. -/
structure Arguments where
  input : Path
  output : Option Path
  options : Options
  delimiter : String
  verbose : Bool
  lists : List Field
  deriving DecidableEq

def Arguments.request (a : Arguments) : Request :=
  ⟨a.input, a.output, a.options, a.delimiter⟩

inductive UsageFault where
  | ambiguous (word : String) (switches : List Switch)
  | missingValue (field : Field)
  | excessValue (flag : Flag) (value : String)
  | unknownLanguage (name : String)
  | missingInput
  | unrecognized (words : List String)
  deriving DecidableEq

def UsageFault.message : UsageFault → String
  | .ambiguous word switches =>
    "'" ++ word ++ "' can mean " ++ ", ".intercalate (switches.map fun s => "--" ++ s.word)
  | .missingValue field => (Switch.field field).text ++ " needs a value"
  | .excessValue flag value => (Switch.flag flag).text ++ " takes no value, but has '" ++ value ++ "'"
  | .unknownLanguage name =>
    "language '" ++ name ++ "' is none of " ++ ", ".intercalate (Language.all.map Language.name)
  | .missingInput => (Switch.field .input).text ++ " is required"
  | .unrecognized words => "unrecognized: " ++ " ".intercalate words

inductive Stop where
  | help
  | usage (fault : UsageFault)
  deriving DecidableEq

structure Draft where
  input : Option Path := none
  output : Option Path := none
  options : Options := {}
  delimiter : String := "."
  verbose : Bool := false
  lists : List Field := []
  unrecognized : List String := []
  deriving DecidableEq

namespace Draft

def setField (d : Draft) (value : String) : Field → Except UsageFault Draft
  | .input => .ok { d with input := some (.ofString value) }
  | .output => .ok { d with output := some (.ofString value) }
  | .language =>
    match Language.all.find? (·.name = value) with
    | some language => .ok { d with options.language := language }
    | none => .error (.unknownLanguage value)
  | .delimiter => .ok { d with delimiter := value }
  | .baseName => .ok { d with options.baseName := value }
  | .tableName => .ok { d with options.tableName := some value }
  | .superclass => .ok { d with options.superclass := some value }

/-- An empty list counts as a text without characters, but a name shows its brackets. -/
def setList (d : Draft) : Field → Draft
  | .input => { d with input := some (.ofString "") }
  | .output => { d with output := some (.ofString "") }
  | .language => d
  | .delimiter => { d with delimiter := "" }
  | .baseName => { d with options.baseName := "[]" }
  | .tableName => { d with options.tableName := some "" }
  | .superclass => { d with options.superclass := some "" }

/-- A call for help stops at once. -/
def set (d : Draft) : Setting → Except Stop Draft
  | .flag .help => .error .help
  | .flag .capitalize => .ok { d with options.capitalize := true }
  | .flag .verbose => .ok { d with verbose := true }
  | .field field value =>
    ({ d with lists := d.lists.filter (· ≠ field) }.setField value field).mapError .usage
  | .emptyList field => .ok ({ d with lists := field :: d.lists }.setList field)

def leave (d : Draft) (words : List String) : Draft :=
  { d with unrecognized := d.unrecognized ++ words }

/-- The settings of a word count only if the word is complete. -/
def ofWords (d : Draft) : List Word → Except Stop Draft
  | [] => .ok d
  | .value text :: rest => (d.leave [text]).ofWords rest
  | .unknown text :: rest => (d.leave [text]).ofWords rest
  | .given settings :: rest => do
    let d ← settings.foldlM set d
    d.ofWords rest
  | .waiting settings field :: .value text :: rest => do
    let d ← settings.foldlM set d
    let d ← d.set (.field field text)
    d.ofWords rest
  | .waiting _ field :: _ => .error (.usage (.missingValue field))
  | .excess flag value :: _ => .error (.usage (.excessValue flag value))

def finish (d : Draft) : Except UsageFault Arguments :=
  match d.input, d.unrecognized with
  | none, _ => .error .missingInput
  | some input, [] =>
    .ok ⟨input, d.output, d.options, d.delimiter, d.verbose, d.lists⟩
  | some _, words => .error (.unrecognized words)

end Draft

/-- The arguments that a command line gives. An ambiguous word is a fault wherever it stands. -/
def arguments (words : List String) : Except Stop Arguments := do
  let words ← (Word.ofStrings words).mapError fun a => .usage (.ambiguous a.word a.switches)
  let draft ← Draft.ofWords {} words
  draft.finish.mapError .usage

end LocaleAccessors.CommandLine
