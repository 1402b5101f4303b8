import LocaleAccessors.CommandLine.Switch
import LocaleAccessors.Text.Number

/-!
How a single word of the command line is read. Letters of several flags may share one dash, the last
letter may be that of a field, and what follows a field's letter is its value; an equals sign may stand
between the first letter of a word and what follows. Only words that look like no switch can be values
of the switch before them.
-/

namespace LocaleAccessors.CommandLine
open Text (isDecimalDigit)

inductive Word where
  | value (text : String)
  | unknown (text : String)
  | given (settings : List Setting)
  /-- Settings, and a field whose value is the next word. -/
  | waiting (settings : List Setting) (field : Field)
  /-- A flag with more behind it, which it cannot take. -/
  | excess (flag : Flag) (value : String)
  deriving DecidableEq

def Word.after (s : Setting) : Word → Word
  | .given settings => .given (s :: settings)
  | .waiting settings field => .waiting (s :: settings) field
  | word => word

def alone : Switch → Word
  | .flag f => .given [.flag f]
  | .field f => .waiting [] f

def assigned (value : List Char) : Switch → Word
  | .flag f => .excess f (String.ofList value)
  | .field f => .given [.attached f value]

/-- A switch that is named by a letter, with what follows: a value, or the letters of more
switches. -/
def followed : Switch → List Char → Word
  | .field f, value => .given [.attached f value]
  | .flag f, [] => .excess f ""
  | .flag f, c :: rest =>
    match Switch.ofLetter? c with
    | none => .excess f (String.ofList (c :: rest))
    | some next => (if rest = [] then alone next else followed next rest).after (.flag f)

def letters (s : Switch) : List Char → Word
  | [] => alone s
  | '=' :: rest => followed s rest
  | rest => followed s rest

/-- A word with a dash that is a negative decimal number, which may end in a newline. -/
def isNegativeNumber (cs : List Char) : Bool :=
  match cs with
  | '-' :: number =>
    let digits := number.takeWhile isDecimalDigit
    let isEnd (rest : List Char) := rest = [] || rest = ['\n']
    match number.dropWhile isDecimalDigit with
    | '.' :: rest => (rest.takeWhile isDecimalDigit ≠ []) && isEnd (rest.dropWhile isDecimalDigit)
    | rest => digits ≠ [] && isEnd rest
  | _ => false

def Word.ofOther (word : String) : Word :=
  if isNegativeNumber word.toList || ' ' ∈ word.toList then .value word else .unknown word

structure Ambiguity where
  word : String
  switches : List Switch
  deriving DecidableEq

def Word.ofString (word : String) : Except Ambiguity Word :=
  match word.toList with
  | '-' :: '-' :: text =>
    match Switch.ofWord (text.takeWhile (· ≠ '=')), text.dropWhile (· ≠ '=') with
    | [], _ => .ok (.ofOther word)
    | [s], _ :: text => .ok (assigned text s)
    | [s], [] => .ok (alone s)
    | several, _ => .error ⟨word, several⟩
  | '-' :: c :: text =>
    match Switch.ofLetter? c with
    | some s => .ok (letters s text)
    | none => .ok (.ofOther word)
  | _ => .ok (.value word)

/-- The words of a command line. After two dashes alone every word is a value, but the dashes
themselves are none. -/
def Word.ofStrings : List String → Except Ambiguity (List Word)
  | [] => .ok []
  | "--" :: rest => .ok (.unknown "--" :: rest.map .value)
  | word :: rest => do
    let first ← Word.ofString word
    return first :: (← Word.ofStrings rest)

end LocaleAccessors.CommandLine
