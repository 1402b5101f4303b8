import LocaleAccessors.Files.Write
import LocaleAccessors.Source.Render

/-!
Where rendered sources go: to a stream, the header first, or to files as one unit. The header's file
stands beside the implementation's and has the extension `.h`.
-/

namespace LocaleAccessors
open Files (Path Store PathFault)
open Source (Rendered)

inductive OutputFault where
  | emptyName (path : Path)
  | nullCharacter
  | unencodableName
  | tooDeep
  | unencodable (paths : List Path)
  | failed (paths : List Path) (reason : PathFault)
  | stream (words : String)
  deriving DecidableEq

def reasonText : PathFault → String
  | .unencodable => "surrogates not allowed"
  | .nullCharacter => "embedded null byte"
  | .notFound => "No such file or directory"
  | .notDirectory => "Not a directory"
  | .nameTooLong => "File name too long"
  | .exists => "File exists"
  | .isDirectory => "Is a directory"
  | .tooDeep => "maximum recursion depth exceeded while calling a Python object"
  | .refused words => words

def OutputFault.message : OutputFault → String
  | .emptyName path => path.emptyName
  | .nullCharacter => reasonText .nullCharacter
  | .unencodableName => reasonText .unencodable
  | .tooDeep => reasonText .tooDeep
  | .unencodable _ => "Cannot encode output as UTF-8: " ++ reasonText .unencodable
  | .failed _ reason => "Cannot write output file: " ++ reasonText reason
  | .stream words => "Cannot write to output stream: " ++ words

def headerPath (output : Path) : Option Path :=
  output.withSuffix ".h"

/-- A store after some output, the text that went to the stream, what was told, and the written
paths. -/
structure Written where
  store : Store
  stream : String
  records : List Record
  paths : Except OutputFault (List Path)

/-- A fault of a write. Those of the paths themselves are not reported as faults of the output. -/
def outputFault (paths : List Path) : PathFault → OutputFault
  | .nullCharacter => .nullCharacter
  | .unencodable => .unencodableName
  | .tooDeep => .tooDeep
  | reason => .failed paths reason

/-- Writes texts to files. All of them must have a form in UTF-8 before anything is written. -/
def writeFiles (s : Store) (files : List (Path × String)) : Written :=
  let paths := files.map Prod.fst
  if files.all fun file => s.machine.isText file.2 then
    let ending := s.write files
    { store := ending.store
      stream := ""
      records := ending.records
      paths :=
        match ending.fault with
        | none => .ok paths
        | some reason => .error (outputFault paths reason) }
  else ⟨s, "", [], .error (.unencodable paths)⟩

/-- Writes texts to the stream. What it has taken before it fails stays there. -/
def writeStream (s : Store) (texts : List String) : Written :=
  let stream := s.machine.stream
  let taken := stream.writeAll texts
  { store := s
    stream := String.ofList taken.1
    records := []
    paths := if taken.2 then .ok [] else .error (.stream stream.words) }

def Source.Rendered.texts (source : Rendered) : List String :=
  source.header.toList ++ [source.implementation]

/-- The files of a source. The path of the header follows from that of the implementation, unless it
is given. -/
def Source.Rendered.files? (source : Rendered) (output : Path) (header : Option Path) :
    Option (List (Path × String)) :=
  match source.header with
  | none => some [(output, source.implementation)]
  | some text =>
    (header <|> headerPath output).map fun header =>
      [(header, text), (output, source.implementation)]

def writeRendered (s : Store) (source : Rendered) (output header : Option Path) : Written :=
  match output with
  | none => writeStream s source.texts
  | some output =>
    match source.files? output header with
    | some files => writeFiles s files
    | none => ⟨s, "", [], .error (.emptyName output)⟩

end LocaleAccessors
