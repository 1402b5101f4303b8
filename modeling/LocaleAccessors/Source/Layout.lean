import LocaleAccessors.Namespace
import LocaleAccessors.Text.Lines

/-!
What the files of all languages have in common: the banner, the marks of sections, indentation and
the comment of an accessor. A file is a list of lines, each ended by a newline.
-/

namespace LocaleAccessors.Source

def banner : List String := [
  "//",
  "// Autogenerated by StringTree",
  "// Do not change this file manually!",
  "//"]

def mark (name : String) : List String := [
  "",
  "",
  "// --- --- --- --- --- --- --- --- --- --- --- --- --- --- --- --- --- --- ---",
  "// MARK: - " ++ name,
  ""]

def indent (level : Nat) (line : String) : String :=
  String.ofList (List.replicate (4 * level) ' ') ++ line

def comment (a : Accessor) : String :=
  "/// Base translation: " ++ Text.onOneLine a.translation

def commas (items : List String) : String :=
  ", ".intercalate items

def parameterNames (a : Accessor) : List String :=
  a.arguments.map (·.name)

def fileText (lines : List String) : String :=
  String.join (lines.map (· ++ "\n"))

end LocaleAccessors.Source
