import LocaleAccessors.Options
import LocaleAccessors.Source.Layout
import LocaleAccessors.Source.Literal

/-!
Accessors in Swift: a struct for each namespace, with a static property or function for each
translation.
-/

namespace LocaleAccessors.Source.Swift
open Format (ValueType)

def typeName : ValueType → String
  | .object => "String"
  | .char => "CChar"
  | .unichar => "unichar"
  | .int => "Int"
  | .int8 => "Int8"
  | .int16 => "Int16"
  | .long => "Int"
  | .int64 => "Int64"
  | .uint => "UInt"
  | .uint8 => "UInt8"
  | .uint16 => "UInt16"
  | .ulong => "UInt"
  | .uint64 => "UInt64"
  | .double => "Double"
  | .pointer => "UnsafeRawPointer"

def quote (text : String) : String :=
  "\"" ++ escape .swift text ++ "\""

def tableArgument : Option String → String
  | none => ""
  | some name => "tableName: " ++ quote name ++ ", "

def lookup (table : Option String) (key : String) : String :=
  "NSLocalizedString(" ++ quote key ++ ", " ++ tableArgument table ++ "comment: \"\")"

def accessor (table : Option String) (level : Nat) (a : Accessor) : List String :=
  match a.arguments with
  | [] => [
      indent level (comment a),
      indent level ("public static var " ++ a.name ++ " : String = " ++ lookup table a.key),
      ""]
  | arguments =>
    let parameters := arguments.map fun x => "_ " ++ x.name ++ " : " ++ typeName x.type
    [ indent level (comment a),
      indent level ("public static func " ++ a.name ++ "(" ++ commas parameters ++ ") -> String \x7b"),
      indent (level + 1) ("return String(format: " ++ lookup table a.key ++ ", " ++
        commas (parameterNames a) ++ ")"),
      indent level "\x7d",
      ""]

def struct (level : Nat) (name : String) (members : List String) : List String :=
  ["", indent level ("public struct " ++ name ++ " \x7b"), ""] ++
    (if members.isEmpty then [""] else members) ++ [indent level "\x7d"]

def structs (table : Option String) (level : Nat) : Namespaces → List String
  | .nil => []
  | .cons name accessors inner siblings =>
    struct level name
      (accessors.flatMap (accessor table (level + 1)) ++ structs table (level + 1) inner) ++
      structs table level siblings

def file (o : Options) (root : Namespace) : String :=
  fileText (banner ++ mark "Imports" ++ ["import Foundation"] ++ mark "Localizations" ++
    structs o.tableName 0 (.cons root.name root.accessors root.inner .nil))

end LocaleAccessors.Source.Swift
