import LocaleAccessors.Language

/-!
The words that each language keeps for itself.
-/

namespace LocaleAccessors.Name

def swiftReserved : List String := [
  "class", "deinit", "enum", "extension", "func", "import", "init", "inout", "internal", "let",
  "operator", "private", "protocol", "public", "static", "struct", "subscript", "typealias", "var",
  "break", "case", "continue", "default", "defer", "do", "else", "fallthrough", "for", "guard",
  "if", "in", "repeat", "return", "switch", "where", "while", "as", "catch", "dynamicType",
  "false", "is", "nil", "rethrows", "super", "self", "Self", "throw", "throws", "true", "try",
  "type", "Any", "associatedtype", "fileprivate", "__COLUMN__", "__FILE__", "__FUNCTION__",
  "__LINE__"]

def objectiveCReserved : List String := [
  "auto", "break", "case", "char", "const", "continue", "default", "do", "double", "else", "enum",
  "extern", "float", "for", "goto", "if", "inline", "int", "long", "register", "restrict", "return",
  "short", "signed", "sizeof", "static", "struct", "swift", "typedef", "union", "unsigned", "void",
  "volatile", "while", "BOOL", "Class", "bycopy", "byref", "id", "IMP", "in", "inout", "nil", "NO",
  "NULL", "oneway", "out", "Protocol", "SEL", "self", "super", "YES"]

end LocaleAccessors.Name

namespace LocaleAccessors

def Language.reserved : Language → List String
  | .swift => Name.swiftReserved
  | .objectiveC => Name.objectiveCReserved

end LocaleAccessors
