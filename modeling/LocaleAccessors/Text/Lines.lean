/-!
Text cut into lines, and text put on one line. Besides the newline, nine other characters end a line;
a carriage return and a newline right after it end one line together.
-/

namespace LocaleAccessors.Text

def isLineBreak (c : Char) : Bool :=
  c ∈ ['\n', '\r', '\x0B', '\x0C', '\x1C', '\x1D', '\x1E', '\u0085', '\u2028', '\u2029']

/-- The lines without their line breaks. A break at the very end starts no further line. -/
def splitLines : List Char → List (List Char)
  | [] => []
  | '\r' :: '\n' :: rest => [] :: splitLines rest
  | c :: rest =>
    if isLineBreak c then [] :: splitLines rest
    else
      match splitLines rest with
      | [] => [[c]]
      | line :: more => (c :: line) :: more

def onOneLine (s : String) : String :=
  String.ofList ([' '].intercalate (splitLines s.toList))

end LocaleAccessors.Text
