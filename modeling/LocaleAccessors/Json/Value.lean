import LocaleAccessors.Text.CodePoint

/-!
JSON values. Texts may hold surrogates on their own, since escapes can spell them. Of a number with
a fraction or an exponent only its kind is kept.
-/

namespace LocaleAccessors.Json
open Text (CodePoint)

inductive Value where
  | null
  | bool (b : Bool)
  | integer (n : Int)
  | float
  | text (s : List CodePoint)
  | array (items : List Value)
  | object (members : List (List CodePoint × Value))

end LocaleAccessors.Json
