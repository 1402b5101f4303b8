import LocaleAccessors.Json.Value
import LocaleAccessors.Table.Content

/-!
JSON values as contents of tables.
-/

namespace LocaleAccessors.Json
open Table (Content Item Kind Label assignAll)

def Value.item : Value → Item
  | .null => .other .null
  | .bool _ => .other .bool
  | .integer _ => .other .integer
  | .float => .other .float
  | .text s => .text s
  | .array _ => .other .list
  | .object _ => .other .dictionary

/-- Members with one key are assigned one after the other. -/
def Value.content : Value → Content
  | .object members =>
    .dictionary (assignAll (members.map fun (key, value) => (Label.text key, value.item)))
  | value => .single value.item

end LocaleAccessors.Json
