/-!
Entries of a table of translations, and the assignment of rows: a key stands where it first came,
with the value that it was given last.
-/

namespace LocaleAccessors.Table

structure Entry where
  key : String
  value : String
  deriving DecidableEq

def assign {α β : Type} [DecidableEq α] (key : α) (value : β) : List (α × β) → List (α × β)
  | [] => [(key, value)]
  | (k, v) :: rest => if k = key then (k, value) :: rest else (k, v) :: assign key value rest

def assignAll {α β : Type} [DecidableEq α] (rows : List (α × β)) : List (α × β) :=
  rows.foldl (fun table (key, value) => assign key value table) []

def entries (rows : List (String × String)) : List Entry :=
  (assignAll rows).map fun (key, value) => ⟨key, value⟩

end LocaleAccessors.Table
