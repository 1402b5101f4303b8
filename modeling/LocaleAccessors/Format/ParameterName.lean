import LocaleAccessors.Format.Slot
import LocaleAccessors.Name.Identifier

/-!
The names of parameters. A name says what the argument is for and, where a translation has several
groups, which of them it feeds. Names that would be equal get their positions.
-/

namespace LocaleAccessors.Format
open Name (suffixed distinctName)

def Slot.baseName (slot : Slot) (groupCount : Nat) : String :=
  slot.roles.label ++
    (if 1 < groupCount then "_".intercalate (slot.groups.map toString) else "")

/-- The names of the slots from `position` on, where `bases` are the base names of all slots. -/
def nameSlots (bases : List String) (position : Nat) (taken : List String) :
    List String → List String
  | [] => []
  | base :: rest =>
    let name :=
      if bases.count base > 1 then distinctName (suffixed base position) taken else base
    name :: nameSlots bases (position + 1) (name :: taken) rest

def parameterNames (groupCount : Nat) (slots : List Slot) : List String :=
  let bases := slots.map (·.baseName groupCount)
  nameSlots bases 1 (bases.filter (bases.count · = 1)) bases

end LocaleAccessors.Format
