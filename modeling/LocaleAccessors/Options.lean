import LocaleAccessors.Name.Reserved
import LocaleAccessors.Text.Ranges
import LocaleAccessors.Text.Identifier

/-!
The settings that shape the written code, and what they must satisfy.
-/

namespace LocaleAccessors
open Text (isBlank isIdentifier)

/-- The header's name is the one that the implementation imports, without extension. -/
structure Options where
  language : Language := .swift
  baseName : String := "Localizations"
  tableName : Option String := none
  superclass : Option String := none
  capitalize : Bool := false
  headerName : Option String := none
  deriving DecidableEq

inductive NameOption where
  | base
  | superclass
  deriving DecidableEq

def NameOption.title : NameOption → String
  | .base => "Base class name"
  | .superclass => "Custom superclass"

inductive OptionFault where
  | notIdentifier (option : NameOption) (name : String)
  | reservedWord (option : NameOption) (name : String) (language : Language)
  | blankTable
  deriving DecidableEq

def OptionFault.message : OptionFault → String
  | .notIdentifier option name => option.title ++ " '" ++ name ++ "' is not a valid identifier."
  | .reservedWord option name language =>
    option.title ++ " '" ++ name ++ "' is a reserved word in " ++ language.name ++ "."
  | .blankTable => "Strings table name must not be empty."

def NameOption.fault? (option : NameOption) (language : Language) (name : String) :
    Option OptionFault :=
  if !isIdentifier name then some (.notIdentifier option name)
  else if name ∈ language.reserved then some (.reservedWord option name language)
  else none

namespace Options

def tableFault? (o : Options) : Option OptionFault :=
  match o.tableName with
  | some name => if name.toList.all isBlank then some .blankTable else none
  | none => none

def fault? (o : Options) : Option OptionFault :=
  NameOption.base.fault? o.language o.baseName
    <|> o.superclass.bind (NameOption.superclass.fault? o.language)
    <|> o.tableFault?

/-- The header's name, or the base name where it is absent or empty. -/
def importedName (o : Options) : String :=
  match o.headerName with
  | some name => if name = "" then o.baseName else name
  | none => o.baseName

end Options
end LocaleAccessors
