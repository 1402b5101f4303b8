import LocaleAccessors.Options
import LocaleAccessors.Source.Layout
import LocaleAccessors.Source.Literal

/-!
Accessors in Objective-C: a class for each namespace, in a header and an implementation. A class is
named after its path; classes whose names would be equal are told apart by a number. In both files
a class stands after the classes inside it, so that each is declared before it is used.
-/

namespace LocaleAccessors.Source.ObjectiveC
open Format (ValueType)
open Name (distinctName)

def typeName : ValueType → String
  | .object => "NSString *"
  | .char => "char"
  | .unichar => "unichar"
  | .int => "int"
  | .int8 => "signed char"
  | .int16 => "short"
  | .long => "long"
  | .int64 => "long long"
  | .uint => "unsigned int"
  | .uint8 => "unsigned char"
  | .uint16 => "unsigned short"
  | .ulong => "unsigned long"
  | .uint64 => "unsigned long long"
  | .double => "double"
  | .pointer => "void *"

structure ChildGetter where
  name : String
  className : String
  deriving DecidableEq

/-- The root has a shared instance. -/
structure ClassModel where
  name : String
  isRoot : Bool
  children : List ChildGetter
  accessors : List Accessor
  deriving DecidableEq

structure Renaming where
  candidate : String
  name : String
  deriving DecidableEq

def Renaming.text (r : Renaming) : String :=
  "Class name " ++ r.candidate ++ " is already used; renamed to " ++ r.name

inductive Classes where
  | nil
  | cons (className name : String) (accessors : List Accessor) (inner siblings : Classes)
  deriving DecidableEq

/-- Names the classes of the namespaces and of those inside them, outer ones first. The stem is what
their names begin with. The second part lists all names taken after it. -/
def nameClasses (stem : String) (taken : List String) : Namespaces → Classes × List String
  | .nil => (.nil, taken)
  | .cons name accessors inner siblings =>
    let className := distinctName (stem ++ name) taken
    let named := nameClasses (stem ++ name) (className :: taken) inner
    let others := nameClasses stem named.2 siblings
    (.cons className name accessors named.1 others.1, others.2)

def classesOf (root : Namespace) : Classes :=
  (nameClasses "_" [] (.cons root.name root.accessors root.inner .nil)).1

namespace Classes

/-- The names of the classes, each before those inside it. -/
def names : Classes → List String
  | nil => []
  | cons className _ _ inner siblings => className :: (names inner ++ names siblings)

def renamings (stem : String) : Classes → List Renaming
  | nil => []
  | cons className name _ inner siblings =>
    (if className = stem ++ name then [] else [⟨stem ++ name, className⟩]) ++
      renamings (stem ++ name) inner ++ renamings stem siblings

def getters : Classes → List ChildGetter
  | nil => []
  | cons className name _ _ siblings => ⟨name, className⟩ :: getters siblings

def models (isRoot : Bool) : Classes → List ClassModel
  | nil => []
  | cons className _ accessors inner siblings =>
    models false inner ++ [⟨className, isRoot, inner.getters, accessors⟩] ++ models isRoot siblings

end Classes

def quote (text : String) : String :=
  "@\"" ++ escape .objectiveC text ++ "\""

def lookup (table : Option String) (key : String) : String :=
  "NSLocalizedStringFromTable(" ++ quote key ++ ", " ++ (table.map quote).getD "nil" ++ ", nil)"

/-- What is declared of an accessor: its type and its name. -/
def signature (a : Accessor) : String :=
  match a.arguments with
  | [] => "- (NSString *)" ++ a.name
  | arguments =>
    "- (NSString *(^)(" ++ commas (arguments.map (typeName ·.type)) ++ "))" ++ a.name

def getterSignature (g : ChildGetter) : String :=
  "- (" ++ g.className ++ " *)" ++ g.name

def sharedSignature (className : String) : String :=
  "+ (" ++ className ++ " *)sharedInstance"

def accessorDeclaration (a : Accessor) : List String :=
  [comment a, signature a ++ ";"]

def accessorDefinition (table : Option String) (a : Accessor) : List String :=
  match a.arguments with
  | [] => [
      comment a,
      signature a ++ " \x7b",
      indent 1 ("return " ++ lookup table a.key ++ ";"),
      "\x7d"]
  | arguments =>
    let parameters := arguments.map fun x => typeName x.type ++ " " ++ x.name
    [ comment a,
      signature a ++ " \x7b",
      indent 1 ("return ^(" ++ commas parameters ++ ") \x7b"),
      indent 2 ("return [NSString stringWithFormat: " ++ lookup table a.key ++ ", " ++
        commas (parameterNames a) ++ "];"),
      indent 1 "\x7d;",
      "\x7d"]

def getterDefinition (g : ChildGetter) : List String := [
  getterSignature g ++ " \x7b",
  indent 1 ("return [" ++ g.className ++ " new];"),
  "\x7d"]

def sharedDefinition (className : String) : List String := [
  sharedSignature className ++ " \x7b",
  "",
  indent 1 "static dispatch_once_t once;",
  indent 1 ("static " ++ className ++ " *instance;"),
  indent 1 "dispatch_once(&once, ^\x7b",
  indent 2 ("instance = [[" ++ className ++ " alloc] init];"),
  indent 1 "\x7d);",
  indent 1 "return instance;",
  "\x7d"]

/-- The members of a class with an empty line after each; a class without members has the empty line
alone. -/
def spaced (members : List (List String)) : List String :=
  if members.isEmpty then [""] else members.flatMap (· ++ [""])

def interface (superclass : String) (c : ClassModel) : List String :=
  ["@interface " ++ c.name ++ " : " ++ superclass, ""] ++
    spaced (c.children.map (fun g => [getterSignature g ++ ";"]) ++
      c.accessors.map accessorDeclaration ++
      (if c.isRoot then [[sharedSignature c.name ++ ";"]] else [])) ++
    ["@end"]

/-- The shared instance is the last member and has no empty line after it. -/
def implementation (table : Option String) (c : ClassModel) : List String :=
  let members := c.children.map getterDefinition ++ c.accessors.map (accessorDefinition table)
  ["@implementation " ++ c.name, ""] ++
    (if c.isRoot then members.flatMap (· ++ [""]) ++ sharedDefinition c.name else spaced members) ++
    ["@end", ""]

/-- An empty superclass counts as none. -/
def superclass (o : Options) : Option String :=
  o.superclass.filter (· ≠ "")

def headerImports (o : Options) : List String :=
  "@import Foundation;" ::
    (superclass o).toList.map fun name => "#import \"" ++ name ++ ".h\""

def header (o : Options) (root : Namespace) : String :=
  let classes := classesOf root
  let blocks := (classes.models true).map (interface ((superclass o).getD "NSObject"))
  fileText (banner ++ mark "Imports" ++ headerImports o ++ mark "Header" ++
    [""].intercalate blocks ++ mark "Macros" ++ [
    "// Make localization to be easily accessible",
    "#define " ++ root.name ++ " [" ++ classes.names.headD "" ++ " sharedInstance]"])

def implementationFile (o : Options) (root : Namespace) : String :=
  let blocks := ((classesOf root).models true).map (implementation o.tableName)
  fileText (banner ++ mark "Imports" ++ ["#import \"" ++ o.importedName ++ ".h\""] ++
    mark "Header" ++ [""].intercalate blocks)

/-- The names of the classes by the paths of their namespaces, each before those inside it. -/
def classNames (root : Namespace) : List (List String × String) :=
  root.paths.zip (classesOf root).names

/-- The classes that got another name than their paths give, in the order in which they are named. -/
def renamings (root : Namespace) : List Renaming :=
  (classesOf root).renamings "_"

end LocaleAccessors.Source.ObjectiveC
