import LocaleAccessors.Output
import LocaleAccessors.Table.Load

/-!
A whole run: a table is loaded, its keys become a tree, the tree a source, and the source is written.
Nothing is written unless every translation renders.
-/

namespace LocaleAccessors
open Files (Machine Path Store)
open Key (Tree)
open Source (Rendered RenderFault)
open Table (Entry LoadFault)

structure Request where
  input : Path
  output : Option Path
  options : Options
  delimiter : String
  deriving DecidableEq

inductive GenerationFault where
  | load (path : Path) (fault : LoadFault)
  | emptyDelimiter
  | tooDeep
  | options (fault : OptionFault)
  | breakdown (fault : Format.Fault)
  | translations (first : Failure) (others : List Failure)
  | output (fault : OutputFault)
  deriving DecidableEq

def tooDeepMessage : String :=
  "maximum recursion depth exceeded"

structure Summary where
  language : Language
  entries : Nat
  groups : Nat
  accessors : Nat
  input : Path
  written : List Path
  deriving DecidableEq

def Summary.lines (s : Summary) : List String :=
  ["Loaded " ++ toString s.entries ++ " entries from " ++ s.input.text,
    "Built key tree with " ++ toString s.groups ++ " groups and " ++ toString s.accessors ++
      " accessors",
    "Rendered " ++ toString s.accessors ++ " accessors as " ++ s.language.displayName] ++
    s.written.map fun path => "Wrote " ++ path.text

/-- The files after a run, the text on the stream, the records and the result. -/
structure Run where
  store : Store
  stream : String
  records : List Record
  result : Except GenerationFault Summary

/-- The options of a run. Unless a header's name is given, the implementation imports the header by
the name of the output without its extension. -/
def Request.resolved (r : Request) : Options :=
  match r.options.headerName.filter (· ≠ ""), r.output with
  | none, some output => { r.options with headerName := some output.stem }
  | _, _ => r.options

def loadRecords (s : Store) (p : Path) : List Record :=
  let skipped :=
    match Table.inputBytes s p with
    | .ok bytes => Table.skippedKeys p.suffix bytes
    | .error _ => []
  let loaded :=
    match Table.load s p with
    | .ok entries => ["Loaded " ++ toString entries.length ++ " entries from " ++ p.text]
    | .error _ => []
  (skipped.map ("Skipping non-string key " ++ ·) ++ loaded).map (⟨.debug, .table, ·⟩)

def extensionRecords (r : Request) : List Record :=
  match r.output with
  | some output =>
    let language := r.options.language
    if output.suffix = language.extension then []
    else
      [⟨.warning, .generation, "Output " ++ output.text ++ " does not use the " ++
        language.displayName ++ " extension " ++ language.extension⟩]
  | none => []

def lostRecords (lost : List Key.Warning) : List Record :=
  lost.map fun w => ⟨.warning, .keyTree, w.text⟩

def treeRecords (r : Request) (tree : Tree) : List Record :=
  (tree.outline "").map (fun line => ⟨.debug, .generation, "  " ++ line⟩) ++ extensionRecords r

def walkRecords (machine : Machine) (r : Request) (tree : Tree) : List Record :=
  if machine.levels .counting < tree.depth then []
  else if machine.levels .building < tree.depth ∨ machine.levels .rendering < tree.depth then
    treeRecords r tree
  else treeRecords r tree ++ Source.renderRecords r.resolved tree

def finish (s : Store) (r : Request) (entries : List Entry) (tree : Tree) (source : Rendered)
    (records : List Record) : Run :=
  let written := writeRendered s source r.output none
  { store := written.store
    stream := written.stream
    records := records ++ written.records
    result :=
      match written.paths with
      | .error fault => .error (.output fault)
      | .ok paths =>
        .ok ⟨r.options.language, entries.length, tree.groupCount, tree.leafCount, r.input, paths⟩ }

/-- A source for a tree. No walk through the tree goes deeper than the stack: the tree is counted before
the options are looked at, and its failures are told only when the whole of it was walked. -/
def renderWithin (machine : Machine) (r : Request) (tree : Tree) : Except GenerationFault Rendered :=
  if machine.levels .counting < tree.depth then .error .tooDeep
  else
    match Source.render r.resolved tree with
    | .error (.options fault) => .error (.options fault)
    | rendered =>
      if machine.levels .building < tree.depth then .error .tooDeep
      else
        match rendered with
        | .error (.options fault) => .error (.options fault)
        | .error (.breakdown fault) => .error (.breakdown fault)
        | .error (.translations first others) => .error (.translations first others)
        | .ok source =>
          if machine.levels .rendering < tree.depth then .error .tooDeep else .ok source

def generate (s : Store) (r : Request) : Run :=
  let loading := loadRecords s r.input
  match Table.load s r.input with
  | .error fault => ⟨s, "", loading, .error (.load r.input fault)⟩
  | .ok entries =>
    match Tree.build? r.delimiter entries with
    | none => ⟨s, "", loading, .error .emptyDelimiter⟩
    | some (tree, lost) =>
      let records := loading ++ lostRecords lost ++ walkRecords s.machine r tree
      match renderWithin s.machine r tree with
      | .error fault => ⟨s, "", records, .error fault⟩
      | .ok source => finish s r entries tree source records

end LocaleAccessors
