import LocaleAccessors.Generation

/-!
How a run ends: the exit codes, and what is said of each fault.
-/

namespace LocaleAccessors
open Source (translationsMessage)
open Text (CodePoint codePoints)

inductive ExitCode where
  | success
  | usage
  | data
  | inputOutput
  deriving DecidableEq

def ExitCode.number : ExitCode → Nat
  | .success => 0
  | .usage => 64
  | .data => 65
  | .inputOutput => 74

/-- The exit code for a fault. A few faults have none: they end the program on the way. -/
def GenerationFault.exit? : GenerationFault → Option ExitCode
  | .load _ .nameTooLong | .load _ (.refused _) => none
  | .load _ (.format reason) => if reason.isLimit then none else some .inputOutput
  | .load _ _ => some .inputOutput
  | .emptyDelimiter => none
  | .options _ => some .usage
  | .tooDeep => none
  | .breakdown _ => none
  | .translations _ _ => some .data
  | .output (.unencodable _) | .output (.failed _ _) | .output (.stream _) => some .inputOutput
  | .output _ => none

def loadMessage (p : Files.Path) : Table.LoadFault → List CodePoint
  | .notFound => codePoints (Table.notFoundMessage p)
  | .nameTooLong => codePoints (Table.nameTooLongMessage p)
  | .refused words => codePoints (Table.unseenMessage p words)
  | .unreadable words => codePoints (Table.unreadMessage p words)
  | .format reason => reason.message p.text

def GenerationFault.messages : GenerationFault → List (List CodePoint)
  | .load p fault => [loadMessage p fault]
  | .emptyDelimiter => [codePoints Key.emptyDelimiter]
  | .options fault => [codePoints fault.message]
  | .tooDeep => [codePoints tooDeepMessage]
  | .breakdown fault => [codePoints fault.message]
  | .translations first others =>
    codePoints (translationsMessage (others.length + 1)) ::
      (first :: others).map fun f => codePoints f.message
  | .output fault => [codePoints fault.message]

end LocaleAccessors
