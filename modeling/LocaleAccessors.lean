import LocaleAccessors.Main
import LocaleAccessors.Proofs.Strings.Grammar
import LocaleAccessors.Proofs.Strings.Trivia
import LocaleAccessors.Proofs.Result
import LocaleAccessors.Proofs.Strings.Tokens
import LocaleAccessors.Proofs.Strings.Acceptance
import LocaleAccessors.Proofs.Format.Fields
import LocaleAccessors.Proofs.Format.Unambiguous
import LocaleAccessors.Proofs.Format.Marks
import LocaleAccessors.Proofs.Format.Positions
import LocaleAccessors.Proofs.Format.Slots
import LocaleAccessors.Proofs.Format.Uses
import LocaleAccessors.Proofs.Format.Inference
import LocaleAccessors.Proofs.Key.Survivors
import LocaleAccessors.Proofs.Files.AllOrNothing
import LocaleAccessors.Proofs.Namespace.Names
import LocaleAccessors.Proofs.Source.ObjectiveC.Agreement
import LocaleAccessors.Proofs.Source.Swift.ReadBack
import LocaleAccessors.Proofs.Source.ObjectiveC.Names
import LocaleAccessors.Proofs.Text.Utf8
import LocaleAccessors.Proofs.Text.Utf16
import LocaleAccessors.Proofs.Strings.Written
import LocaleAccessors.Proofs.Table.Encodings
import LocaleAccessors.Namespace.Building
import LocaleAccessors.Proofs.Key.Order
import LocaleAccessors.Proofs.Namespace.Failures
import LocaleAccessors.Proofs.Files.Pair
import LocaleAccessors.Proofs.Files.Faults
import LocaleAccessors.Proofs.Key.Rebuilding
import LocaleAccessors.Proofs.Namespace.Translations
import LocaleAccessors.Proofs.CommandLine.ExitCode
import LocaleAccessors.Proofs.CommandLine.Breakdown
import LocaleAccessors.Proofs.Key.Children
import LocaleAccessors.Proofs.Format.FirstOffence
import LocaleAccessors.Proofs.Format.ParameterNames
import LocaleAccessors.Proofs.Table.Agreement
import LocaleAccessors.Proofs.Json.Reading
import LocaleAccessors.Proofs.Strings.Opening
import LocaleAccessors.Proofs.Strings.Places
import LocaleAccessors.Proofs.Strings.Joining
import LocaleAccessors.Proofs.Table.Recognition
import LocaleAccessors.Proofs.Format.AnyOrder
import LocaleAccessors.Proofs.Format.Composition
import LocaleAccessors.Proofs.Source.ObjectiveC.Literal
import LocaleAccessors.Proofs.Source.Literal
import LocaleAccessors.Proofs.Source.ObjectiveC.Documentation
import LocaleAccessors.Proofs.Key.Insertion
import LocaleAccessors.Proofs.Key.Accounting
import LocaleAccessors.Proofs.Text.Capital
import LocaleAccessors.Proofs.Name.Idempotence
import LocaleAccessors.Proofs.Strings.ReportedLines
import LocaleAccessors.Proofs.Format.Gaps
import LocaleAccessors.Proofs.Files.Import
import LocaleAccessors.Proofs.Key.Path
import LocaleAccessors.Proofs.Name.Suffix
import LocaleAccessors.Proofs.Source.Declared
import LocaleAccessors.Proofs.Source.ObjectiveC.Shortcut
