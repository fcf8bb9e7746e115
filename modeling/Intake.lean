import Intake.Answers.Change
import Intake.Main
import Intake.Settings.Session
import Intake.Json.Store
import Intake.Proofs.Json.Put
import Intake.Proofs.Answers.Writing
import Intake.Proofs.Json.Merge
import Intake.Proofs.Answers.Merging
import Intake.Proofs.Json.Copying
import Intake.Proofs.Answers.Versions
import Intake.Proofs.Answers.Locking
import Intake.Proofs.CommandLine.Wording
import Intake.Proofs.CommandLine.Reading
import Intake.Proofs.CommandLine.Storing
import Intake.Proofs.Json.RoundTrip
import Intake.Proofs.Answers.Persistence
import Intake.Proofs.Values.Digits
import Intake.Proofs.Values.Dates
import Intake.Proofs.Values.Amounts
import Intake.Proofs.Json.Erase
import Intake.Proofs.Answers.Clearing
import Intake.Proofs.Answers.Typed
import Intake.Proofs.Answers.Lists
import Intake.Proofs.CommandLine.Showing
import Intake.Proofs.CommandLine.Reporting
import Intake.Proofs.Json.Elements
import Intake.Proofs.Answers.Attempts
import Intake.Proofs.Answers.Order
import Intake.Proofs.Values.Overlong
import Intake.Proofs.Json.Overlong
import Intake.Proofs.Answers.Refusing
import Intake.Proofs.Query.Breaking
import Intake.Proofs.Query.Parsing
import Intake.Proofs.Query.Walking
import Intake.Proofs.Query.Spelling
import Intake.Proofs.Query.Addressing
import Intake.Proofs.Answers.Asking
import Intake.Proofs.Query.Straying
import Intake.Proofs.Answers.Presence
import Intake.Proofs.Answers.Deleting
import Intake.Proofs.Settings.Fields
import Intake.Proofs.Settings.Keeping
import Intake.Proofs.Values.Tags
import Intake.Proofs.Answers.Locales
import Intake.Proofs.Settings.Locales
import Intake.Proofs.Answers.Erasing
import Intake.Proofs.Answers.Entities
import Intake.Proofs.Answers.Indices
import Intake.Proofs.Answers.Naming
import Intake.Proofs.Json.Remerging
import Intake.Proofs.Answers.Remerging
import Intake.Proofs.Answers.Absence
import Intake.Proofs.Answers.Replacing
import Intake.Proofs.Query.Lexing
import Intake.Proofs.Query.Extending
import Intake.Proofs.Query.Jamming
import Intake.Proofs.Query.Conjoining
import Intake.Proofs.Query.Filtering
import Intake.Proofs.Path.Grammar
import Intake.Proofs.Path.Deriving
import Intake.Proofs.Path.Rereading
import Intake.Proofs.Values.Calendar
import Intake.Proofs.Values.Dollars
import Intake.Proofs.Values.Integers
import Intake.Proofs.Answers.ApplicantName
import Intake.Proofs.Answers.ShownLists
import Intake.Proofs.Answers.Enumerating
import Intake.Proofs.Predicate.Formula
import Intake.Proofs.Predicate.Reaching
import Intake.Proofs.Merge.Summarizing
