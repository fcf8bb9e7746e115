import Intake.Fault

set_option autoImplicit false

/-!
Why a text is no document of values: it is not written as one, or a value in it makes no sense.
-/

namespace Intake.Yaml

inductive Fault where
  /-- With what the report says of the cause. -/
  | malformedSettings (detail : Text)
  | noSuchValue (spelling : Text)
  | emptyNumber
  | tooLargeForDouble
  | unknownTruthWord
  | unreadableMoment
  | endlessValue
  | incomparable
  deriving DecidableEq

/-- The fault of an operation that reads the text. -/
def Fault.toFault : Fault → Intake.Fault
  | malformedSettings detail => .malformedSettings detail
  | noSuchValue spelling => .noSuchValue spelling
  | emptyNumber => .emptyNumber
  | tooLargeForDouble => .tooLargeForDouble
  | unknownTruthWord => .unknownTruthWord
  | unreadableMoment => .unreadableMoment
  | endlessValue => .endlessValue
  | incomparable => .incomparable

end Intake.Yaml
