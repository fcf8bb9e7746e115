import Intake.Json.Shown

set_option autoImplicit false

/-!
Why an operation is refused. Each cause has a category, by which callers tell faults apart, and
most have a message. Faults of the categories that `isReported` names are the store's own; the
others say that a caller's argument makes no sense.
-/

namespace Intake

inductive DateFault where
  | year
  | month
  | day
  deriving DecidableEq

inductive Fault where
  | malformedSegment (text : Text)
  | rootIndexed
  | negativeIndex (index : Int)
  | rootParent
  | rootKey
  | notElement (path : Text)
  | rootErased
  | malformedDocument
  | notObject (found : Kind)
  | locked
  | malformedLong (text : Text)
  | longOutOfRange (text : Text)
  | notInteger (value : Atom)
  | malformedCurrency (text : Text)
  | malformedDate (text : Text)
  | noSuchDate (text : Text) (cause : DateFault)
  | millisOutOfRange (millis : Int)
  | blockedBelow (place : Text) (found : Kind)
  | blockedAncestor (element array : Text) (found : Kind)
  | blockedElement (element array : Text) (found : Kind)
  | noArray (place : Text)
  | unrootedQuery (query : Text)
  /-- With what the report says of the cause. -/
  | malformedQuery (query detail : Text)
  | malformedLocale (text : Text)
  | unknownName (name family : Text)
  | leafShape
  | branchShape (connective : Text)
  /-- With what the report says of the cause. -/
  | malformedSettings (detail : Text)
  | refusedSettings (detail : Text)
  | invalidRecord
  | numeralTooLong
  | zeroStride
  | incomparable
  /-- A query asks for what two routes have in common. -/
  | commonRoute
  | tooLargeForDouble
  /-- What is spelt like a number, a date or a color has no value. -/
  | noSuchValue (spelling : Text)
  /-- A number without any digits. -/
  | emptyNumber
  | unknownTruthWord
  | unreadableMoment
  /-- A default value that leads back to itself. -/
  | endlessValue
  /-- A message whose markup closes what it has not opened. -/
  | garbledMarkup
  /-- A lone half of a surrogate pair cannot leave the program. -/
  | unencodable
  deriving DecidableEq

namespace Fault

inductive Category where
  | path
  | document
  | lock
  | value
  | placement
  | query
  | argument
  | record
  | operand
  | meaning
  | overflow
  | emptiness
  | truthWord
  | moment
  | depth
  | markup
  | encoding
  deriving DecidableEq

def category : Fault → Category
  | malformedSegment _ | rootIndexed | negativeIndex _ | rootParent | rootKey | notElement _
  | rootErased => .path
  | malformedDocument | notObject _ => .document
  | locked => .lock
  | malformedLong _ | longOutOfRange _ | notInteger _ | malformedCurrency _ | malformedDate _
  | noSuchDate _ _ | millisOutOfRange _ => .value
  | blockedBelow _ _ | blockedAncestor _ _ _ | blockedElement _ _ _ | noArray _ => .placement
  | unrootedQuery _ | malformedQuery _ _ => .query
  | malformedLocale _ | unknownName _ _ | leafShape | branchShape _ | malformedSettings _
  | refusedSettings _ | numeralTooLong | zeroStride | noSuchValue _ => .argument
  | invalidRecord => .record
  | incomparable => .operand
  | commonRoute => .meaning
  | tooLargeForDouble => .overflow
  | emptyNumber => .emptiness
  | unknownTruthWord => .truthWord
  | unreadableMoment => .moment
  | endlessValue => .depth
  | garbledMarkup => .markup
  | unencodable => .encoding

def isReported (e : Fault) : Bool :=
  match e.category with
  | .path | .document | .lock | .value | .placement | .query => true
  | _ => false

end Fault

def DateFault.message : DateFault → Text
  | .year => "year 0 is out of range"
  | .month => "month must be in 1..12"
  | .day => "day is out of range for month"

namespace Fault

def message? : Fault → Option Text
  | malformedSegment text => some ("Invalid path segment: '" ++ text ++ "'")
  | rootIndexed => some "Cannot index the root path"
  | negativeIndex i => some ("Array index must be non-negative, got " ++ Numeral.ofInt i)
  | rootParent => some "The root path has no parent"
  | rootKey => some "The root path has no key name"
  | notElement path => some ("Path '" ++ path ++ "' is not an array element")
  | rootErased => some "Cannot delete the document root"
  | malformedDocument => some "Applicant data is not valid JSON"
  | notObject found => some ("Applicant data must be a JSON object, got " ++ found.name)
  | locked => some "Cannot change ApplicantData after it has been locked."
  | malformedLong text => some ("Not a valid integer: '" ++ text ++ "'")
  | longOutOfRange text => some ("Integer out of range: '" ++ text ++ "'")
  | notInteger value => some ("Not an integer: " ++ value.shown)
  | malformedCurrency text => some ("Invalid currency amount: '" ++ text ++ "'")
  | malformedDate text => some ("Date must be in YYYY-MM-DD format, got '" ++ text ++ "'")
  | noSuchDate text cause => some ("Invalid date '" ++ text ++ "': " ++ cause.message)
  | millisOutOfRange millis =>
    some ("Epoch milliseconds out of date range: " ++ Numeral.ofInt millis)
  | blockedBelow place found =>
    some ("Cannot write below '" ++ place ++ "': it holds a " ++ found.name)
  | blockedAncestor element array found =>
    some ("Cannot create '" ++ element ++ "': '" ++ array ++ "' holds a " ++ found.name)
  | blockedElement element array found =>
    some ("Cannot write array element '" ++ element ++ "': '" ++ array ++ "' holds a " ++
      found.name)
  | noArray place => some ("No array at '" ++ place ++ "'")
  | unrootedQuery query => some ("Query must start with '$': '" ++ query ++ "'")
  | malformedQuery query _ => some ("Invalid query '" ++ query ++ "'")
  | malformedLocale text => some ("Invalid locale '" ++ text ++ "'")
  | unknownName name family => some (Text.quoted name ++ " is not a valid " ++ family)
  | leafShape => some "A leaf node holds exactly one predicate and no children"
  | branchShape connective =>
    some ("An " ++ connective ++ " node needs children and no predicate")
  | malformedSettings _ => some "Invalid YAML in store config"
  | refusedSettings _ => some "Failed to load store config from"
  | _ => none

/-- What a report says behind the message. -/
def detail : Fault → Text
  | malformedQuery _ cause => ": " ++ cause
  | malformedSettings cause => ": " ++ cause
  | refusedSettings cause => ": " ++ cause
  | noSuchValue spelling => ": " ++ Text.quoted spelling
  | _ => []

/-- The message as a reader sees it. -/
def report (e : Fault) : Text := e.message?.getD "The operation cannot be carried out" ++ e.detail

end Fault
end Intake
