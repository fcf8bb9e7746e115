import Intake.Settings.Yaml.Moment

set_option autoImplicit false

/-!
The tags of nodes. A plain scalar without one is tagged by its spelling: null, a truth value, a
whole number, a fraction, a date, the marks of merged mappings and default values, or else a text.
-/

namespace Intake.Yaml

inductive Tag where
  | null
  | truth
  | int
  | double
  | moment
  | binary
  | text
  | sequence
  | mapping
  | set
  | orderedMapping
  | pairs
  | merge
  | value
  | other (name : Text)
  deriving DecidableEq

def coreHandle : Text := "tag:yaml.org,2002:"

def coreNames : List (Text × Tag) :=
  [("null", .null), ("bool", .truth), ("int", .int), ("float", .double), ("timestamp", .moment),
    ("binary", .binary), ("str", .text), ("seq", .sequence), ("map", .mapping), ("set", .set),
    ("omap", .orderedMapping), ("pairs", .pairs), ("merge", .merge), ("value", .value)]

namespace Tag

def ofName (s : Text) : Tag :=
  if coreHandle.isPrefixOf s then (coreNames.lookup (s.drop coreHandle.length)).getD (.other s)
  else .other s

def name : Tag → Text
  | other s => s
  | t => (coreNames.find? fun r => r.2 = t).elim [] fun r => coreHandle ++ r.1

end Tag

def nullWords : List Text := ["", "~", "null", "Null", "NULL"]

def truthWords : List Text :=
  ["yes", "Yes", "YES", "no", "No", "NO", "true", "True", "TRUE", "false", "False", "FALSE", "on",
    "On", "ON", "off", "Off", "OFF"]

def limitWords : List Text :=
  [".inf", ".Inf", ".INF", "+.inf", "+.Inf", "+.INF", "-.inf", "-.Inf", "-.INF", ".nan", ".NaN",
    ".NAN"]

def isDigitOrLine (c : CodePoint) : Bool := c.isDigit || c = '_'

def isHexOrLine (c : CodePoint) : Bool :=
  isDigitOrLine c || c.char?.any fun d => ('a' ≤ d && d ≤ 'f') || ('A' ≤ d && d ≤ 'F')

def isOctalOrLine (c : CodePoint) : Bool := c = '_' || (c.isDigit && c.toNat < 0x38)

def isBinaryOrLine (c : CodePoint) : Bool := c = '_' || c = '0' || c = '1'

/-- A part of a number in base 60 behind the first. -/
def isSixtieth : Text → Bool
  | [a] => a.isDigit
  | [a, b] => a.isDigit && a.toNat < 0x36 && b.isDigit
  | _ => false

/-- A digit, and then digits and lines under the text. -/
def isGroupedNumber (s : Text) : Bool := goesOnWithDigit s && s.all isDigitOrLine
where goesOnWithDigit (s : Text) : Bool := s.head?.any CodePoint.isDigit

def isInteger (s : Text) : Bool :=
  match (Numeral.splitSign s).2 with
  | [] => false
  | '0' :: 'b' :: ds => !ds.isEmpty && ds.all isBinaryOrLine
  | '0' :: 'x' :: ds => !ds.isEmpty && ds.all isHexOrLine
  | '0' :: ds => ds.all isOctalOrLine
  | ds =>
    match ds.splitOn (.char ':') with
    | [] => false
    | whole :: parts => isGroupedNumber whole && parts.all isSixtieth

def isSignedExponent : Text → Bool
  | [] => true
  | e :: s :: ds =>
    (e = 'e' || e = 'E') && (s = '+' || s = '-') && !ds.isEmpty && ds.all CodePoint.isDigit
  | _ => false

/-- Digits, a point, and perhaps more digits and an exponent with a sign. In base 60 there is no
exponent, and without digits before the point there is no sign. -/
def isFraction (s : Text) : Bool :=
  let body := (Numeral.splitSign s).2
  let whole := body.takeWhile (· ≠ .char '.')
  let places := (body.drop (whole.length + 1)).takeWhile isDigitOrLine
  let behind := body.drop (whole.length + 1 + places.length)
  let pointed := whole.length < body.length
  match whole.splitOn (.char ':') with
  | [[]] => pointed && body = s && isGroupedNumber places && isSignedExponent behind
  | [_] => pointed && isGroupedNumber whole && isSignedExponent behind
  | first :: parts => pointed && isGroupedNumber first && parts.all isSixtieth && behind.isEmpty
  | [] => false

/-- A line feed at the end does not count, unless it is all there is. -/
def Tag.ofPlain (text : Text) : Tag :=
  let s := if text.getLast? = some '\n' && text ≠ "\n" then text.dropLast else text
  if nullWords.contains s then .null
  else if truthWords.contains s then .truth
  else if limitWords.contains s || isFraction s then .double
  else if isInteger s then .int
  else if s = "<<" then .merge
  else if s = "=" then .value
  else if SpeltMoment.isPlain s then .moment
  else if s = "!" || s = "&" || s = "*" then .other (coreHandle ++ "yaml")
  else .text

end Intake.Yaml
