import Intake.Decimal.Double
import Intake.Settings.Yaml.Fault
import Intake.Text.Hex

set_option autoImplicit false

/-!
Numbers of a settings file. Lines under the text divide digits at will; whole numbers have base 2
behind `0b`, 16 behind `0x`, 8 behind another zero, and 60 where colons divide them.
-/

namespace Intake.Yaml

/-- The value of a digit of any script, or of a letter, in a base. -/
def digitIn? (base : Nat) (c : CodePoint) : Option Nat :=
  ((Text.digitValue? c).or (c.char?.bind Text.hexValue?)).filter (· < base)

/-- What follows a zero and the letter of the base, or the whole text. -/
def dropBaseMark (mark : CodePoint) : Text → Text
  | '0' :: c :: rest => if c.toLower = mark then rest else '0' :: c :: rest
  | s => s

/-- An integer in base 2, 8 or 16. The mark of its base may stand in front of it. -/
def intIn? (base : Nat) (mark : CodePoint) (s : Text) : Option Int := do
  let (negative, body) := Numeral.splitSign (s.trim Numeral.surrounds)
  let ds := dropBaseMark mark body
  if ds = [] then none
  else
    let n ← ds.foldlM (fun n c => (digitIn? base c).map (base * n + ·)) 0
    return Numeral.signed negative n

/-- The value of parts in base 60, the first of which counts most. -/
def ofSixtieths (parts : List Int) : Int := parts.foldl (fun n d => 60 * n + d) 0

def orNoValue {α : Type} (read? : Text → Option α) (s : Text) : Except Fault α :=
  (read? s).elim (.error (.noSuchValue s)) .ok

def unsigned (s : Text) : Except Fault Int :=
  if s.take 2 = "0b" then orNoValue (intIn? 2 'b') (s.drop 2)
  else if s.take 2 = "0x" then orNoValue (intIn? 16 'x') (s.drop 2)
  else if s = "0" then .ok 0
  else if s.take 1 = "0" then orNoValue (intIn? 8 'o') s
  else if s.contains (.char ':') then
    ((s.splitOn (.char ':')).mapM (orNoValue Numeral.loose?)).map ofSixtieths
  else orNoValue Numeral.loose? s

def dropLines (s : Text) : Text := s.filter (· ≠ .char '_')

def readInt (s : Text) : Except Fault Int :=
  let (negative, body) := Numeral.splitSign (dropLines s)
  if body = [] then .error .emptyNumber
  else (unsigned body).map fun n => if negative then -n else n

/-- Digits of any script as ASCII digits. -/
def plainDigits (s : Text) : Text :=
  s.map fun c => match Text.digitValue? c with
    | some d => .char (Nat.digitChar d)
    | none => c

/-- What follows the letter of an exponent. -/
def exponent? (s : Text) : Option Int :=
  let (negative, ds) := Numeral.splitSign s
  if ds ≠ [] && ds.all CodePoint.isDigit then some (Numeral.signed negative (Numeral.value ds))
  else none

/-- A double in lower case: digits, perhaps a point and an exponent, or the name of a limit. -/
def double? (s : Text) : Option Double := do
  let (negative, body) := Numeral.splitSign (plainDigits (s.trim Numeral.surrounds))
  if body = "inf" || body = "infinity" then return .infinite negative
  else if body = "nan" then return .nan
  else
    let whole := body.takeWhile CodePoint.isDigit
    let behind := body.drop whole.length
    let places := if behind.head? = some '.' then (behind.drop 1).takeWhile CodePoint.isDigit
      else []
    let rest := if behind.head? = some '.' then behind.drop (places.length + 1) else behind
    if whole ++ places = [] then none
    else
      let e ← match rest with
        | [] => some 0
        | mark :: s => if mark = 'e' then exponent? s else none
      return .ofDecimal negative (Numeral.value (whole ++ places)) (e - places.length)

def negate : Double → Double
  | .nan => .nan
  | .infinite negative => .infinite !negative
  | .finite negative units => .finite (!negative) units

def plus : Double → Double → Double
  | .finite n x, .finite m y =>
    let sum := Numeral.signed n x + Numeral.signed m y
    .ofRatio (sum < 0) sum.natAbs Double.one
  | .infinite n, .infinite m => if n = m then .infinite n else .nan
  | .nan, _ | _, .nan => .nan
  | .infinite n, _ | _, .infinite n => .infinite n

/-- A double so many times, both rounded to doubles. -/
def times (n : Nat) (x : Double) : Double :=
  match x, Double.ofRatio false n 1 with
  | .finite negative units, .finite _ many =>
    .ofRatio negative (units * many) (Double.one * Double.one)
  | x, _ => x

/-- The sum of parts in base 60, the first of which counts least. Beyond 173 powers of 60 there are
no doubles. -/
def sumSixtieths (parts : List Double) : Except Fault Double :=
  if 174 < parts.length then .error .tooLargeForDouble
  else
    .ok (parts.zipIdx.foldl (fun sum p => plus sum (times (Nat.pow 60 p.2) p.1)) (.finite false 0))

def readDouble (s : Text) : Except Fault Double :=
  let text := (dropLines s).map CodePoint.toLower
  let (negative, body) := Numeral.splitSign text
  let signed (x : Double) : Double := if negative then negate x else x
  if text = [] then .error .emptyNumber
  else if body = ".inf" then .ok (.infinite negative)
  else if body = ".nan" then .ok .nan
  else if body.contains (.char ':') then do
    let parts ← (body.splitOn (.char ':')).mapM (orNoValue double?)
    (sumSixtieths parts.reverse).map signed
  else (orNoValue double? body).map signed

end Intake.Yaml
