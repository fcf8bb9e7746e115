import Intake.Fault

set_option autoImplicit false

/-!
Amounts of money in cents. Dollars are read from plain digits or from groups of three divided by
commas, with no decimals or exactly two.
-/

namespace Intake

structure Currency where
  cents : Int
  deriving DecidableEq

namespace Currency

/-- A comma and exactly three digits, repeated to the end. -/
def isGroups : Text → Bool
  | [] => true
  | ',' :: a :: b :: c :: rest => a.isDigit && b.isDigit && c.isDigit && isGroups rest
  | _ => false

def isWhole (cs : Text) : Bool :=
  let lead := cs.takeWhile CodePoint.isDigit
  let rest := cs.dropWhile CodePoint.isDigit
  !lead.isEmpty && (rest.isEmpty || (lead.length ≤ 3 && isGroups rest))

def splitCents? (cs : Text) : Option (Text × Text) :=
  let whole := cs.takeWhile (· ≠ .char '.')
  match cs.dropWhile (· ≠ .char '.') with
  | [] => some (whole, [])
  | [_, a, b] => if a.isDigit && b.isDigit then some (whole, [a, b]) else none
  | _ => none

def parse (dollars : Text) : Except Fault Currency :=
  match splitCents? (Text.strip dollars) with
  | none => .error (.malformedCurrency dollars)
  | some (whole, fraction) =>
    if isWhole whole then
      match Numeral.value? (whole.filter (· ≠ .char ',')) with
      | none => .error .numeralTooLong
      | some n => .ok ⟨100 * n + Numeral.value fraction⟩
    else
      .error (.malformedCurrency dollars)

/-- Whole dollars are rounded down, so that the two decimals are never negative. They are written
as long as every integer of that size is. -/
def dollarsText (a : Currency) : Except Fault Text :=
  let whole := Int.fdiv a.cents 100
  let rest := (Int.fmod a.cents 100).toNat
  let sign : Text := if whole < 0 then "-" else ""
  let places : Text := [.char (Nat.digitChar (rest / 10)), .char (Nat.digitChar (rest % 10))]
  if Numeral.isWritable whole then .ok (sign ++ Numeral.grouped whole.natAbs ++ "." ++ places)
  else .error .numeralTooLong

/-- The double nearest to the amount. -/
def dollars (a : Currency) : Except Fault Double :=
  match Double.ofRatio (a.cents < 0) a.cents.natAbs 100 with
  | .finite negative units => .ok (.finite negative units)
  | _ => .error .tooLargeForDouble

end Currency
end Intake
