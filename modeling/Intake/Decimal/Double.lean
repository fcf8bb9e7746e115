import Intake.Decimal.Numeral

set_option autoImplicit false

/-!
Numbers of 64-bit binary floating point. Every finite one is a whole number of units of 2^-1074,
the least positive one; the sign is kept apart so that there are two zeros. Reading and dividing
round to the nearest such number, a tie to the one with an even significand.
-/

namespace Intake

inductive Double where
  | nan
  | infinite (negative : Bool)
  | finite (negative : Bool) (units : Nat)
  deriving DecidableEq

namespace Double

/-- One is this many units. -/
def one : Nat := Nat.pow 2 1074

/-- No finite number reaches this many units. -/
def limit : Nat := Nat.pow 2 2098

def size (n : Nat) : Nat := if n = 0 then 0 else n.log2 + 1

/-- Half of the distance between neighbours is `2 ^ (spacing - 1)` units. -/
def spacing (units : Nat) : Nat := size units - 53

def roundQuotient (num den : Nat) : Nat :=
  let quotient := num / den
  let rest := 2 * (num % den)
  if rest < den ∨ (rest = den ∧ quotient % 2 = 0) then quotient else quotient + 1

/-- The units of the number nearest to `num / den`. -/
def roundUnits (num den : Nat) : Nat :=
  let exact := num * one
  let scale := Nat.pow 2 (spacing (exact / den))
  roundQuotient exact (den * scale) * scale

def ofRatio (negative : Bool) (num den : Nat) : Double :=
  let units := roundUnits num den
  if units < limit then .finite negative units else .infinite negative

/-- The number nearest to `digits * 10 ^ exponent`. Beyond 10^±400 no power of ten is computed. -/
def ofDecimal (negative : Bool) (digits : Nat) (exponent : Int) : Double :=
  let magnitude := exponent + (Numeral.digits digits).length
  if digits = 0 ∨ magnitude < -400 then .finite negative 0
  else if 400 < magnitude then .infinite negative
  else if 0 ≤ exponent then ofRatio negative (digits * Nat.pow 10 exponent.toNat) 1
  else ofRatio negative digits (Nat.pow 10 (-exponent).toNat)

/-- Whole numbers and finite doubles on one scale. -/
def unitsOfInt (n : Int) : Int := n * one

/-- Where a number stands on the number line; NaN stands nowhere. -/
inductive Place where
  | below
  | point (units : Int)
  | above
  deriving DecidableEq

def place? : Double → Option Place
  | .nan => none
  | .infinite true => some .below
  | .infinite false => some .above
  | .finite negative units => some (.point (Numeral.signed negative units))

def Place.before : Place → Place → Bool
  | .below, .below => false
  | .below, _ => true
  | .point a, .point b => a < b
  | .point _, .above => true
  | _, _ => false

/-- NaN is the same as nothing, and the two zeros are the same. -/
def same (x y : Double) : Bool := x.place?.isSome && x.place? == y.place?

theorem same_iff {x y : Double} : x.same y = true ↔ x.place?.isSome ∧ x.place? = y.place? := by
  simp [same]

theorem same_self {x : Double} (h : x ≠ .nan) : x.same x = true := by
  cases x with
  | nan => contradiction
  | infinite negative => cases negative <;> rfl
  | finite negative units => simp [same_iff, place?]

end Double
end Intake
