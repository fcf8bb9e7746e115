import Intake.Decimal.Double

set_option autoImplicit false

/-!
The shortest decimal text that reads back as a given double. Of the decimals with the fewest
digits that round to the number, the nearest is taken, a tie going to the even last digit.
-/

namespace Intake.Double

/-- `coefficient * 10 ^ exponent`. -/
structure Decimal where
  coefficient : Nat
  exponent : Int

/-- The reals that round to a number, in quarters of a unit; `closed` when both ends do. -/
structure Interval where
  low : Nat
  high : Nat
  closed : Bool

/-- A power of two has its lower neighbour at half the distance of its upper one. -/
def interval (units : Nat) : Interval :=
  let gap := Nat.pow 2 (spacing units)
  let below := if 0 < spacing units ∧ units = Nat.pow 2 units.log2 then gap else 2 * gap
  { low := 4 * units - below, high := 4 * units + 2 * gap, closed := units / gap % 2 = 0 }

def Interval.contains (i : Interval) (num den : Nat) : Bool :=
  if i.closed then i.low * den ≤ num && num ≤ i.high * den
  else i.low * den < num && num < i.high * den

def decimalShift (exponent : Int) : Nat × Nat :=
  if 0 ≤ exponent then (Nat.pow 10 exponent.toNat, 1)
  else (1, Nat.pow 10 (-exponent).toNat)

def roundsTo (units : Nat) (d : Decimal) : Bool :=
  let (up, down) := decimalShift d.exponent
  (interval units).contains (4 * one * d.coefficient * up) down

/-- The decimal of the given last place that is closest to a number, if one rounds to it. -/
def nearestAt? (units : Nat) (exponent : Int) : Option Decimal :=
  let (up, down) := decimalShift exponent
  let num := units * down
  let den := one * up
  let low : Decimal := ⟨num / den, exponent⟩
  let high : Decimal := ⟨num / den + 1, exponent⟩
  let rest := 2 * (num % den)
  let lowFirst := rest < den || (rest = den && low.coefficient % 2 = 0)
  (if lowFirst then [low, high] else [high, low]).find? (roundsTo units)

/-- How many places a number's first digit stands left of the decimal point. -/
def leadingPlace (units : Nat) : Int :=
  let guess := ((size units : Int) - 1075) * 30103 / 100000 + 1
  let (up, down) := decimalShift guess
  if one * up ≤ units * down then guess + 1 else guess

def shortest (units : Nat) : Decimal :=
  let places := (List.range 17).map fun (n : Nat) => leadingPlace units - (n + 1 : Nat)
  (places.findSome? (nearestAt? units)).getD ⟨0, 0⟩

def dropTrailingZeros (ds : Text) : Text :=
  (ds.reverse.dropWhile (· = .char '0')).reverse

/-- How doubles are written. -/
structure Layout where
  nan : Text
  infinity : Text
  /-- Positional notation is for first digits from this many places left of the point … -/
  lowest : Int
  /-- … up to this many. -/
  highest : Int
  exponentDigits : Nat

def padLeft (width : Nat) (ds : Text) : Text :=
  List.replicate (width - ds.length) (.char '0') ++ ds

def positional (ds : Text) (place : Int) : Text :=
  if place ≤ 0 then
    "0." ++ List.replicate (-place).toNat (CodePoint.char '0') ++ ds
  else if ds.length ≤ place.toNat then
    ds ++ List.replicate (place.toNat - ds.length) (CodePoint.char '0') ++ ".0"
  else
    ds.take place.toNat ++ "." ++ ds.drop place.toNat

def scientific (width : Nat) (ds : Text) (place : Int) : Text :=
  let exponent := place - 1
  let sign : Text := if exponent < 0 then "-" else "+"
  let fraction : Text := if ds.length ≤ 1 then [] else '.' :: ds.drop 1
  ds.take 1 ++ fraction ++ "e" ++ sign ++ padLeft width (Numeral.digits exponent.natAbs)

def magnitude (layout : Layout) (units : Nat) : Text :=
  if units = 0 then ['0', '.', '0']
  else
    let d := shortest units
    let ds := Numeral.digits d.coefficient
    let place := d.exponent + ds.length
    let kept := dropTrailingZeros ds
    if layout.lowest ≤ place ∧ place ≤ layout.highest then positional kept place
    else scientific layout.exponentDigits kept place

def withSign (negative : Bool) (cs : Text) : Text :=
  if negative then '-' :: cs else cs

def written (layout : Layout) : Double → Text
  | .nan => layout.nan
  | .infinite negative => withSign negative layout.infinity
  | .finite negative units => withSign negative (magnitude layout units)

end Intake.Double
