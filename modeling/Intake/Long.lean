import Intake.Fault

set_option autoImplicit false

/-!
Whole numbers of form input: ASCII digits behind at most one sign, within 64 bits.
-/

namespace Intake.Long

def min : Int := -0x8000000000000000
def max : Int := 0x7FFFFFFFFFFFFFFF

def parse (text : Text) : Except Fault Int :=
  let (negative, ds) := Numeral.splitSign text
  if ds = [] ∨ !ds.all CodePoint.isDigit then .error (.malformedLong text)
  else match Numeral.value? ds with
    | none => .error .numeralTooLong
    | some n =>
      let value := Numeral.signed negative n
      if value < min ∨ max < value then .error (.longOutOfRange text) else .ok value

def listText (ns : List Int) : Text :=
  "[" ++ List.intercalate ", " (ns.map Numeral.ofInt) ++ "]"

end Intake.Long
