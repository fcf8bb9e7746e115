import Intake.Decimal.Numeral

set_option autoImplicit false

/-!
Indices on a command line. Blanks around an index, zeros at its start with underscores among them,
single underscores between its other digits, and a fraction of zeros do not count. A minus sign
stands in front of the index or behind the zeros at its start.
-/

namespace Intake.Index

/-- A numeral holds at most as many characters, a sign included. -/
def sizeLimit : Nat := Numeral.digitLimit

/-- Whether a numeral can go on from here without zeros to be dropped. -/
def isFirst (c : CodePoint) : Bool := c = '-' || (c.isDigit && c ≠ '0')

/-- What stays of a text behind a zero or an underscore. The last of them stays if nothing else or
a fraction comes. -/
def dropZeros? (last : CodePoint) : Text → Option Text
  | [] => some [last]
  | c :: rest =>
    if c = '0' || c = '_' then dropZeros? c rest
    else if c = '.' then some (last :: c :: rest)
    else if isFirst c then some (c :: rest)
    else none

def dropLeadingZeros? : Text → Option Text
  | [] => none
  | c :: rest =>
    if c = '0' then dropZeros? c rest else if isFirst c then some (c :: rest) else none

def dropFraction (s : Text) : Text :=
  match s.splitOn (.char '.') with
  | [whole, zeros] => if zeros ≠ [] && zeros.all (· = .char '0') then whole else s
  | _ => s

/-- Whether each underscore has another character on both sides. -/
def areBetween (s : Text) : Bool := (s.splitOn (.char '_')).all (· ≠ [])

def dropUnderscores (s : Text) : Text := if areBetween s then s.filter (· ≠ .char '_') else s

/-- A numeral with nothing but digits behind its sign, and no zero at its start. -/
def plain? (s : Text) : Option Int :=
  let (negative, ds) := if s.head? = some '-' then (true, s.drop 1) else (false, s)
  if ds ≠ [] && ds.all CodePoint.isDigit && (ds.length = 1 || ds.head? ≠ some '0')
      && s.length ≤ sizeLimit then
    some (Numeral.signed negative (Numeral.value ds))
  else none

/-- No sign stands behind a plus sign. -/
def dropPlus? : Text → Option Text
  | '+' :: '-' :: _ => none
  | '+' :: rest => some rest
  | s => some s

def parse? (s : Text) : Option Int := do
  let s ← dropPlus? (s.trim Numeral.surrounds)
  let (sign, rest) := if s.head? = some '-' then (s.take 1, s.drop 1) else ([], s)
  plain? (sign ++ dropUnderscores (dropFraction (← dropLeadingZeros? rest)))

end Intake.Index
