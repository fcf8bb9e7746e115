import Intake.Text.Blank
import Intake.Text.DecimalDigit

set_option autoImplicit false

/-!
Whole numbers in decimal. A numeral of more than `digitLimit` digits is never converted, whatever
its value. Reading back what is written gives the number again.
-/

namespace Intake.Numeral

def digitLimit : Nat := 4300

def digits (n : Nat) : Text := Text.ofChars (Nat.toDigits 10 n)

def ofInt (n : Int) : Text :=
  if n < 0 then '-' :: digits n.natAbs else digits n.natAbs

/-- Whether an integer has few enough digits to be written at all. -/
def isWritable (n : Int) : Bool := (digits n.natAbs).length ≤ digitLimit

def value (ds : Text) : Nat := Nat.ofDigitChars 10 ds.chars 0

def value? (ds : Text) : Option Nat :=
  if ds.length ≤ digitLimit then some (value ds) else none

def signed (negative : Bool) (n : Nat) : Int := if negative then -n else n

/-- A leading sign and what follows it. -/
def splitSign : Text → Bool × Text
  | '-' :: cs => (true, cs)
  | '+' :: cs => (false, cs)
  | cs => (false, cs)

/-- The digit values of a run in which single underscores may stand between digits. -/
def spacedDigits? : Text → Option (List Nat)
  | [] => none
  | [c] => (Text.digitValue? c).map ([·])
  | c :: '_' :: cs => do return (← Text.digitValue? c) :: (← spacedDigits? cs)
  | c :: cs => do return (← Text.digitValue? c) :: (← spacedDigits? cs)

/-- The information separators U+001C to U+001F are blank, but not around a number. -/
def surrounds (c : CodePoint) : Bool := Text.isBlank c && !(0x1C ≤ c.toNat && c.toNat ≤ 0x1F)

/-- An integer written in any script: blanks around it, a sign, and single underscores between
its digits are allowed. -/
def loose? (s : Text) : Option Int := do
  let (negative, cs) := splitSign (s.trim surrounds)
  let ds ← spacedDigits? cs
  if ds.length ≤ digitLimit then
    some (signed negative (ds.foldl (fun n d => 10 * n + d) 0))
  else
    none

def groupFromEnd : Text → Text
  | a :: b :: c :: d :: rest => a :: b :: c :: ',' :: groupFromEnd (d :: rest)
  | ds => ds

/-- A comma stands before every three digits, counted from the end, but not at the start. -/
def grouped (n : Nat) : Text := (groupFromEnd (digits n).reverse).reverse

@[simp] theorem value_digits (n : Nat) : value (digits n) = n := by
  rw [value, digits, Text.chars_ofChars]
  exact Nat.ofDigitChars_toDigits (by decide) (by decide)

theorem isDigit_of_mem_digits {n : Nat} {c : CodePoint} (h : c ∈ digits n) : c.isDigit = true := by
  obtain ⟨d, hd, rfl⟩ := Text.mem_ofChars h
  exact Nat.isDigit_of_mem_toDigits (by decide) (by decide) hd

theorem digits_ne_nil (n : Nat) : digits n ≠ [] := by
  simp [digits, Text.ofChars, Nat.toDigits_ne_nil]

theorem value?_digits {n : Nat} (h : (digits n).length ≤ digitLimit) :
    value? (digits n) = some n := by
  simp [value?, h]

end Intake.Numeral
