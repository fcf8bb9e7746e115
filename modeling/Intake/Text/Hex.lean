import Intake.Text.CodePoint

set_option autoImplicit false

/-!
Hexadecimal digits: lower case when written, either case when read.
-/

namespace Intake.Text

def hexDigit (n : Nat) : Char := Nat.digitChar (n % 16)

/-- The last `width` digits of a number. -/
def hex : Nat → Nat → Text
  | 0, _ => []
  | width + 1, n => hex width (n / 16) ++ [.char (hexDigit n)]

def hexValue? (c : Char) : Option Nat :=
  if '0' ≤ c ∧ c ≤ '9' then some (c.toNat - '0'.toNat)
  else if 'a' ≤ c ∧ c ≤ 'f' then some (c.toNat - 'a'.toNat + 10)
  else if 'A' ≤ c ∧ c ≤ 'F' then some (c.toNat - 'A'.toNat + 10)
  else none

@[simp] theorem length_hex (width n : Nat) : (hex width n).length = width := by
  induction width generalizing n with
  | zero => rfl
  | succ w ih => simp [hex, ih]

theorem hexValue?_hexDigit (n : Nat) : hexValue? (hexDigit n) = some (n % 16) := by
  have all : ∀ m : Fin 16, hexValue? (Nat.digitChar m.val) = some m.val := by decide
  exact all ⟨n % 16, Nat.mod_lt _ (by decide)⟩

/-- Reads digits from the most significant on; `none` at a character that is no digit. -/
def ofHex? (s : Text) : Option Nat :=
  s.foldlM (fun n c => (c.char?.bind hexValue?).map (n * 16 + ·)) 0

end Intake.Text
