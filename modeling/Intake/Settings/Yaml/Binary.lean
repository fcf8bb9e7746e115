import Intake.Settings.Yaml.Scalar

set_option autoImplicit false

/-!
Bytes of a settings file, four characters of 64 for three bytes. Other characters do not count.
-/

namespace Intake.Yaml

/-- Bits that make no byte yet, the highest first, and the equals signs in a row behind them. -/
structure BitRun where
  /-- How many characters of the four have been read. -/
  position : Nat
  bits : Nat
  padding : Nat

def sextet? (c : CodePoint) : Option Nat :=
  let n := c.toNat
  if 0x41 ≤ n && n ≤ 0x5A then some (n - 0x41)
  else if 0x61 ≤ n && n ≤ 0x7A then some (n - 0x61 + 26)
  else if 0x30 ≤ n && n ≤ 0x39 then some (n - 0x30 + 52)
  else if c = '+' then some 62
  else if c = '/' then some 63
  else none

/-- The bytes that a run of characters stands for. Equals signs end it where they fill up four
characters, and without them it ends behind the fourth. -/
def bytesFrom (run : BitRun) : Text → Option (List Nat)
  | [] => if run.position = 0 then some [] else none
  | c :: rest =>
    if c = '=' then
      if run.position < 2 then bytesFrom run rest
      else if 4 ≤ run.position + run.padding + 1 then some []
      else bytesFrom { run with padding := run.padding + 1 } rest
    else match sextet? c with
      | none => bytesFrom run rest
      | some d =>
        match run.position with
        | 0 => bytesFrom ⟨1, d, 0⟩ rest
        | 1 => (bytesFrom ⟨2, d % 16, 0⟩ rest).map ((run.bits * 4 + d / 16) :: ·)
        | 2 => (bytesFrom ⟨3, d % 4, 0⟩ rest).map ((run.bits * 16 + d / 4) :: ·)
        | _ => (bytesFrom ⟨0, 0, 0⟩ rest).map ((run.bits * 64 + d) :: ·)

def readBytes (s : Text) : Except Fault (List UInt8) :=
  if s.all fun c => c.toNat < 0x80 then
    match bytesFrom ⟨0, 0, 0⟩ s with
    | none => malformed
    | some bs => .ok (bs.map UInt8.ofNat)
  else malformed

end Intake.Yaml
