import Intake.Text.Hex
import Intake.Text.Printable

set_option autoImplicit false

/-!
Texts as they are shown inside a message: between quotes, with every character that has no
printed form written as an escape.
-/

namespace Intake.Text

/-- Double quotes stand only around a text that holds a single quote and no double one. -/
def quoteFor (s : Text) : CodePoint :=
  if s.contains (.char '\'') && !s.contains (.char '"') then '"' else '\''

def escapeCode (n : Nat) : Text :=
  if n < 0x100 then '\\' :: 'x' :: hex 2 n
  else if n < 0x10000 then '\\' :: 'u' :: hex 4 n
  else '\\' :: 'U' :: hex 8 n

def quoteChar (quote c : CodePoint) : Text :=
  if c = quote ∨ c = '\\' then ['\\', c]
  else match c with
    | '\t' => ['\\', 't']
    | '\n' => ['\\', 'n']
    | '\r' => ['\\', 'r']
    | c => if isPrintable c then [c] else escapeCode c.toNat

def quoted (s : Text) : Text :=
  let quote := quoteFor s
  quote :: s.flatMap (quoteChar quote) ++ [quote]

end Intake.Text
