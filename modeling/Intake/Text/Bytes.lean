import Intake.Text.CodePoint

set_option autoImplicit false

/-!
Texts in UTF-8: the text that bytes spell, and how many bytes a text takes. Where a half of a
surrogate pair is counted at all, it stands for a single byte.
-/

namespace Intake.Text

def ofBytes? (bs : List UInt8) : Option Text := (String.fromUTF8? ⟨bs.toArray⟩).map ofString

def width (c : CodePoint) : Nat :=
  if !c.isChar || c.toNat < 0x80 then 1
  else if c.toNat < 0x800 then 2 else if c.toNat < 0x10000 then 3 else 4

def byteLength (s : Text) : Nat := s.foldr (fun c n => width c + n) 0

/-- As many code points from the start as fit into some bytes. -/
def takeBytes : Nat → Text → Text
  | _, [] => []
  | n, c :: rest => if width c ≤ n then c :: takeBytes (n - width c) rest else []

/-- Of a text of more than 50 bytes only both ends are shown. -/
def abridged (s : Text) : Text :=
  if 50 < s.byteLength then
    s.takeBytes 25 ++ "..." ++ (takeBytes 24 s.reverse).reverse
  else s

end Intake.Text
