import Intake.Json.Writer

set_option autoImplicit false

/-!
The text of a value for a reader: members and elements on lines of their own, two spaces further in
than what holds them.
-/

namespace Intake.Json

def lineStart (depth : Nat) : Text := '\n' :: List.replicate (2 * depth) (CodePoint.char ' ')

mutual

/-- The text of a value inside so many others. -/
def indented (depth : Nat) : Json → Text
  | .atom a => writeAtom a
  | .array [] => ['[', ']']
  | .array (v :: vs) =>
    "[" ++ lineStart (depth + 1) ++ indented (depth + 1) v ++ indentedItems depth vs
  | .object [] => ['\x7b', '\x7d']
  | .object ((k, v) :: ms) =>
    "\x7b" ++ lineStart (depth + 1) ++ writeText k ++ ": " ++ indented (depth + 1) v
      ++ indentedMembers depth ms

def indentedItems (depth : Nat) : List Json → Text
  | [] => lineStart depth ++ "]"
  | v :: vs => "," ++ lineStart (depth + 1) ++ indented (depth + 1) v ++ indentedItems depth vs

def indentedMembers (depth : Nat) : List (Text × Json) → Text
  | [] => lineStart depth ++ "\x7d"
  | (k, v) :: ms =>
    "," ++ lineStart (depth + 1) ++ writeText k ++ ": " ++ indented (depth + 1) v
      ++ indentedMembers depth ms

end

end Intake.Json
