import Intake.Answers.Read
import Intake.Answers.Write

set_option autoImplicit false

/-!
The applicant's name, stored in up to three parts. A part that is already there is never
overwritten.
-/

namespace Intake

/-- "Last, First" or the first name alone; without a first name there is none. -/
def Answers.name? (d : Answers) : Option Text :=
  (d.readText Profile.firstName).map fun first =>
    match d.readText Profile.lastName with
    | some last => last ++ ", " ++ first
    | none => first

structure NameParts where
  first : Text
  middle : Option Text
  last : Option Text
  deriving DecidableEq

/-- Two parts are a first and a last name, three have a middle name between them, and anything
else is a first name as a whole. Every single space divides. -/
def NameParts.ofDisplayName (display : Text) : NameParts :=
  match display.splitOn (.char ' ') with
  | [first, last] => ⟨first, none, some last⟩
  | [first, middle, last] => ⟨first, some middle, some last⟩
  | _ => ⟨display, none, none⟩

namespace Edit

def putMissing (p : Path) (part : Option Text) : Edit Unit := do
  match part with
  | none => pure ()
  | some s => if (← get).hasPath p then pure () else putText p s

def setNameParts (n : NameParts) : Edit Unit := do
  putMissing Profile.firstName (some n.first)
  putMissing Profile.middleName n.middle
  putMissing Profile.lastName n.last

def setName (display : Text) : Edit Unit := setNameParts (.ofDisplayName display)

end Edit
end Intake
