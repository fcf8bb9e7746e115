import Intake.Answers.Entities
import Intake.Answers.Name
import Intake.Merge.Walk

set_option autoImplicit false

/-!
Every way to change answers, as a value. What only reads is a function of the answers and is not
among them.
-/

namespace Intake

inductive Change where
  | lock
  | setLocale (tag : Text)
  | setName (display : Text)
  | setNameParts (parts : NameParts)
  | putText (p : Path) (s : Text)
  | putLong (p : Path) (a : Atom)
  | putDate (p : Path) (s : Text)
  | putCurrency (p : Path) (s : Text)
  | putLongs (p : Path) (values : List Atom)
  | putScalar (p : Path) (type : Storage) (raw : Text)
  | putEntities (p : Path) (names : List Text)
  | delete (p : Path)
  | clearArray (p : Path)
  | deleteEntities (p : Path) (indices : List Int)
  | clearEntities (p : Path)
  | merge (other : Answers)

namespace Change

inductive Reply where
  | nothing
  | flag (b : Bool)
  | conflicts (ps : List Path)

def quietly (x : Edit Unit) : Edit Reply := do
  x
  return .nothing

def run : Change → Edit Reply
  | lock => quietly Edit.lock
  | setLocale tag => quietly (Edit.setLocale tag)
  | setName display => quietly (Edit.setName display)
  | setNameParts parts => quietly (Edit.setNameParts parts)
  | putText p s => quietly (Edit.putText p s)
  | putLong p a => quietly (Edit.putLong p a)
  | putDate p s => quietly (Edit.putDate p s)
  | putCurrency p s => quietly (Edit.putCurrency p s)
  | putLongs p values => quietly (Edit.putLongs p values)
  | putScalar p type raw => quietly (Edit.putScalar p type raw)
  | putEntities p names => quietly (Edit.putEntities p names)
  | delete p => quietly (Edit.delete p)
  | clearArray p => quietly (Edit.clearArray p)
  | deleteEntities p indices => do return .flag (← Edit.deleteEntities p indices)
  | clearEntities p => do return .flag (← Edit.clearEntities p)
  | merge other => do return .conflicts (← Edit.merge other)

/-- The answers after a change, whether it succeeded or failed. -/
def after (c : Change) (d : Answers) : Answers :=
  match c.run.run d with
  | .ok _ new => new
  | .error _ new => new

end Change
end Intake
