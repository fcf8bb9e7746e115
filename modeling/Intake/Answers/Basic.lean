import Intake.Json.Reader
import Intake.Json.Writer
import Intake.Locale
import Intake.Profile

set_option autoImplicit false

/-!
The answers of one applicant: a JSON object in which no object repeats a key, whether it is locked,
and the locale the applicant chose. A changing operation keeps what it has changed when it fails.
-/

namespace Intake

structure Answers where
  members : Members
  wellKeyed : (Json.object members).WellKeyed
  locked : Bool
  locale : Option Locale

namespace Answers

def tree (d : Answers) : Json := .object d.members

def text (d : Answers) : Text := d.tree.write

/-- The text to store, if every number in it may be written. -/
def persisted (d : Answers) : Except Fault Text :=
  if d.tree.isWritable then .ok d.text else .error .numeralTooLong

/-- Answers of an applicant who has given none. -/
def empty : Answers where
  members := [(Profile.applicantKey, .object [])]
  wellKeyed := .object (by decide) (by
    intro m hm
    obtain rfl := List.mem_singleton.1 hm
    exact .object (by simp [Members.keys]) (by simp))
  locked := false
  locale := none

def ofText (text : Text) : Except Fault Answers :=
  match h : Json.read text with
  | .error .malformed => .error .malformedDocument
  | .error .numeralTooLong => .error .numeralTooLong
  | .ok (.object ms) =>
    .ok { members := ms, wellKeyed := Json.wellKeyed_read h, locked := false, locale := none }
  | .ok v => .error (.notObject v.kind)

/-- The document is read before the locale. -/
def create (text locale : Option Text) : Except Fault Answers :=
  match text.elim (.ok empty) ofText with
  | .error e => .error e
  | .ok d =>
    match locale with
    | none => .ok d
    | some s => (Locale.parse s).map fun l => { d with locale := some l }

def get? (d : Answers) (p : Path) : Option Json := d.tree.get? p.steps

theorem wellKeyed_get? (d : Answers) {p : Path} {v : Json} (h : d.get? p = some v) : v.WellKeyed :=
  Json.wellKeyed_get? d.wellKeyed h

def hasPath (d : Answers) (p : Path) : Bool := (d.get? p).isSome

def hasValue (d : Answers) (p : Path) : Bool :=
  match d.get? p with
  | some v => !v.isNull
  | none => false

def lock (d : Answers) : Answers := { d with locked := true }

def sameText (d e : Answers) : Bool := d.text = e.text

def shown (d : Answers) : Text :=
  "ApplicantData(" ++ (if d.locked then "locked" else "mutable") ++ ", " ++ d.text ++ ")"

end Answers
end Intake
