import Intake.Answers.Edit
import Intake.Answers.Read

set_option autoImplicit false

/-!
Repeated entities: the elements of an array, each an object that holds a name, perhaps beside
further answers. An array index on the path is ignored.
-/

namespace Intake

def Path.entity (p : Path) (i : Nat) : Path := (p.element i).field Scalar.entityName.name

/-- An element without a name counts as one with an empty name. -/
def Json.entityName (v : Json) : Text :=
  ((v.get? [.key Scalar.entityName.name]).bind Json.text?).getD ""

def Answers.entityNames (d : Answers) (p : Path) : Except Fault (List Text) :=
  if p.isRoot then .error .rootIndexed
  else match d.get? p.withoutIndex with
    | some (.array xs) => .ok (xs.map Json.entityName)
    | _ => .ok []

namespace Edit

def putEntitiesFrom (p : Path) : Nat → List Text → Edit Unit
  | _, [] => pure ()
  | i, name :: rest => do
    let element ← ofExcept (p.atPosition i)
    putAtom (element.field Scalar.entityName.name) (.text name)
    putEntitiesFrom p (i + 1) rest

/-- Names the first elements and leaves their other answers alone; no names store an empty
array. -/
def putEntities (p : Path) : List Text → Edit Unit
  | [] => put p (.array []) (.array (by simp))
  | names => putEntitiesFrom p 0 names

/-- Each index once, from the highest down: elements behind a removed one move up. -/
def descending (indices : List Int) : List Int :=
  (indices.mergeSort fun a b => decide (b ≤ a)).eraseDups

def deleteEach (p : Path) : List Int → Edit Unit
  | [] => pure ()
  | i :: rest => do
    let element ← ofExcept (p.atIndex i)
    modify fun d => d.erase element
    deleteEach p rest

/-- Whether anything was deleted. Only the highest index has to be there for that. -/
def deleteEntities (p : Path) (indices : List Int) : Edit Bool := do
  requireUnlocked
  match descending indices with
  | [] => return false
  | highest :: rest =>
    let element ← ofExcept (p.atIndex highest)
    if (← get).hasPath element then
      deleteEach p (highest :: rest)
      return true
    else
      return false

/-- Whether there are no entities at a path any more. Nothing is removed while there are some. -/
def clearEntities (p : Path) : Edit Bool := do
  requireUnlocked
  let names ← ofExcept ((← get).entityNames p)
  if names.isEmpty then
    delete p.withoutIndex
    return true
  else
    return false

end Edit
end Intake
