import Intake.Answers.Edit

set_option autoImplicit false

/-!
Merging answers into others without overwriting. Absent members are copied, objects are merged
member by member, arrays are joined end to end, and anything else that differs stays as it is and is
a conflict. Every member of the incoming object is looked up in the answers and written into them at
its path from the root, while the answers change. Keys become segments as they stand, so that none
of them is read as an index or as a row of keys.
-/

namespace Intake.Edit

/-- Copies a value to a path where nothing is stored, and otherwise goes on with what is stored. -/
def copyOr (p : Path) (v : Json) (hv : v.WellKeyed) (goOn : Json → Edit (List Path)) :
    Edit (List Path) := do
  match (← get).get? p with
  | none => do
    put p v hv
    return []
  | some old => goOn old

theorem copyOr_eq (p : Path) (v : Json) (hv : v.WellKeyed) (goOn : Json → Edit (List Path))
    (d : Answers) : copyOr p v hv goOn d =
      match d.get? p with
      | none => (put p v hv >>= fun _ => pure []) d
      | some old => goOn old d := by
  show (match d.get? p with | none => _ | some old => goOn old) d = _
  cases d.get? p <;> rfl

theorem copyOr_absent {p : Path} {d : Answers} (h : d.get? p = none) {v : Json} (hv : v.WellKeyed)
    (goOn : Json → Edit (List Path)) :
    copyOr p v hv goOn d = (put p v hv >>= fun _ => pure []) d := by
  rw [copyOr_eq, h]

theorem copyOr_stored {p : Path} {d : Answers} {old : Json} (h : d.get? p = some old) {v : Json}
    (hv : v.WellKeyed) (goOn : Json → Edit (List Path)) : copyOr p v hv goOn d = goOn old d := by
  rw [copyOr_eq, h]

/-- What cannot be joined stays as it is. A note shows both values, and an integer of too many
digits cannot be shown. -/
def conflict (p : Path) (old incoming : Json) : Edit (List Path) :=
  if old.isWritable && incoming.isWritable then return [p] else throw .numeralTooLong

mutual

/-- Merges a value into the one that is stored at a path. Returns what could not be copied. -/
def mergeInto (p : Path) (old : Json) :
    (incoming : Json) → incoming.WellKeyed → Edit (List Path)
  | .object ms, h =>
    match old with
    | .object _ => do
      requireUnlocked
      mergeMembers p ms h.members
    | _ => conflict p old (.object ms)
  | .array xs, h =>
    match old with
    | .array _ => do
      append p xs h
      return []
    | _ => conflict p old (.array xs)
  | .atom a, _ =>
    match old with
    | .atom b => if b.agrees a then return [] else conflict p old (.atom a)
    | _ => conflict p old (.atom a)

def mergeMembers (root : Path) :
    (incoming : List (Text × Json)) → (∀ m ∈ incoming, m.2.WellKeyed) → Edit (List Path)
  | [], _ => return []
  | (k, v) :: ms, h => do
    let p := root.field k
    have hv : v.WellKeyed := h (k, v) List.mem_cons_self
    let here ← copyOr p v hv fun old => mergeInto p old v hv
    let below ← mergeMembers root ms fun m hm => h m (List.mem_cons_of_mem _ hm)
    return here ++ below

end

/-- The paths that could not be copied, in the order of the incoming answers. -/
def merge (other : Answers) : Edit (List Path) := do
  requireUnlocked
  mergeMembers .root other.members other.wellKeyed.members

end Intake.Edit
