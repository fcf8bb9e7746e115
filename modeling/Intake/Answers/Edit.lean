import Intake.Answers.Basic
import Intake.Json.Store

set_option autoImplicit false

/-!
Changes to answers. Writing at a path builds the objects and arrays on the way there, in place, and
is refused where something of another kind stands in the way. Locked answers never change.
-/

namespace Intake

/-- A change of answers. One that fails leaves what it had changed before. -/
abbrev Edit (α : Type) := EStateM Fault Answers α

/-- The fault of a write to a path that a value of another kind blocks. -/
def Path.blocked (p : Path) (b : Json.Blocked) : Fault :=
  let place := (Path.ofSteps (p.steps.take b.depth)).text
  match p.steps.drop b.depth with
  | .index _ :: rest =>
    let element := (Path.ofSteps (p.steps.take (b.depth + 1))).text
    if rest = [] then .blockedElement element place b.found
    else .blockedAncestor element place b.found
  | _ => .blockedBelow place b.found

namespace Answers

/-- Nothing changes for the root, nor where nothing is stored. -/
def erase (d : Answers) (p : Path) : Answers :=
  match p.segments with
  | [] => d
  | s :: more =>
    { d with
      members := Json.eraseMember s.key (s.indexSteps ++ more.flatMap Segment.steps) d.members
      wellKeyed := Json.wellKeyed_eraseMember d.wellKeyed }

end Answers

namespace Edit

def requireUnlocked : Edit Unit := fun d => if d.locked then .error .locked d else .ok () d

theorem requireUnlocked_bind {α : Type} {d : Answers} (h : d.locked = false) (act : Unit → Edit α) :
    (requireUnlocked >>= act) d = act () d := by
  simp [requireUnlocked, h, bind, EStateM.bind]

theorem requireUnlocked_bind_of_locked {α : Type} {d : Answers} (h : d.locked = true)
    (act : Unit → Edit α) : (requireUnlocked >>= act) d = .error .locked d := by
  simp [requireUnlocked, h, bind, EStateM.bind]

def ofExcept {α : Type} (x : Except Fault α) : Edit α := fun d =>
  match x with
  | .ok a => .ok a d
  | .error e => .error e d

/-- Writes into the members in place. What has been written when the walk is stopped stays. -/
def store (p : Path) (v : Json) (hv : v.WellKeyed) : Edit Unit := fun d =>
  match p.segments with
  | [] => .error .rootParent d
  | s :: more =>
    let walk := Json.storeMember s.key (s.indexSteps ++ more.flatMap Segment.steps) v
    let after : Answers :=
      { d with
        members := walk.left d.members
        wellKeyed := Json.wellKeyed_left_storeMember hv d.wellKeyed }
    match walk.stop? d.members with
    | none => .ok () after
    | some b => .error (p.blocked b) after

def put (p : Path) (v : Json) (hv : v.WellKeyed) : Edit Unit := do
  requireUnlocked
  store p v hv

/-- Adds items at the end of the array that is stored at a path. -/
def append (p : Path) (items : List Json) (hi : (Json.array items).WellKeyed) : Edit Unit := do
  requireUnlocked
  fun d =>
    match h : d.get? p with
    | some (.array xs) => put p (.array (xs ++ items)) ((d.wellKeyed_get? h).append hi) d
    | _ => .error (.noArray p.text) d

theorem store_root {p : Path} (hp : p.segments = []) (v : Json) (hv : v.WellKeyed) (d : Answers) :
    store p v hv d = .error .rootParent d := by
  simp [store, hp]

/-- Where `Json.put` writes, the walk writes the same. -/
theorem store_ok {p : Path} {v t : Json} {d : Answers} (hp : p.segments ≠ []) (hv : v.WellKeyed)
    (h : Json.put p.steps v (some d.tree) = .ok t) :
    ∃ new, store p v hv d = .ok () new ∧ new.tree = t ∧ new.locked = d.locked ∧
      new.locale = d.locale := by
  cases hs : p.segments with
  | nil => exact absurd hs hp
  | cons s more =>
    rw [Path.steps_of_segments hs, Answers.tree, Json.put_key_object] at h
    cases hm : Json.putMember s.key (s.indexSteps ++ more.flatMap Segment.steps) v d.members with
    | error b => simp [hm, Except.map] at h
    | ok ms =>
      have whole : Json.object ms = t := by simpa [hm, Except.map] using h
      refine ⟨{ d with members := ms, wellKeyed := Json.wellKeyed_putMember hv d.wellKeyed hm },
        ?_, whole, rfl, rfl⟩
      simp [store, hs, Json.stop?_storeMember, Json.left_storeMember, hm, Except.toOption]

/-- Where `Json.put` is blocked, the walk is stopped with everything as it was. -/
theorem store_error {p : Path} {v : Json} {b : Json.Blocked} {d : Answers} (hp : p.segments ≠ [])
    (hv : v.WellKeyed) (h : Json.put p.steps v (some d.tree) = .error b) :
    store p v hv d = .error (p.blocked b) d := by
  cases hs : p.segments with
  | nil => exact absurd hs hp
  | cons s more =>
    rw [Path.steps_of_segments hs, Answers.tree, Json.put_key_object] at h
    cases hm : Json.putMember s.key (s.indexSteps ++ more.flatMap Segment.steps) v d.members with
    | ok ms => simp [hm, Except.map] at h
    | error c =>
      obtain rfl : c = b := by simpa [hm, Except.map] using h
      simp [store, hs, Json.stop?_storeMember, Json.left_storeMember, hm, Except.toOption]

def putAtom (p : Path) (a : Atom) : Edit Unit := put p (.atom a) (.atom a)

/-- Removes what is stored at a path, if anything is. -/
def delete (p : Path) : Edit Unit := do
  requireUnlocked
  if p.isRoot then throw .rootErased
  modify fun d => d.erase p

/-- Removes what is stored at a path. Elements stay, so that the others keep their indices. -/
def clear (p : Path) : Edit Unit := do
  requireUnlocked
  if p.isElement then pure () else delete p

/-- Removes the whole array that a path points into, and makes sure that one can stand there:
a value is written in its place first, which builds what is missing on the way. -/
def clearArray (p : Path) : Edit Unit := do
  requireUnlocked
  if p.isElement then
    putAtom p.withoutIndex .null
    delete p.withoutIndex

def lock : Edit Unit := modify Answers.lock

def setLocale (s : Text) : Edit Unit := do
  requireUnlocked
  let locale ← ofExcept (Locale.parse s)
  modify fun d => { d with locale := some locale }

end Edit
end Intake
