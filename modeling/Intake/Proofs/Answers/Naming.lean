import Intake.Proofs.Answers.Indices

set_option autoImplicit false

/-!
# Naming repeated entities

Names are written one after the other, each into the element at its index. A name that is written
leaves the array that stands there with one more element named (`putName_ok`), so that what names
leave is one write of the whole array (`putEntitiesFrom_run`). An element that is neither null nor
an object takes no name and ends the run, with the names before it written.
-/

namespace Intake

/-- The key of an entity's name. -/
abbrev nameKey : Text := Scalar.entityName.name

namespace Json

/-- An entity with the name, and with whatever else it has. -/
def renamed (name : Text) (old : Option Json) : Json :=
  .object (Members.set nameKey (.text name) (membersOf old))

/-- The elements after the first of them have been named. -/
def named : List Text → List Json → List Json
  | [], xs => xs
  | name :: names, xs => renamed name xs.head? :: named names xs.tail

/-- What is no entity and cannot become one. -/
def Nameless (w : Json) : Prop := w ≠ .null ∧ ∀ ms, w ≠ .object ms

theorem obstructs_key_iff (k : Text) (w : Json) : Obstructs (.key k) w ↔ w.Nameless := by
  cases w with
  | atom a => cases a <;> simp [Obstructs, Nameless, isNull, Step.fits, null]
  | array xs => simp [Obstructs, Nameless, isNull, Step.fits, null]
  | object ms => simp [Obstructs, Nameless, isNull, Step.fits, null]

theorem membersFor_of_not_nameless {old : Option Json} (h : ∀ w, old = some w → ¬ w.Nameless) :
    membersFor old = .ok (membersOf old) := by
  cases members : membersFor old with
  | ok ms => rw [membersOf_of_membersFor members]
  | error b =>
    obtain ⟨w, stored, stop, _⟩ := (membersFor_eq_error_iff nameKey).1 members
    exact absurd ((obstructs_key_iff nameKey w).1 stop) (h w stored)

theorem put_name {old : Option Json} (h : ∀ w, old = some w → ¬ w.Nameless) (name : Text) :
    put [.key nameKey] (.text name) old = .ok (renamed name old) := by
  rw [put_key_of_members (membersFor_of_not_nameless h), putMember_ok rfl]
  rfl

/-! ## What is read of the elements -/

@[simp] theorem entityName_renamed (name : Text) (old : Option Json) :
    (renamed name old).entityName = name := by
  simp [entityName, renamed, get?, child?, text, text?]

theorem map_entityName_named (names : List Text) (xs : List Json) :
    (named names xs).map entityName = names ++ (xs.map entityName).drop names.length := by
  induction names generalizing xs with
  | nil => simp [named]
  | cons name names ih => cases xs <;> simp [named, ih]

theorem length_named (names : List Text) (xs : List Json) :
    (named names xs).length = max xs.length names.length := by
  induction names generalizing xs with
  | nil => simp [named]
  | cons name names ih =>
    simp [named, ih]
    omega

theorem getElem?_named (names : List Text) (xs : List Json) (i : Nat) :
    (named names xs)[i]? = (names[i]?.map fun name => renamed name xs[i]?).or xs[i]? := by
  induction names generalizing xs i with
  | nil => simp [named]
  | cons name names ih =>
    cases i with
    | zero => simp [named, List.head?_eq_getElem?]
    | succ i => simp [named, ih]

theorem setItem_renamed (name : Text) (done rest : List Json) :
    setItem done.length (.object []) (renamed name rest.head?) (done ++ rest) =
      (done ++ [renamed name rest.head?]) ++ rest.tail := by
  cases rest with
  | nil => simp [setItem]
  | cons x rest => simp [setItem]

end Json

namespace Edit

variable {d : Answers} {p : Path} {done rest : List Json}

/-! ## One name -/

theorem atPosition_of_inside (inside : p.isRoot = false) (i : Nat) :
    p.atPosition i = .ok (p.element i) := by
  simp [Path.atPosition, inside]

theorem putEntitiesFrom_cons (inside : p.isRoot = false) (i : Nat) (name : Text)
    (names : List Text) (d : Answers) :
    putEntitiesFrom p i (name :: names) d =
      (putAtom (p.entity i) (.text name) >>= fun _ => putEntitiesFrom p (i + 1) names) d := by
  rw [putEntitiesFrom, atPosition_of_inside inside]
  rfl

theorem steps_entity (inside : p.isRoot = false) (i : Nat) :
    (p.entity i).steps = p.withoutIndex.steps ++ [.index i, .key nameKey] := by
  rw [Path.entity, Path.steps_field, steps_element inside i, List.append_assoc]
  rfl

theorem isRoot_entity (p : Path) (i : Nat) : (p.entity i).isRoot = false := by
  simp [Path.entity, Path.field]

/-- A name that can be written comes to a write of the whole array with that element named. -/
theorem put_entity (inside : p.isRoot = false)
    (here : Json.itemsFor (d.get? p.withoutIndex) = .ok (done ++ rest))
    (takes : ∀ w, rest.head? = some w → ¬ w.Nameless) (name : Text) :
    Json.put (p.entity done.length).steps (.text name) (some d.tree) =
      Json.put p.withoutIndex.steps
        (.array ((done ++ [Json.renamed name rest.head?]) ++ rest.tail)) (some d.tree) := by
  have item : (done ++ rest)[done.length]? = rest.head? := by
    cases rest <;> simp
  have inner : Json.put [.index done.length, .key nameKey] (.text name)
      (d.get? p.withoutIndex) =
        .ok (.array ((done ++ [Json.renamed name rest.head?]) ++ rest.tail)) := by
    have renames := Json.put_name takes name
    rw [← item] at renames
    rw [Json.put_index_of_items here, Json.putItem_ok renames, item, ← Json.setItem_renamed]
    rfl
  obtain ⟨parent, k, field⟩ := Path.exists_withoutIndex_eq_field inside
  rw [field, Answers.get?, Path.steps_field] at inner
  rw [steps_entity inside, field, Path.steps_field, List.append_assoc]
  exact Json.put_behind_key inner

theorem putEntitiesFrom_next {name : Text} {t : Json} (unlocked : d.locked = false)
    (inside : p.isRoot = false)
    (here : Json.itemsFor (d.get? p.withoutIndex) = .ok (done ++ rest))
    (takes : ∀ w, rest.head? = some w → ¬ w.Nameless)
    (way : Json.put p.withoutIndex.steps
      (.array ((done ++ [Json.renamed name rest.head?]) ++ rest.tail)) (some d.tree) = .ok t)
    (names : List Text) :
    ∃ mid, d.Written p.withoutIndex
        (.array ((done ++ [Json.renamed name rest.head?]) ++ rest.tail)) mid ∧
      putEntitiesFrom p done.length (name :: names) d =
        putEntitiesFrom p (done.length + 1) names mid := by
  have write := put_entity inside here takes name
  have below := Path.segments_ne_nil (isRoot_entity p done.length)
  obtain ⟨mid, run, written⟩ := put_ok unlocked below (.atom _) (write.trans way)
  refine ⟨mid, ⟨write.symm.trans written.tree, written.locked, written.locale⟩, ?_⟩
  rw [putEntitiesFrom_cons inside]
  exact bind_of_ok run _

/-- A value on the way to an entity's name that a step does not fit stops the run there. -/
theorem putEntitiesFrom_obstructed {i : Nat} {pre rest : List Step} {s : Step} {w : Json}
    (unlocked : d.locked = false) (inside : p.isRoot = false)
    (way : (p.entity i).steps = pre ++ s :: rest) (here : d.tree.get? pre = some w)
    (stop : Json.Obstructs s w) (name : Text) (names : List Text) :
    ∃ e, putEntitiesFrom p i (name :: names) d = .error e d ∧ e.category = .placement := by
  have refused : ∃ e, putAtom (p.entity i) (.text name) d = .error e d ∧ e.category = .placement :=
    put_of_obstructed unlocked (isRoot_entity p i) way here stop
  obtain ⟨e, run, category⟩ := refused
  refine ⟨e, ?_, category⟩
  rw [putEntitiesFrom_cons inside]
  exact bind_of_error run _

theorem putEntitiesFrom_stop {name : Text} {w : Json} (unlocked : d.locked = false)
    (inside : p.isRoot = false) (stored : d.get? p.withoutIndex = some (.array (done ++ rest)))
    (head : rest.head? = some w) (nameless : w.Nameless) (names : List Text) :
    ∃ e, putEntitiesFrom p done.length (name :: names) d = .error e d ∧
      e.category = .placement := by
  have way : (p.entity done.length).steps =
      (p.withoutIndex.steps ++ [.index done.length]) ++ .key nameKey :: [] := by
    rw [steps_entity inside, List.append_assoc]
    rfl
  have here : d.tree.get? (p.withoutIndex.steps ++ [.index done.length]) = some w := by
    rw [Answers.get?] at stored
    cases rest with
    | nil => cases head
    | cons x rest =>
      cases head
      simp [Json.get?_append, stored, Json.get?, Json.child?]
  have stop := (Json.obstructs_key_iff nameKey w).2 nameless
  exact putEntitiesFrom_obstructed unlocked inside way here stop name names

/-! ## All names -/

/-- The first element that takes no name, of those for which there is one. -/
structure Stops (names : List Text) (xs : List Json) (i : Nat) : Prop where
  within : i < names.length
  here : ∃ w, xs[i]? = some w ∧ w.Nameless
  before : ∀ j < i, ∀ w, xs[j]? = some w → ¬ w.Nameless

/-- Every element for which there is a name takes it. -/
def TakesAll (names : List Text) (xs : List Json) : Prop :=
  ∀ i < names.length, ∀ w, xs[i]? = some w → ¬ w.Nameless

theorem Stops.unique {names : List Text} {xs : List Json} {i j : Nat} (hi : Stops names xs i)
    (hj : Stops names xs j) : i = j := by
  obtain ⟨v, stored, nameless⟩ := hi.here
  obtain ⟨w, stored', nameless'⟩ := hj.here
  rcases Nat.lt_trichotomy i j with lt | same | gt
  · exact absurd nameless (hj.before i lt v stored)
  · exact same
  · exact absurd nameless' (hi.before j gt w stored')

theorem Stops.not_takesAll {names : List Text} {xs : List Json} {i : Nat} (h : Stops names xs i) :
    ¬ TakesAll names xs := by
  intro all
  obtain ⟨w, stored, nameless⟩ := h.here
  exact all i h.within w stored nameless

theorem stops_zero {name : Text} {names : List Text} {xs : List Json} {w : Json}
    (head : xs.head? = some w) (nameless : w.Nameless) : Stops (name :: names) xs 0 where
  within := by simp
  here := ⟨w, by rw [← List.head?_eq_getElem?, head], nameless⟩
  before := nofun

theorem Stops.succ {name : Text} {names : List Text} {xs : List Json} {i : Nat}
    (takes : ∀ w, xs.head? = some w → ¬ w.Nameless) (h : Stops names xs.tail i) :
    Stops (name :: names) xs (i + 1) where
  within := by simpa using h.within
  here := by simpa using h.here
  before j lt w stored := by
    cases j with
    | zero => exact takes w (by rw [List.head?_eq_getElem?, stored])
    | succ j => exact h.before j (by omega) w (by simpa using stored)

theorem TakesAll.cons {name : Text} {names : List Text} {xs : List Json}
    (takes : ∀ w, xs.head? = some w → ¬ w.Nameless) (h : TakesAll names xs.tail) :
    TakesAll (name :: names) xs := by
  intro i within w stored
  cases i with
  | zero => exact takes w (by rw [List.head?_eq_getElem?, stored])
  | succ i => exact h i (by simpa using within) w (by simpa using stored)

/-- How names are written into the elements `rest` of an array behind the elements `done`: all of
them, or those before the element at which the write stops. -/
inductive NamesWritten (d : Answers) (p : Path) (done rest : List Json) (names : List Text) :
    EStateM.Result Fault Answers Unit → Prop where
  | all {new : Answers} (takes : TakesAll names rest)
      (written : d.Written p.withoutIndex (.array (done ++ Json.named names rest)) new) :
      NamesWritten d p done rest names (.ok () new)
  | before {i : Nat} {e : Fault} {new : Answers} (stops : Stops names rest i)
      (category : e.category = .placement)
      (written : d.Written p.withoutIndex (.array (done ++ Json.named (names.take i) rest)) new) :
      NamesWritten d p done rest names (.error e new)

theorem NamesWritten.cons {mid : Answers} {name : Text} {names : List Text}
    {r : EStateM.Result Fault Answers Unit} (takes : ∀ w, rest.head? = some w → ¬ w.Nameless)
    (first : d.Written p.withoutIndex
      (.array ((done ++ [Json.renamed name rest.head?]) ++ rest.tail)) mid)
    (h : NamesWritten mid p (done ++ [Json.renamed name rest.head?]) rest.tail names r) :
    NamesWritten d p done rest (name :: names) r := by
  cases h with
  | all takesAll written =>
    refine .all (.cons takes takesAll) ?_
    simpa [Json.named] using first.trans written
  | before stops category written =>
    refine .before (.succ takes stops) category ?_
    simpa [Json.named] using first.trans written

/-- What names leave of an array that is there. The induction is on the names, with the elements
that are named so far in front. -/
theorem putEntitiesFrom_run {names : List Text} (unlocked : d.locked = false)
    (inside : p.isRoot = false) (stored : d.get? p.withoutIndex = some (.array (done ++ rest))) :
    NamesWritten d p done rest names (putEntitiesFrom p done.length names d) := by
  induction names generalizing d done rest with
  | nil => exact .all nofun (.refl stored)
  | cons name names ih =>
    by_cases takes : ∀ w, rest.head? = some w → ¬ w.Nameless
    · have here : Json.itemsFor (d.get? p.withoutIndex) = .ok (done ++ rest) := by
        rw [stored]
        rfl
      obtain ⟨t, way⟩ := Json.exists_put_of_get? stored
        (.array ((done ++ [Json.renamed name rest.head?]) ++ rest.tail))
      obtain ⟨mid, first, run⟩ := putEntitiesFrom_next unlocked inside here takes way names
      have longer : done.length + 1 = (done ++ [Json.renamed name rest.head?]).length := by simp
      rw [run, longer]
      exact .cons takes first (ih (first.locked.trans unlocked) first.get?_self)
    · obtain ⟨w, head, nameless⟩ : ∃ w, rest.head? = some w ∧ w.Nameless := by
        simpa using takes
      obtain ⟨e, run, category⟩ := putEntitiesFrom_stop unlocked inside stored head nameless names
      rw [run]
      exact .before (stops_zero head nameless) category (.refl stored)

/-- On the way to the first element stands something that is neither null nor what the way goes
through. -/
def WayBlocked (d : Answers) (p : Path) : Prop :=
  ∃ pre s rest w, (p.element 0).steps = pre ++ s :: rest ∧ d.tree.get? pre = some w ∧
    Json.Obstructs s w

theorem wayBlocked_of_error {v : Json} {b : Json.Blocked} (inside : p.isRoot = false)
    (h : Json.put p.withoutIndex.steps v (some d.tree) = .error b) : WayBlocked d p := by
  obtain ⟨pre, s, rest, w, way, here, stop, _⟩ := Json.put_error_iff.1 h
  refine ⟨pre, s, rest ++ [.index 0], w, ?_, here, stop⟩
  rw [steps_element inside 0, way, List.append_assoc, List.cons_append]

theorem putEntitiesFrom_blocked (unlocked : d.locked = false) (inside : p.isRoot = false)
    (blocked : WayBlocked d p) (name : Text) (names : List Text) :
    ∃ e, putEntitiesFrom p 0 (name :: names) d = .error e d ∧ e.category = .placement := by
  obtain ⟨pre, s, rest, w, way, here, stop⟩ := blocked
  have longer : (p.entity 0).steps = pre ++ s :: (rest ++ [.key nameKey]) := by
    rw [Path.entity, Path.steps_field, way, List.append_assoc, List.cons_append]
  exact putEntitiesFrom_obstructed unlocked inside longer here stop name names

/-- Everything that a write of names can come to in unlocked answers. -/
theorem putEntities_cases {names : List Text} (unlocked : d.locked = false)
    (inside : p.isRoot = false) (some : names ≠ []) :
    (WayBlocked d p ∧ ∃ e, putEntities p names d = .error e d ∧ e.category = .placement) ∨
      NamesWritten d p [] (Json.itemsOf (d.get? p.withoutIndex)) names
        (putEntities p names d) := by
  obtain ⟨name, names, rfl⟩ := List.exists_cons_of_ne_nil some
  have refused : WayBlocked d p → WayBlocked d p ∧
      ∃ e, putEntities p (name :: names) d = .error e d ∧ e.category = .placement :=
    fun blocked => ⟨blocked, putEntitiesFrom_blocked unlocked inside blocked name names⟩
  cases here : Json.itemsFor (d.get? p.withoutIndex) with
  | error b =>
    obtain ⟨w, stored, stop, _⟩ := (Json.itemsFor_eq_error_iff 0).1 here
    refine .inl (refused ⟨p.withoutIndex.steps, .index 0, [], w, ?_, stored, stop⟩)
    exact steps_element inside 0
  | ok xs =>
    rw [Json.itemsOf_of_itemsFor here]
    by_cases takes : ∀ w, xs.head? = .some w → ¬ w.Nameless
    · cases way : Json.put p.withoutIndex.steps
        (.array (([] ++ [Json.renamed name xs.head?]) ++ xs.tail)) (.some d.tree) with
      | error b => exact .inl (refused (wayBlocked_of_error inside way))
      | ok t =>
        have front : Json.itemsFor (d.get? p.withoutIndex) = .ok ([] ++ xs) := here
        obtain ⟨mid, first, run⟩ := putEntitiesFrom_next unlocked inside front takes way names
        have later : putEntities p (name :: names) d = putEntitiesFrom p 1 names mid := run
        rw [later]
        refine .inr (.cons takes first ?_)
        exact putEntitiesFrom_run (first.locked.trans unlocked) inside first.get?_self
    · obtain ⟨w, head, nameless⟩ : ∃ w, xs.head? = .some w ∧ w.Nameless := by
        simpa using takes
      -- an array with a first element is one that is stored
      have stored : d.get? p.withoutIndex = .some (.array ([] ++ xs)) := by
        rcases Json.of_itemsFor here with stored | ⟨_, rfl⟩
        · exact stored
        · cases head
      exact .inr (putEntitiesFrom_run unlocked inside stored)

theorem not_wayBlocked_of_array {xs : List Json} (inside : p.isRoot = false)
    (stored : d.get? p.withoutIndex = some (.array xs)) : ¬ WayBlocked d p := by
  rintro ⟨pre, s, rest, w, way, here, stop⟩
  have inner : Json.put [.index 0] .null (some (.array xs)) =
      .ok (.array (Json.setItem 0 .null .null xs)) := by
    rw [Json.put_index_array, Json.putItem_ok rfl]
    rfl
  obtain ⟨t, write⟩ := Json.exists_put_of_get? stored (.array (Json.setItem 0 .null .null xs))
  rw [← Json.put_append stored inner, ← steps_element inside 0] at write
  have blocked : Json.put (p.element 0).steps .null (some d.tree) = .error ⟨pre.length, w.kind⟩ :=
    Json.put_error_iff.2 ⟨pre, s, rest, w, way, here, stop, rfl⟩
  rw [blocked] at write
  cases write

end Edit

/-! ## The outcome -/

/-- `ys` is `xs` with its first elements named. An object has the name beside its other fields, null
and what was not there has become an object that holds only the name, and further elements are as
they were. -/
structure Json.ItemsNamed (names : List Text) (xs ys : List Json) : Prop where
  length : ys.length = max xs.length names.length
  object : ∀ (i : Nat) name ms, names[i]? = some name → xs[i]? = some (.object ms) →
    ∃ ns, ys[i]? = some (.object ns) ∧ Members.get? nameKey ns = some (.text name) ∧
      (∀ k ≠ nameKey, Members.get? k ns = Members.get? k ms) ∧
      Members.keys ns = withKey nameKey (Members.keys ms)
  fresh : ∀ (i : Nat) name, names[i]? = some name → xs[i]? = none ∨ xs[i]? = some .null →
    ys[i]? = some (.object [(nameKey, .text name)])
  later : ∀ i, names.length ≤ i → ys[i]? = xs[i]?

theorem Json.itemsNamed_named (names : List Text) (xs : List Json) :
    ItemsNamed names xs (named names xs) where
  length := length_named names xs
  object i name ms given stored := by
    refine ⟨Members.set nameKey (.text name) ms, ?_, Members.get?_set_self _ _ _, ?_, ?_⟩
    · simp [getElem?_named, given, stored, renamed, membersOf]
    · intro k ne
      exact Members.get?_set_of_ne ne _ _
    · exact Members.keys_set _ _ _
  fresh i name given stored := by
    rcases stored with absent | absent <;>
      simp [getElem?_named, given, absent, renamed, membersOf, null, Members.set]
  later i behind := by
    simp [getElem?_named, List.getElem?_eq_none behind]

/-- The answers `new` are `d` with the first elements of an array named, which has come there if it
was not there before. -/
structure EntitiesNamed (d : Answers) (p : Path) (names : List Text) (new : Answers) : Prop where
  read : ∃ old, d.entityNames p = .ok old ∧
    new.entityNames p = .ok (names ++ old.drop names.length)
  items : ∃ ys, new.get? p.withoutIndex = some (.array ys) ∧
    Json.ItemsNamed names (Json.itemsOf (d.get? p.withoutIndex)) ys
  around : Json.WayBuilt p.withoutIndex.steps d.tree new.tree
  locked : new.locked = d.locked
  locale : new.locale = d.locale

theorem entitiesNamed_of_written {d new : Answers} {p : Path} {names : List Text}
    (inside : p.isRoot = false) (written : d.Written p.withoutIndex
      (.array (Json.named names (Json.itemsOf (d.get? p.withoutIndex)))) new) :
    EntitiesNamed d p names new where
  read := by
    refine ⟨_, d.entityNames_eq inside, ?_⟩
    rw [new.entityNames_eq inside, written.get?_self]
    exact congrArg Except.ok (Json.map_entityName_named names _)
  items := ⟨_, written.get?_self, Json.itemsNamed_named names _⟩
  around := by
    obtain ⟨parent, k, field⟩ := Path.exists_withoutIndex_eq_field inside
    have tree := written.tree
    rw [field, Path.steps_field] at tree ⊢
    exact Json.wayBuilt_put tree
  locked := written.locked
  locale := written.locale

open Edit

/-- Naming entities is exact. A write of names that succeeds leaves them as the names of the first
entities and the others as they were, each entity with its other fields; null has become an object
that holds only the name, and beside the array nothing changes but what had to be built on the way
to it. A write that fails has changed nothing, as something is in the way of the array, or it has
come to an element that is neither null nor an object, and the names before that one are written.
Where there is such an element for one of the names, it does fail so at the first of them. -/
theorem entities_named_exactly (d : Answers) (p : Path) (names : List Text)
    (unlocked : d.locked = false) (inside : p.isRoot = false) (some : names ≠ []) :
    (∀ new, (putEntities p names).run d = .ok () new → EntitiesNamed d p names new) ∧
    (∀ e new, (putEntities p names).run d = .error e new → e.category = .placement ∧
      (WayBlocked d p ∧ new = d ∨ ∃ i, Stops names (Json.itemsOf (d.get? p.withoutIndex)) i ∧
        EntitiesNamed d p (names.take i) new)) ∧
    ∀ i, Stops names (Json.itemsOf (d.get? p.withoutIndex)) i →
      ∃ e new, (putEntities p names).run d = .error e new ∧ e.category = .placement ∧
        EntitiesNamed d p (names.take i) new := by
  have cases := putEntities_cases unlocked inside some
  generalize outcome : putEntities p names d = r at cases
  refine ⟨fun new run => ?_, fun e new run => ?_, fun i stops => ?_⟩
  · have same : r = .ok () new := outcome.symm.trans run
    subst same
    rcases cases with ⟨_, e, failed, _⟩ | written
    · cases failed
    · cases written with
      | all _ written => exact entitiesNamed_of_written inside written
  · have same : r = .error e new := outcome.symm.trans run
    subst same
    rcases cases with ⟨blocked, e, failed, category⟩ | written
    · cases failed
      exact ⟨category, .inl ⟨blocked, rfl⟩⟩
    · cases written with
      | before stops category written =>
        exact ⟨category, .inr ⟨_, stops, entitiesNamed_of_written inside written⟩⟩
  · rcases cases with ⟨blocked, _⟩ | written
    · obtain ⟨w, item, _⟩ := stops.here
      cases stored : d.get? p.withoutIndex with
      | none => simp [stored, Json.itemsOf] at item
      | some v =>
        cases v with
        | array xs => exact absurd blocked (not_wayBlocked_of_array inside stored)
        | _ => simp [stored, Json.itemsOf] at item
    · cases written with
      | all takes _ => exact absurd takes stops.not_takesAll
      | before stops' category written =>
        obtain rfl := stops.unique stops'
        exact ⟨_, _, outcome, category, entitiesNamed_of_written inside written⟩

/-- Answers of three children, of whom only the second is an object. -/
def mixedChildren : Answers where
  members := [(Profile.applicantKey, .object [("children",
    .array [.null, .object [("age", .int 3)], .int 5])])]
  wellKeyed := by
    refine .object (by decide) ?_
    simp [Json.null, Json.int, Json.WellKeyed.atom, Members.keys]
  locked := false
  locale := none

/-- Two names are written, and a third one is refused by the number that stands there. -/
theorem two_children_named : mixedChildren.locked = false ∧ (children.element 7).isRoot = false ∧
    (["Ada", "Bob"] : List Text) ≠ [] ∧ (["Ada", "Bob", "Cy"] : List Text) ≠ [] ∧
    (∃ new, (putEntities (children.element 7) ["Ada", "Bob"]).run mixedChildren = .ok () new ∧
      new.entityNames (children.element 7) = .ok ["Ada", "Bob", []]) ∧
    ∃ e new, (putEntities (children.element 7) ["Ada", "Bob", "Cy"]).run mixedChildren =
      .error e new ∧ new.entityNames (children.element 7) = .ok ["Ada", "Bob", []] := by
  refine ⟨rfl, rfl, by decide, by decide, ?_, ?_⟩
  · obtain ⟨written, _⟩ := entities_named_exactly mixedChildren (children.element 7)
      ["Ada", "Bob"] rfl rfl (by decide)
    refine ⟨_, rfl, ?_⟩
    obtain ⟨old, before, after⟩ := (written _ rfl).read
    cases before
    exact after
  · obtain ⟨_, _, stopped⟩ := entities_named_exactly mixedChildren (children.element 7)
      ["Ada", "Bob", "Cy"] rfl rfl (by decide)
    have third : Stops ["Ada", "Bob", "Cy"] [.null, .object [("age", .int 3)], .int 5] 2 := by
      refine ⟨by decide, ⟨.int 5, rfl, nofun, nofun⟩, fun j lt w item nameless => ?_⟩
      match j, lt with
      | 0, _ =>
        cases item
        exact nameless.1 rfl
      | 1, _ =>
        cases item
        exact nameless.2 _ rfl
    obtain ⟨e, new, run, _, named⟩ := stopped 2 third
    obtain ⟨old, before, after⟩ := named.read
    cases before
    exact ⟨e, new, run, after⟩

end Intake
