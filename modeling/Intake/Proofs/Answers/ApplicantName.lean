import Intake.Proofs.Answers.Clearing
import Intake.Proofs.Answers.Locking

set_option autoImplicit false

/-!
# Storing the applicant's name

The parts of a name are stored one after the other, where they are missing. Once one of them is
there, the name is an object and nothing can be in the way of the others. So a run that is stopped
is stopped before it has written anything: this is what `Stores` says of a run, and `Stores.bind`
puts runs together.
-/

namespace Intake

namespace Json

/-- A write leaves an object in each place that it leaves by a key. That was an object before, which
keeps its keys in their order, or null, or it was not there. -/
theorem object_on_way {pre rest : List Step} {k : Text} {v new : Json} {old : Option Json}
    (h : put (pre ++ .key k :: rest) v old = .ok new) :
    ∃ ms ns, membersFor (old.bind (get? pre)) = .ok ms ∧ new.get? pre = some (.object ns) ∧
      Members.keys ms <+: Members.keys ns := by
  obtain ⟨inner, below, here⟩ := get?_put_append h
  obtain ⟨ms, child, members, _, rfl⟩ := put_key_ok below
  refine ⟨ms, _, members, here, ?_⟩
  rw [Members.keys_set]
  split
  · exact List.prefix_rfl
  · exact List.prefix_append _ _

/-- What is stored on the way to a member that is not there, or behind it, is stored on the way to
its object. -/
theorem prefix_of_absent {parent steps : List Step} {k : Text} {t u : Json}
    (absent : t.get? (parent ++ [.key k]) = none) (stored : t.get? steps = some u)
    (bound : ¬ Independent (parent ++ [.key k]) steps) : steps <+: parent := by
  rcases not_and_or.1 bound with behind | before
  · obtain ⟨more, rfl⟩ := not_not.1 behind
    rw [get?_append, absent] at stored
    cases stored
  · rcases List.prefix_concat_iff.1 (not_not.1 before) with rfl | above
    · rw [absent] at stored
      cases stored
    · exact above

end Json

/-- The places on the way to the name are the root, the applicant and the name itself. -/
theorem Profile.prefix_name {steps : List Step} (way : steps <+: name.steps) :
    steps = [] ∨ steps = applicant.steps ∨ steps = name.steps := by
  have shape : name.steps = [] ++ [.key applicantKey] ++ [.key "name"] := rfl
  rw [shape] at way
  rcases List.prefix_concat_iff.1 way with whole | shorter
  · exact .inr (.inr whole)
  · rcases List.prefix_concat_iff.1 shorter with whole | none
    · exact .inr (.inl whole)
    · exact .inl (List.prefix_nil.1 none)

/-- What may become of the value at a place when a name is stored. Scalars and arrays stay as they
are. Objects keep their keys in order, and what they gain comes behind. Only a null in place of the
applicant or of the name may become an object. -/
inductive NameKept (steps : List Step) : Json → Json → Prop where
  | atom (a : Atom) : NameKept steps (.atom a) (.atom a)
  | array (xs : List Json) : NameKept steps (.array xs) (.array xs)
  | object {ms ns : Members} : Members.keys ms <+: Members.keys ns →
      NameKept steps (.object ms) (.object ns)
  | filled (ns : Members) : steps = Profile.applicant.steps ∨ steps = Profile.name.steps →
      NameKept steps .null (.object ns)

namespace NameKept

variable {steps : List Step} {u v w : Json}

theorem refl (v : Json) : NameKept steps v v := by
  cases v with
  | atom a => exact .atom a
  | array xs => exact .array xs
  | object ms => exact .object List.prefix_rfl

theorem trans (first : NameKept steps u v) (second : NameKept steps v w) : NameKept steps u w := by
  cases first with
  | atom a => exact second
  | array xs => exact second
  | object begins =>
    cases second with
    | object continues => exact .object (begins.trans continues)
  | filled ms place =>
    cases second with
    | @object _ ns _ => exact .filled ns place

end NameKept

namespace Answers

open Profile

variable {d mid new : Answers} {k : Text} {v : Json}

/-- Everything that is stored anywhere is kept when a name is stored. -/
def KeptByName (d new : Answers) : Prop :=
  ∀ steps v, d.tree.get? steps = some v →
    ∃ w, new.tree.get? steps = some w ∧ NameKept steps v w

namespace KeptByName

theorem refl (d : Answers) : d.KeptByName d := fun _ v stored => ⟨v, stored, .refl v⟩

theorem trans (first : d.KeptByName mid) (second : mid.KeptByName new) : d.KeptByName new := by
  intro steps u stored
  obtain ⟨v, between, kept⟩ := first steps u stored
  obtain ⟨w, there, still⟩ := second steps v between
  exact ⟨w, there, kept.trans still⟩

end KeptByName

/-- A part that is not there yet is written without loss. -/
theorem keptByName_of_written (absent : d.get? (name.field k) = none)
    (written : d.Written (name.field k) v new) : d.KeptByName new := by
  intro steps u stored
  by_cases free : Json.Independent (name.field k).steps steps
  · exact ⟨u, Json.get?_put_of_independent written.tree free stored, .refl u⟩
  · have tree := written.tree
    rw [get?] at absent
    rw [Path.steps_field] at absent tree free
    have above := Json.prefix_of_absent absent stored free
    have next : ∃ j tail, name.steps ++ [.key k] = steps ++ .key j :: tail := by
      rcases prefix_name above with rfl | rfl | rfl
      · exact ⟨_, _, rfl⟩
      · exact ⟨_, _, rfl⟩
      · exact ⟨_, _, rfl⟩
    obtain ⟨j, tail, way⟩ := next
    rw [way] at tree
    obtain ⟨ms, ns, members, there, keys⟩ := Json.object_on_way tree
    rw [Option.bind_some, stored] at members
    refine ⟨_, there, ?_⟩
    rcases Json.of_membersFor members with same | ⟨none | null, _⟩
    · cases same
      exact .object keys
    · cases none
    · cases null
      rcases prefix_name above with rfl | place
      · cases stored
      · exact .filled ns place

/-- The other parts of the name stay as they are, whether they are there or not. -/
theorem get?_of_written_beside {j : Text} (apart : j ≠ k)
    (written : d.Written (name.field k) v new) :
    new.get? (name.field j) = d.get? (name.field j) := by
  have tree := written.tree
  rw [Path.steps_field] at tree
  have there : new.get? name = some (.object _) := Json.get?_put_key tree
  obtain ⟨ms, _, members, _⟩ := Json.object_on_way tree
  rw [get?_field there, Members.get?_set_of_ne apart, Json.membersOf_of_membersFor members,
    ← Json.bind_child?_key members j, get?, Path.steps_field, Json.get?_append, Option.bind_some]
  congr
  funext w
  exact (Option.bind_fun_some _).symm

end Answers

/-- The parts of a name that are given, each with the key it has in the name. -/
def NameParts.supplied (n : NameParts) : List (Text × Text) :=
  [(Scalar.firstName.name, n.first)] ++
    ((n.middle.map fun s => (Scalar.middleName.name, s)).toList ++
      (n.last.map fun s => (Scalar.lastName.name, s)).toList)

theorem NameParts.places_eq (n : NameParts) :
    n.places = n.supplied.map fun m => Profile.name.field m.1 := by
  obtain ⟨first, middle, last⟩ := n
  cases middle <;> cases last <;> rfl

open Profile

/-- What is left when parts of a name have been stored where they were missing. -/
structure PartsStored (d : Answers) (parts : List (Text × Text)) (new : Answers) : Prop where
  kept : d.KeptByName new
  stored : ∀ m ∈ parts, m.2 ≠ [] → d.get? (name.field m.1) = none →
    new.get? (name.field m.1) = some (.text m.2)
  beside : ∀ k, (∀ m ∈ parts, m.1 ≠ k) → new.get? (name.field k) = d.get? (name.field k)
  /-- Nothing is written where there is nothing to store. -/
  unchanged : (∀ m ∈ parts, m.2 ≠ [] → d.get? (name.field m.1) ≠ none) → new = d
  object : new = d ∨ ∃ ms, new.get? name = some (.object ms)
  locked : new.locked = d.locked
  locale : new.locale = d.locale

namespace PartsStored

variable {d mid new : Answers} {ps qs : List (Text × Text)}

theorem refl (settled : ∀ m ∈ ps, m.2 ≠ [] → d.get? (name.field m.1) ≠ none) :
    PartsStored d ps d where
  kept := .refl d
  stored m mem some absent := absurd absent (settled m mem some)
  beside _ _ := rfl
  unchanged _ := rfl
  object := .inl rfl
  locked := rfl
  locale := rfl

theorem of_written {k s : Text} (some : s ≠ []) (absent : d.get? (name.field k) = none)
    (written : d.Written (name.field k) (.text s) new) : PartsStored d [(k, s)] new where
  kept := Answers.keptByName_of_written absent written
  stored := by
    rintro m mem - -
    obtain rfl := List.mem_singleton.1 mem
    exact written.get?_self
  beside j others := by
    have apart : k ≠ j := others (k, s) List.mem_cons_self
    exact Answers.get?_of_written_beside apart.symm written
  unchanged settled := absurd absent (settled (k, s) List.mem_cons_self some)
  object := by
    have tree := written.tree
    rw [Path.steps_field] at tree
    exact .inr ⟨_, Json.get?_put_key tree⟩
  locked := written.locked
  locale := written.locale

theorem added {k s : Text} (left : PartsStored d ps new) (mem : (k, s) ∈ ps) (some : s ≠ [])
    (absent : d.hasPath (name.field k) = false) :
    new.get? (name.field k) = .some (.text s) :=
  left.stored (k, s) mem some (by simpa [Answers.hasPath] using absent)

/-- Every part that is not empty is there. -/
theorem settled (left : PartsStored d ps new) :
    ∀ m ∈ ps, m.2 ≠ [] → new.get? (name.field m.1) ≠ none := by
  intro m mem some
  cases before : d.get? (name.field m.1) with
  | none =>
    rw [left.stored m mem some before]
    exact Option.some_ne_none _
  | some v =>
    obtain ⟨w, there, _⟩ := left.kept _ v before
    intro absent
    rw [Answers.get?, there] at absent
    cases absent

theorem append (apart : ∀ m ∈ ps, ∀ l ∈ qs, m.1 ≠ l.1) (first : PartsStored d ps mid)
    (second : PartsStored mid qs new) : PartsStored d (ps ++ qs) new where
  kept := first.kept.trans second.kept
  stored m mem some absent := by
    rcases List.mem_append.1 mem with front | back
    · rw [second.beside m.1 fun l later same => apart m front l later same.symm]
      exact first.stored m front some absent
    · refine second.stored m back some ?_
      rw [first.beside m.1 fun l earlier => apart l earlier m back]
      exact absent
  beside k others := by
    obtain ⟨front, back⟩ := List.forall_mem_append.1 others
    rw [second.beside k back, first.beside k front]
  unchanged settled := by
    obtain ⟨front, back⟩ := List.forall_mem_append.1 settled
    obtain rfl := first.unchanged front
    exact second.unchanged back
  object := by
    rcases second.object with rfl | there
    · exact first.object
    · exact .inr there
  locked := second.locked.trans first.locked
  locale := second.locale.trans first.locale

end PartsStored

/-- How a run can end that stores parts of a name. If it is stopped, something is in the way of a
part that is missing, and nothing has been written. -/
inductive PartsOutcome (d : Answers) (parts : List (Text × Text)) :
    EStateM.Result Fault Answers Unit → Prop where
  | stored {new : Answers} (left : PartsStored d parts new) : PartsOutcome d parts (.ok () new)
  | stopped {e : Fault} {m : Text × Text} (mem : m ∈ parts) (some : m.2 ≠ [])
      (absent : d.get? (name.field m.1) = none) (blocked : d.Obstructed (name.field m.1)) :
      PartsOutcome d parts (.error e d)

namespace Edit

variable {d : Answers}

/-- In unlocked answers the run stores these parts of a name. -/
def Stores (parts : List (Text × Text)) (x : Edit Unit) : Prop :=
  ∀ d : Answers, d.locked = false → PartsOutcome d parts (x d)

theorem Stores.bind {ps qs : List (Text × Text)} {x y : Edit Unit}
    (apart : ∀ m ∈ ps, ∀ l ∈ qs, m.1 ≠ l.1) (first : Stores ps x) (second : Stores qs y) :
    Stores (ps ++ qs) (x >>= fun _ => y) := by
  intro d unlocked
  have begun := first d unlocked
  generalize run : x d = r at begun
  cases begun with
  | stopped mem some absent blocked =>
    rw [bind_of_error run]
    exact .stopped (List.mem_append_left _ mem) some absent blocked
  | @stored mid left =>
    rw [bind_of_ok run]
    have ended := second mid (left.locked.trans unlocked)
    generalize y mid = r at ended
    cases ended with
    | stored after => exact .stored (left.append apart after)
    | stopped mem some absent blocked =>
      -- a part that has been written leaves nothing in the way of the others
      rcases left.object with rfl | ⟨ms, there⟩
      · exact .stopped (List.mem_append_right _ mem) some absent blocked
      · exact absurd blocked (not_obstructed_of_object there)

theorem stores_putMissing (k : Text) (part : Option Text) :
    Stores (part.map fun s => (k, s)).toList (putMissing (name.field k) part) := by
  intro d unlocked
  cases part with
  | none => exact .stored (.refl (by simp))
  | some s =>
    have run : putMissing (name.field k) (some s) d =
        (if d.hasPath (name.field k) then pure () else putText (name.field k) s : Edit Unit) d :=
      rfl
    have inside : (name.field k).isRoot = false := name.isRoot_append ⟨k, none⟩
    have own : ∀ m ∈ [(k, s)], m = (k, s) := fun m mem => List.mem_singleton.1 mem
    rw [run]
    by_cases found : d.hasPath (name.field k) = true
    · rw [if_pos found]
      refine .stored (.refl fun m mem _ absent => ?_)
      obtain rfl := own m mem
      rw [Answers.hasPath, absent] at found
      cases found
    · have absent : d.get? (name.field k) = none := by
        simpa [Answers.hasPath] using found
      rw [if_neg found, putText]
      by_cases empty : s = ""
      · have member : (name.field k).isElement = false := name.isElement_append ⟨k, none⟩
        have cleared := clear_ok unlocked inside
        rw [member, if_neg (by decide), Answers.erase_of_absent absent] at cleared
        rw [if_pos empty, cleared]
        refine .stored (.refl fun m mem some => ?_)
        obtain rfl := own m mem
        exact absurd empty some
      · rw [if_neg empty, putAtom]
        rcases put_run unlocked inside with ⟨blocked, e, run, _⟩ | ⟨_, new, run, written⟩
        · rw [run]
          exact .stopped List.mem_cons_self empty absent blocked
        · rw [run]
          exact .stored (.of_written empty absent written)

theorem key_of_mem_part {k : Text} {part : Option Text} {m : Text × Text}
    (mem : m ∈ (part.map fun s => (k, s)).toList) : m.1 = k := by
  obtain ⟨s, _, rfl⟩ := Option.map_eq_some_iff.1 (Option.mem_toList.1 mem)
  rfl

/-- The parts of a name have different keys, so that none is there because of another. -/
theorem stores_setNameParts (n : NameParts) : Stores n.supplied (setNameParts n) := by
  have first := stores_putMissing Scalar.firstName.name (some n.first)
  have middle := stores_putMissing Scalar.middleName.name n.middle
  have last := stores_putMissing Scalar.lastName.name n.last
  refine first.bind ?_ (middle.bind ?_ last)
  · intro m mem l later
    rw [key_of_mem_part mem]
    rcases List.mem_append.1 later with second | third
    · rw [key_of_mem_part second]
      decide
    · rw [key_of_mem_part third]
      decide
  · intro m mem l later
    rw [key_of_mem_part mem, key_of_mem_part later]
    decide

/-- A name is stored as a whole or not at all, and another run stores nothing more. -/
theorem setNameParts_run (n : NameParts) (d : Answers) :
    (∃ e, setNameParts n d = .error e d) ∨
      ∃ new, setNameParts n d = .ok () new ∧ PartsStored d n.supplied new ∧
        setNameParts n new = .ok () new := by
  cases locked : d.locked with
  | true =>
    have found := finds_setNameParts n locked
    rw [Finds, NameParts.places_eq] at found
    split at found
    · next all =>
      refine .inr ⟨d, found, .refl fun m mem _ absent => ?_, found⟩
      have there := all _ (List.mem_map_of_mem mem)
      rw [Answers.hasPath, absent] at there
      cases there
    · exact .inl ⟨_, found⟩
  | false =>
    have outcome := stores_setNameParts n d locked
    generalize run : setNameParts n d = r at outcome
    cases outcome with
    | stopped => exact .inl ⟨_, rfl⟩
    | @stored new left =>
      have settled : ∀ m ∈ n.supplied, m.2 ≠ [] → new.get? (name.field m.1) ≠ none :=
        left.settled
      refine .inr ⟨new, rfl, left, ?_⟩
      have again := stores_setNameParts n new (left.locked.trans locked)
      generalize setNameParts n new = r at again
      cases again with
      | stopped mem some absent => exact absurd absent (settled _ mem some)
      | stored after => rw [after.unchanged settled]

end Edit

/-- Two parts without a blank are a first and a last name. -/
theorem NameParts.ofDisplayName_two {first last : Text} (whole : CodePoint.char ' ' ∉ first)
    (whole' : CodePoint.char ' ' ∉ last) :
    NameParts.ofDisplayName (first ++ " " ++ last) = ⟨first, none, some last⟩ := by
  have joined : List.intercalate [CodePoint.char ' '] [first, last] = first ++ " " ++ last := by
    rw [intercalate_cons_eq_flatMap, List.flatMap_singleton, List.append_assoc]
    rfl
  have parts : (first ++ " " ++ last).splitOn (CodePoint.char ' ') = [first, last] := by
    rw [← joined]
    exact List.splitOn_intercalate _ (by simp [whole, whole']) (List.cons_ne_nil _ _)
  rw [ofDisplayName, parts]

namespace Change

variable {c : Change} {n : NameParts} (name : c.nameParts? = some n) (d : Answers)

include name

/-- A name is stored as a whole or not at all, and another run stores nothing more. -/
theorem run_name : (∃ e, c.run d = .error e d) ∨
    ∃ new, c.run d = .ok .nothing new ∧ PartsStored d n.supplied new ∧
      c.run new = .ok .nothing new := by
  rw [run_eq_quietly name]
  rcases Edit.setNameParts_run n d with ⟨e, refused⟩ | ⟨new, run, left, again⟩
  · exact .inl ⟨e, bind_of_error refused _⟩
  · exact .inr ⟨new, bind_of_ok run _, left, bind_of_ok again _⟩

theorem run_name_ok (unlocked : d.locked = false)
    (free : ∀ m ∈ n.supplied, ¬ d.Obstructed (Profile.name.field m.1)) :
    ∃ new, c.run d = .ok .nothing new := by
  have outcome := Edit.stores_setNameParts n d unlocked
  generalize run : Edit.setNameParts n d = r at outcome
  rw [run_eq_quietly name]
  cases outcome with
  | @stored new _ => exact ⟨new, bind_of_ok run _⟩
  | stopped mem _ _ blocked => exact absurd blocked (free _ mem)

end Change

/-- Storing a name never overwrites anything, and is all or nothing, for every name given as a whole
or in parts. If it fails, nothing has changed. If it succeeds, everything that was stored anywhere
is kept, where at most a null in place of the applicant or of the name has become an object; each
part that is given, is not empty and was missing is stored; and to store the name again changes
nothing. It does succeed in unlocked answers where nothing is in the way of the parts. So a name of
two parts is known as the last and the first name, where neither was stored before. -/
theorem name_stored_without_overwriting (d : Answers) :
    (∀ (c : Change) (n : NameParts), c.nameParts? = some n →
      (∀ e new, c.run.run d = .error e new → new = d) ∧
      (∀ r new, c.run.run d = .ok r new →
        (∀ steps v, d.tree.get? steps = some v →
          ∃ w, new.tree.get? steps = some w ∧ NameKept steps v w) ∧
        (∀ k s, (k, s) ∈ n.supplied → s ≠ [] → d.hasPath (name.field k) = false →
          new.get? (name.field k) = some (.text s)) ∧
        c.run.run new = .ok r new) ∧
      (d.locked = false → (∀ m ∈ n.supplied, ¬ d.Obstructed (name.field m.1)) →
        ∃ r new, c.run.run d = .ok r new)) ∧
    ∀ first last : Text, first ≠ [] → last ≠ [] → CodePoint.char ' ' ∉ first →
      CodePoint.char ' ' ∉ last → d.hasPath firstName = false → d.hasPath lastName = false →
      ∀ r new, (Change.setName (first ++ " " ++ last)).run.run d = .ok r new →
        new.name? = some (last ++ ", " ++ first) := by
  constructor
  · intro c n name
    refine ⟨fun e new h => ?_, fun r new h => ?_, fun unlocked free => ?_⟩
    · rcases Change.run_name name d with ⟨f, refused⟩ | ⟨mid, run, _⟩
      · cases refused.symm.trans h
        rfl
      · cases run.symm.trans h
    · rcases Change.run_name name d with ⟨f, refused⟩ | ⟨mid, run, left, again⟩
      · cases refused.symm.trans h
      · cases run.symm.trans h
        exact ⟨left.kept, fun k s mem some absent => left.added mem some absent, again⟩
    · obtain ⟨new, run⟩ := Change.run_name_ok name d unlocked free
      exact ⟨_, new, run⟩
  · intro first last someFirst someLast whole whole' noFirst noLast r new h
    have outcome := @Change.run_name (.setName (first ++ " " ++ last)) _ rfl d
    rcases outcome with ⟨f, refused⟩ | ⟨mid, run, left, _⟩
    · cases refused.symm.trans h
    · cases run.symm.trans h
      rw [NameParts.ofDisplayName_two whole whole'] at left
      have storedFirst : new.get? firstName = some (.text first) :=
        left.added (by simp [NameParts.supplied]) someFirst noFirst
      have storedLast : new.get? lastName = some (.text last) :=
        left.added (by simp [NameParts.supplied]) someLast noLast
      simp [Answers.name?, Answers.readText, storedFirst, storedLast, Json.text?, Json.text]

/-- Answers of an applicant with a note and with null for a name. -/
def namelessAnswers : Answers where
  members := [(applicantKey, .object [("note", .text "x"), ("name", .null)])]
  wellKeyed := by
    refine .object (by decide) ?_
    simp [Json.null, Json.text, Json.WellKeyed.atom]
    decide
  locked := false
  locale := none

/-- A name of two parts is stored in place of null and beside a note, is known by both parts, and is
stored once for all. In locked answers it is refused. -/
theorem ada_lovelace_stored :
    Change.nameParts? (.setName "Ada Lovelace") = some ⟨"Ada", none, some "Lovelace"⟩ ∧
    namelessAnswers.locked = false ∧ namelessAnswers.hasPath firstName = false ∧
    namelessAnswers.hasPath lastName = false ∧
    (∃ new, (Change.setName "Ada Lovelace").run.run namelessAnswers = .ok .nothing new ∧
      new.get? (applicant.field "note") = some (.text "x") ∧
      new.get? lastName = some (.text "Lovelace") ∧ new.name? = some "Lovelace, Ada" ∧
      (Change.setName "Ada Lovelace").run.run new = .ok .nothing new) ∧
    ∃ new, (Change.setName "Ada Lovelace").run.run namelessAnswers.lock = .error .locked new ∧
      new = namelessAnswers.lock := by
  obtain ⟨each, two⟩ := name_stored_without_overwriting namelessAnswers
  obtain ⟨_, stored, succeeds⟩ := each (.setName "Ada Lovelace") _ rfl
  have free (k : Text) : ¬ namelessAnswers.Obstructed (name.field k) :=
    @Answers.not_obstructed_of_put _ _ .null _ rfl
  obtain ⟨r, new, run⟩ := succeeds rfl fun m _ => free m.1
  obtain ⟨kept, parts, again⟩ := stored r new run
  obtain ⟨w, note, same⟩ := kept (applicant.field "note").steps (.text "x") rfl
  have last := parts Scalar.lastName.name "Lovelace" (by decide) (by decide) rfl
  have known := two "Ada" "Lovelace" (by decide) (by decide) (by decide) (by decide) rfl rfl
    r new run
  obtain ⟨refused, _⟩ :=
    (name_stored_without_overwriting namelessAnswers.lock).1 (.setName "Ada Lovelace") _ rfl
  cases same
  cases r with
  | nothing =>
    exact ⟨rfl, rfl, rfl, rfl, ⟨new, run, note, last, known, again⟩, _, rfl, refused _ _ rfl⟩
  | flag b => cases run
  | conflicts ps => cases run

end Intake
