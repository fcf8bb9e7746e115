import Intake.Proofs.Answers.Indices
import Intake.Proofs.Values.Overlong

set_option autoImplicit false

/-!
# Replacing a list of numbers

A list is written over what stands at its path: the place is cleared, which leaves an object without
that member, and then the numbers are written one after the other, up to an item that means none.
Another run clears away what the first one has written. So it begins to write where the first one
began, and ends as that one (`putLongs_again`).
-/

namespace Intake

namespace Edit

variable {d mid new : Answers} {parent : Path} {k : Text}

/-! ## Items -/

/-- An item as it may be given: a number, or a text with something in it that has no more digits
than are ever converted. -/
inductive IsItem : Atom → Prop where
  | number (n : Int) : IsItem (.int n)
  | text {s : Text} : s ≠ [] → (s.filter CodePoint.isDigit).length ≤ Numeral.digitLimit →
      IsItem (.text s)

/-- The number that an item means. -/
def Means (a : Atom) (n : Int) : Prop := Entry a (some n)

theorem IsItem.reads {a : Atom} {n : Int} (given : IsItem a) (means : Means a n) :
    Reads a (some n) := by
  unfold Means at means
  cases means with
  | number n => rfl
  | @written s n denotes =>
    cases given with
    | text some few =>
      have present : ¬ s = "" := some
      have parsed := Long.parse_of_denotes denotes (Long.not_isOverlong_of_few few)
      simp [Reads, FormInput.read, FormInput.readText, if_neg present, parsed, Except.map]

theorem IsItem.refused {a : Atom} (given : IsItem a) (none : ∀ n, ¬ Means a n) :
    ∃ e, (FormInput.long a).read = .error e ∧ e.category = .value := by
  cases given with
  | number n => exact absurd (Entry.number n) (none n)
  | @text s some few =>
    have present : ¬ s = "" := some
    cases parsed : Long.parse s with
    | ok n => exact absurd (Entry.written (Long.denotes_of_parse parsed)) (none n)
    | error e =>
      refine ⟨e, ?_, ?_⟩
      · simp [FormInput.read, FormInput.readText, if_neg present, parsed, Except.map]
      · rcases Long.parse_eq_error parsed with own | ⟨_, long⟩
        · exact own
        · exact absurd long (Long.not_isOverlong_of_few few)

theorem forall₂_reads {values : List Atom} {ns : List Int} (given : ∀ a ∈ values, IsItem a)
    (means : List.Forall₂ Means values ns) :
    List.Forall₂ Reads values (ns.map some) := by
  induction means with
  | nil => exact .nil
  | cons first _ ih =>
    obtain ⟨here, later⟩ := List.forall_mem_cons.1 given
    exact .cons (here.reads first) (ih later)

theorem cells_map_some (ns : List Int) : cells (ns.map some) = ns.map Json.int := by
  induction ns with
  | nil => rfl
  | cons n ns ih => simp [cells, ih]

/-! ## Writing what has been cleared -/

namespace ItemsWritten

variable {xs : List Json}

theorem locked (h : ItemsWritten d (parent.field k) xs new) : new.locked = d.locked := by
  cases h with
  | nothing => rfl
  | array _ written => exact written.locked

theorem locale (h : ItemsWritten d (parent.field k) xs new) : new.locale = d.locale := by
  cases h with
  | nothing => rfl
  | array _ written => exact written.locale

theorem kept {q : List Step} {w : Json} (h : ItemsWritten d (parent.field k) xs new)
    (free : Json.Independent (parent.field k).steps q) (stored : d.tree.get? q = some w) :
    new.tree.get? q = some w := by
  cases h with
  | nothing => exact stored
  | array _ written => exact Json.get?_put_of_independent written.tree free stored

theorem object {ms : Members} (h : ItemsWritten d (parent.field k) xs new)
    (outer : d.get? parent = some (.object ms)) :
    ∃ ns, new.get? parent = some (.object ns) := by
  cases h with
  | nothing => exact ⟨ms, outer⟩
  | array _ written => exact ⟨_, (written.field outer).get?_self⟩

/-- Another write over the items comes to a write over what was there before them. -/
theorem overwritten {v : Json} (h : ItemsWritten d (parent.field k) xs mid)
    (later : mid.Written (parent.field k) v new) : d.Written (parent.field k) v new := by
  cases h with
  | nothing => exact later
  | array _ written => exact written.trans later

end ItemsWritten

theorem putLongsFrom_append (p : Path) (i : Nat) (xs ys : List Atom) :
    putLongsFrom p i (xs ++ ys) =
      putLongsFrom p i xs >>= fun _ => putLongsFrom p (i + xs.length) ys := by
  induction xs generalizing i with
  | nil => simp [putLongsFrom]
  | cons x xs ih => simp [putLongsFrom, ih, Nat.add_assoc, Nat.add_comm 1]

/-- What a list leaves at its path, and around it. -/
structure Replaced (d : Answers) (q : Path) (ns : List Int) (new : Answers) : Prop where
  stored : new.get? q = ofItems (ns.map Json.int)
  kept : ∀ r w, Json.Independent q.steps r → d.tree.get? r = some w → new.tree.get? r = some w
  locked : new.locked = d.locked
  locale : new.locale = d.locale

theorem replaced_of_cleared {ns : List Int} (cleared : Cleared d parent k mid)
    (written : ItemsWritten mid (parent.field k) (ns.map Json.int) new) :
    Replaced d (parent.field k) ns new where
  stored := written.get? cleared.absent
  kept r w free here := written.kept free (cleared.kept r w free here)
  locked := written.locked.trans cleared.locked
  locale := written.locale.trans cleared.locale

theorem putLongsFrom_accepted {values : List Atom} {ns : List Int} (unlocked : d.locked = false)
    (cleared : Cleared d parent k mid) (given : ∀ a ∈ values, IsItem a)
    (means : List.Forall₂ Means values ns) :
    ∃ new, putLongsFrom (parent.field k) 0 values mid = .ok () new ∧
      ItemsWritten mid (parent.field k) (ns.map Json.int) new := by
  obtain ⟨new, run, written⟩ := putLongsFrom_ok [] 0 (cleared.locked.trans unlocked)
    cleared.object cleared.absent (forall₂_reads given means)
  rw [cells_map_some, padded_zero] at written
  exact ⟨new, run, written⟩

theorem putLongsFrom_stopped {earlier : List Atom} {a : Atom} {ns : List Int} {e : Fault}
    (unlocked : d.locked = false) (cleared : Cleared d parent k mid)
    (given : ∀ b ∈ earlier, IsItem b)
    (means : List.Forall₂ Means earlier ns)
    (refused : (FormInput.long a).read = .error e) (later : List Atom) :
    ∃ new, putLongsFrom (parent.field k) 0 (earlier ++ a :: later) mid = .error e new ∧
      ItemsWritten mid (parent.field k) (ns.map Json.int) new := by
  obtain ⟨new, run, written⟩ := putLongsFrom_accepted unlocked cleared given means
  refine ⟨new, ?_, written⟩
  rw [putLongsFrom_append, bind_of_ok run, putLongsFrom_cons]
  exact bind_of_error (putLong_of_refused refused _ _) _

/-- Another run clears away what has been written, and begins where the first one began. -/
theorem putLongs_again {values : List Atom} {xs : List Json} (unlocked : d.locked = false)
    (cleared : Cleared d parent k mid) (written : ItemsWritten mid (parent.field k) xs new) :
    putLongs (parent.field k) values new = putLongsFrom (parent.field k) 0 values mid := by
  have still : new.locked = false := (written.locked.trans cleared.locked).trans unlocked
  obtain ⟨ns, outer⟩ := written.object cleared.object
  rcases putLongs_run (k := k) still values with ⟨blocked, _⟩ | ⟨_, cut, null, run⟩
  · exact absurd blocked (not_obstructed_of_object outer)
  · have back : cut.erase (parent.field k) = mid :=
      (erase_eq_self_iff cleared.absent (written.overwritten null)).2 ⟨_, cleared.object⟩
    rw [run, back]

end Edit

open Edit

/-- A list replaces what is stored at its path, without an index, whatever it is. It is refused, and
nothing changes, if something is in the way. Otherwise, if every item means a number, these numbers
are the array there, or nothing is if there are none, and to write the list again changes nothing.
If some item means no number, the first of them is refused, and the numbers before it are there.
Every place beside the path keeps what it holds. -/
theorem list_replaced_exactly (d : Answers) (p : Path) (values : List Atom)
    (unlocked : d.locked = false) (inside : p.isRoot = false) (given : ∀ a ∈ values, IsItem a) :
    (d.Obstructed p.withoutIndex →
      ∃ e, (putLongs p values).run d = .error e d ∧ e.category = .placement) ∧
    (¬ d.Obstructed p.withoutIndex →
      (∀ ns, List.Forall₂ Means values ns →
        ∃ new, (putLongs p values).run d = .ok () new ∧ Replaced d p.withoutIndex ns new ∧
          (putLongs p values).run new = .ok () new) ∧
      ∀ earlier a later ns, values = earlier ++ a :: later →
        List.Forall₂ Means earlier ns → (∀ n, ¬ Means a n) →
        ∃ e new, (putLongs p values).run d = .error e new ∧ e.category = .value ∧
          Replaced d p.withoutIndex ns new) := by
  obtain ⟨parent, k, field⟩ := Path.exists_withoutIndex_eq_field inside
  rw [← putLongs_withoutIndex p values, field]
  rcases putLongs_run unlocked values with ⟨blocked, refused⟩ | ⟨free, cut, null, run⟩
  · exact ⟨fun _ => refused, fun free => absurd blocked free⟩
  · refine ⟨fun blocked => absurd blocked free, fun _ => ⟨?_, ?_⟩⟩
    · intro ns means
      have cleared := cleared_of_written null
      obtain ⟨new, accepted, written⟩ := putLongsFrom_accepted unlocked cleared given means
      refine ⟨new, run.trans accepted, replaced_of_cleared cleared written, ?_⟩
      exact (putLongs_again unlocked cleared written).trans accepted
    · rintro earlier a later ns rfl means none
      have cleared := cleared_of_written null
      obtain ⟨e, refused, category⟩ := (given a (by simp)).refused none
      have before : ∀ b ∈ earlier, IsItem b := fun b mem => given b (by simp [mem])
      obtain ⟨new, stopped, written⟩ :=
        putLongsFrom_stopped unlocked cleared before means refused later
      exact ⟨e, new, run.trans stopped, category, replaced_of_cleared cleared written⟩

/-- Answers with something else in place of a list. -/
def misplacedSelections : Answers where
  members := [(Profile.applicantKey,
    .object [("selections", .object [("a", .int 1)]), ("note", .text "x")])]
  wellKeyed := by
    refine .object (by decide) ?_
    simp [Json.int, Json.text, Json.WellKeyed.atom]
    decide
  locked := false
  locale := none

/-- Two items are written in place of an object. Of three items the second one is refused, and the
first one is written. -/
theorem selections_replaced : misplacedSelections.locked = false ∧
    (selections.element 5).isRoot = false ∧
    (∀ a ∈ [Atom.int 3, .text "x", .text "-4"], IsItem a) ∧
    (∃ new, (putLongs (selections.element 5) [.int 3, .text "-4"]).run misplacedSelections =
        .ok () new ∧
      new.get? selections = some (.array [.int 3, .int (-4)]) ∧
      (putLongs (selections.element 5) [.int 3, .text "-4"]).run new = .ok () new) ∧
    ∃ e new, (putLongs (selections.element 5) [.int 3, .text "x", .text "-4"]).run
        misplacedSelections = .error e new ∧
      e.category = .value ∧ new.get? selections = some (.array [.int 3]) := by
  have given : ∀ a ∈ [Atom.int 3, .text "x", .text "-4"], IsItem a := by
    intro a mem
    simp only [List.mem_cons, List.not_mem_nil, or_false] at mem
    rcases mem with rfl | rfl | rfl
    · exact .number 3
    · exact .text (by decide) (by decide)
    · exact .text (by decide) (by decide)
  have two : ∀ a ∈ [Atom.int 3, .text "-4"], IsItem a := by
    intro a mem
    apply given
    simp only [List.mem_cons, List.not_mem_nil, or_false] at mem ⊢
    exact mem.imp_right .inr
  have here : misplacedSelections.get? Profile.applicant = some (.object _) := rfl
  have free : ¬ misplacedSelections.Obstructed (selections.element 5).withoutIndex :=
    not_obstructed_of_object here
  have three : Means (.int 3) 3 := Edit.Entry.number 3
  have negative : Means (.text "-4") (-4) := Edit.Entry.written (Long.denotes_of_parse rfl)
  refine ⟨rfl, rfl, given, ?_, ?_⟩
  · obtain ⟨_, written⟩ :=
      list_replaced_exactly misplacedSelections (selections.element 5) _ rfl rfl two
    obtain ⟨new, run, left, again⟩ :=
      (written free).1 [3, -4] (.cons three (.cons negative .nil))
    exact ⟨new, run, left.stored, again⟩
  · obtain ⟨_, written⟩ :=
      list_replaced_exactly misplacedSelections (selections.element 5) _ rfl rfl given
    have none : ∀ n, ¬ Means (.text "x") n := by
      intro n means
      have read := (given (.text "x") (by simp)).reads means
      cases read
    obtain ⟨e, new, run, category, left⟩ :=
      (written free).2 [.int 3] (.text "x") [.text "-4"] [3] rfl (.cons three .nil) none
    exact ⟨e, new, run, category, left.stored⟩

end Intake
