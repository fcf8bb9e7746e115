import Mathlib.Data.List.Forall2
import Intake.Answers.Read
import Intake.Proofs.Answers.Clearing
import Intake.Proofs.Sequence
import Intake.Proofs.Values.Amounts

set_option autoImplicit false

/-!
# Lists of numbers and what is read back

A list is written one element after the other, and an empty item writes no element. The array is
filled with nulls before a later number, so that it ends as `cells` of the items:
`putLongsFrom_ok` is the induction, over the items, with what is stored so far as its invariant,
and says that items which can be read are always written. A list is read back exactly if no number
stands behind an empty item.
-/

namespace Intake

namespace Edit

/-- What an item of a list means: a number, or nothing. -/
inductive Entry : Atom → Option Int → Prop where
  | empty : Entry (.text []) none
  | written {s : Text} {n : Int} : Long.Denotes s n → Entry (.text s) (some n)
  | number (n : Int) : Entry (.int n) (some n)

/-- Nothing, where there would be an array without elements. -/
def ofItems : List Json → Option Json
  | [] => none
  | xs => some (.array xs)

/-- So many nulls before some items, if there are any. -/
def padded (gap : Nat) : List Json → List Json
  | [] => []
  | xs => List.replicate gap .null ++ xs

/-- The elements that a row of items writes. -/
def cells : List (Option Int) → List Json
  | [] => []
  | none :: rest => padded 1 (cells rest)
  | some n :: rest => .int n :: cells rest

theorem padded_zero (xs : List Json) : padded 0 xs = xs := by
  cases xs <;> rfl

theorem padded_padded (m : Nat) (xs : List Json) : padded m (padded 1 xs) = padded (m + 1) xs := by
  cases xs with
  | nil => rfl
  | cons x xs => simp [padded, List.replicate_succ']

theorem itemsFor_ofItems (xs : List Json) : Json.itemsFor (ofItems xs) = .ok xs := by
  cases xs <;> rfl

theorem ofItems_append_cons (xs ys : List Json) (y : Json) :
    ofItems (xs ++ y :: ys) = some (.array (xs ++ y :: ys)) := by
  cases xs <;> rfl

variable {d mid new : Answers} {q parent : Path} {k : Text}

/-- What an item is read as. -/
def Reads (a : Atom) (entry : Option Int) : Prop :=
  (FormInput.long a).read = .ok (entry.map Atom.int)

theorem entry_of_reads {a : Atom} {entry : Option Int} (h : Reads a entry) : Entry a entry := by
  unfold Reads at h
  cases a with
  | text s =>
    simp only [FormInput.read, FormInput.readText] at h
    split at h
    · next blank =>
      subst blank
      cases entry <;> cases h
      exact .empty
    · cases parsed : Long.parse s with
      | error e =>
        rw [parsed] at h
        cases h
      | ok n =>
        rw [parsed] at h
        cases entry <;> cases h
        exact .written (Long.denotes_of_parse parsed)
  | int n =>
    cases entry <;> cases h
    exact .number n
  | _ => cases h

theorem reads_or_refused (a : Atom) :
    (∃ entry, Reads a entry) ∨ ∃ e, (FormInput.long a).read = .error e := by
  unfold Reads
  cases a with
  | text s =>
    simp only [FormInput.read, FormInput.readText]
    split
    · exact .inl ⟨none, rfl⟩
    · cases Long.parse s with
      | error e => exact .inr ⟨e, rfl⟩
      | ok n => exact .inl ⟨some n, rfl⟩
  | int n => exact .inl ⟨some n, rfl⟩
  | _ => exact .inr ⟨_, rfl⟩

/-! ## One item -/

theorem putLong_eq_write (p : Path) (a : Atom) :
    putLong p a = FormInput.write p (FormInput.long a).read :=
  FormInput.run_eq_write p (.long a)

theorem putLong_of_refused {a : Atom} {e : Fault} (h : (FormInput.long a).read = .error e)
    (p : Path) (d : Answers) : putLong p a d = .error e d := by
  rw [putLong_eq_write, h]
  rfl

/-- An empty item is nothing to write, and an element is not cleared. -/
theorem putLong_of_empty {a : Atom} (unlocked : d.locked = false) (h : Reads a none) (i : Nat) :
    putLong ((parent.field k).element i) a d = .ok () d := by
  have kept := clear_ok unlocked (parent.isRoot_element_field k i)
  rw [parent.isElement_element_field k i, if_pos rfl] at kept
  rw [putLong_eq_write, h]
  exact kept

/-- A write behind the items comes to a write of the array with nulls between. -/
theorem put_behind_items {xs : List Json} (here : d.get? (parent.field k) = ofItems xs)
    (gap : Nat) (v : Json) :
    Json.put ((parent.field k).element (xs.length + gap)).steps v (some d.tree) =
      Json.put (parent.field k).steps (.array (xs ++ List.replicate gap .null ++ [v]))
        (some d.tree) := by
  have behind : ¬ xs.length + gap < xs.length := by omega
  have missing : xs.length + gap - xs.length = gap := by omega
  have inner : Json.put [.index (xs.length + gap)] v (d.get? (parent.field k)) =
      .ok (.array (xs ++ List.replicate gap .null ++ [v])) := by
    rw [here, Json.put_index_of_items (itemsFor_ofItems xs), Json.putItem_ok rfl, Json.setItem,
      if_neg behind, missing]
    rfl
  rw [Answers.get?, Path.steps_field] at inner
  rw [Path.steps_element_field, Path.steps_field, List.append_assoc]
  exact Json.put_behind_key inner

theorem putLong_of_number {a : Atom} {n : Int} {ms : Members} (xs : List Json) (gap : Nat)
    (unlocked : d.locked = false) (outer : d.get? parent = some (.object ms))
    (here : d.get? (parent.field k) = ofItems xs) (h : Reads a (some n)) :
    ∃ mid, putLong ((parent.field k).element (xs.length + gap)) a d = .ok () mid ∧
      d.Written (parent.field k) (.array (xs ++ List.replicate gap .null ++ [.int n])) mid := by
  have whole := put_behind_items here gap (.int n)
  obtain ⟨t, array⟩ := Answers.exists_put_field outer k
    (.array (xs ++ List.replicate gap .null ++ [.int n]))
  have inside := Path.segments_ne_nil (parent.isRoot_element_field k (xs.length + gap))
  obtain ⟨mid, run, item⟩ := put_ok unlocked inside (.atom (.int n)) (whole.trans array)
  refine ⟨mid, ?_, whole.symm.trans item.tree, item.locked, item.locale⟩
  rw [putLong_eq_write, h]
  exact run

/-! ## All items -/

/-- How so many items come to be the array at a path: by a write of it, or by nothing if there are
none. -/
inductive ItemsWritten (d : Answers) (q : Path) : List Json → Answers → Prop where
  | nothing : ItemsWritten d q [] d
  | array {xs : List Json} {new : Answers} : xs ≠ [] → d.Written q (.array xs) new →
      ItemsWritten d q xs new

namespace ItemsWritten

theorem refl {xs : List Json} (here : d.get? q = ofItems xs) : ItemsWritten d q xs d := by
  cases xs with
  | nil => exact .nothing
  | cons x xs => exact .array nofun (.refl here)

theorem after {xs ys : List Json} (some : ys ≠ []) (first : d.Written q (.array xs) mid)
    (h : ItemsWritten mid q ys new) : ItemsWritten d q ys new := by
  cases h with
  | nothing => exact absurd rfl some
  | array _ written => exact .array some (first.trans written)

theorem get? {xs : List Json} (absent : d.get? q = none) (h : ItemsWritten d q xs new) :
    new.get? q = ofItems xs := by
  cases h with
  | nothing => exact absent
  | array some written =>
    obtain ⟨x, xs, rfl⟩ := List.exists_cons_of_ne_nil some
    exact written.get?_self

end ItemsWritten

theorem putLongsFrom_cons (i : Nat) (a : Atom) (values : List Atom) (d : Answers) :
    putLongsFrom (parent.field k) i (a :: values) d =
      (putLong ((parent.field k).element i) a >>= fun _ =>
        putLongsFrom (parent.field k) (i + 1) values) d := by
  rw [putLongsFrom, Path.atPosition_field]
  rfl

/-- What is stored after some items depends on them and on what was stored before. -/
theorem putLongsFrom_ok {values : List Atom} {entries : List (Option Int)} {ms : Members}
    (xs : List Json) (gap : Nat) (unlocked : d.locked = false)
    (outer : d.get? parent = some (.object ms)) (here : d.get? (parent.field k) = ofItems xs)
    (reads : List.Forall₂ Reads values entries) :
    ∃ new, putLongsFrom (parent.field k) (xs.length + gap) values d = .ok () new ∧
      ItemsWritten d (parent.field k) (xs ++ padded gap (cells entries)) new := by
  induction reads generalizing d ms xs gap with
  | nil =>
    refine ⟨d, rfl, ?_⟩
    rw [cells, padded, List.append_nil]
    exact .refl here
  | @cons a entry values entries first _ ih =>
    rw [putLongsFrom_cons]
    cases entry with
    | none =>
      obtain ⟨new, run, filled⟩ := @ih d ms xs (gap + 1) unlocked outer here
      refine ⟨new, (bind_of_ok (putLong_of_empty unlocked first _) _).trans run, ?_⟩
      rw [cells, padded_padded]
      exact filled
    | some n =>
      obtain ⟨mid, run, written⟩ := putLong_of_number xs gap unlocked outer here first
      have length : (xs ++ List.replicate gap Json.null ++ [Json.int n]).length + 0 =
          xs.length + gap + 1 := by
        simp [Nat.add_assoc]
      have grown := written.get?_self.trans (ofItems_append_cons _ [] _).symm
      obtain ⟨new, later, filled⟩ := @ih mid _ _ 0 (written.locked.trans unlocked)
        (written.field outer).get?_self grown
      rw [length] at later
      refine ⟨new, (bind_of_ok run _).trans later, ?_⟩
      rw [padded_zero] at filled
      have all : xs ++ padded gap (cells (some n :: entries)) =
          xs ++ List.replicate gap .null ++ [.int n] ++ cells entries := by
        simp [cells, padded]
      rw [all]
      exact filled.after (by simp) written

/-- A list that is accepted has been read. -/
theorem exists_reads_of_putLongsFrom {values : List Atom} {i : Nat} {u : Unit}
    (h : putLongsFrom (parent.field k) i values d = .ok u new) :
    ∃ entries, List.Forall₂ Reads values entries := by
  induction values generalizing d i with
  | nil => exact ⟨[], .nil⟩
  | cons a values ih =>
    rw [putLongsFrom_cons] at h
    obtain ⟨_, mid, first, later⟩ := exists_of_bind_ok h
    obtain ⟨entries, reads⟩ := ih later
    rcases reads_or_refused a with ⟨entry, read⟩ | ⟨e, refused⟩
    · exact ⟨entry :: entries, .cons read reads⟩
    · rw [putLong_of_refused refused] at first
      cases first

/-! ## Reading the list -/

/-- No number stands behind an empty item. -/
def Unbroken (entries : List (Option Int)) : Prop :=
  entries.Pairwise fun e later => e = none → later = none

instance (entries : List (Option Int)) : Decidable (Unbroken entries) :=
  inferInstanceAs (Decidable (List.Pairwise _ entries))

/-- The numbers of a row of items. -/
def numbers (entries : List (Option Int)) : List Int := entries.filterMap id

theorem Entry.unique {a : Atom} {m n : Option Int} (hm : Entry a m) (hn : Entry a n) : m = n := by
  have some : ∀ n, ¬ Long.Denotes [] n := by
    rintro n ⟨sign, negative, ds, _, digits, shape, _⟩
    exact digits.1 (List.append_eq_nil_iff.1 shape.symm).2
  cases hm with
  | empty =>
    cases hn with
    | empty => rfl
    | written h => exact absurd h (some _)
  | written h =>
    cases hn with
    | empty => exact absurd h (some _)
    | written h' => rw [h.unique h']
  | number n =>
    cases hn
    rfl

theorem cells_of_none {entries : List (Option Int)} (h : ∀ e ∈ entries, e = none) :
    cells entries = [] ∧ numbers entries = [] := by
  induction entries with
  | nil => exact ⟨rfl, rfl⟩
  | cons e entries ih =>
    obtain ⟨rfl, later⟩ := List.forall_mem_cons.1 h
    obtain ⟨cells_eq, numbers_eq⟩ := ih later
    exact ⟨by rw [cells, cells_eq, padded], numbers_eq⟩

theorem cells_of_unbroken {entries : List (Option Int)} (h : Unbroken entries) :
    cells entries = (numbers entries).map Json.int := by
  induction entries with
  | nil => rfl
  | cons e entries ih =>
    obtain ⟨head, later⟩ := List.pairwise_cons.1 h
    cases e with
    | none =>
      obtain ⟨cells_eq, numbers_eq⟩ := cells_of_none fun e mem => head e mem rfl
      have none : numbers (none :: entries) = [] := numbers_eq
      rw [cells, cells_eq, padded, none]
      rfl
    | some n =>
      have more : numbers (some n :: entries) = n :: numbers entries := rfl
      rw [cells, ih later, more, List.map_cons]

theorem mem_padded {x : Json} {xs : List Json} (h : x ∈ xs) :
    x ∈ padded 1 xs ∧ Json.null ∈ padded 1 xs := by
  cases xs with
  | nil => cases h
  | cons y xs => exact ⟨List.mem_cons_of_mem _ h, List.mem_cons_self⟩

theorem int_mem_cells {entries : List (Option Int)} {n : Int} (h : some n ∈ entries) :
    Json.int n ∈ cells entries := by
  induction entries with
  | nil => cases h
  | cons e entries ih =>
    rcases List.mem_cons.1 h with rfl | later
    · exact List.mem_cons_self
    · cases e with
      | none => exact (mem_padded (ih later)).1
      | some m => exact List.mem_cons_of_mem _ (ih later)

/-- A number behind an empty item comes behind a null. -/
theorem null_mem_cells {entries : List (Option Int)} (h : ¬ Unbroken entries) :
    Json.null ∈ cells entries := by
  induction entries with
  | nil => exact absurd List.Pairwise.nil h
  | cons e entries ih =>
    cases e with
    | some m =>
      have broken : ¬ Unbroken entries := fun rest => h (List.pairwise_cons.2 ⟨nofun, rest⟩)
      exact List.mem_cons_of_mem _ (ih broken)
    | none =>
      by_cases rest : Unbroken entries
      · obtain ⟨n, behind⟩ : ∃ n, some n ∈ entries := by
          by_contra none
          exact h (List.pairwise_cons.2 ⟨fun e mem _ =>
            Option.eq_none_iff_forall_ne_some.2 fun n hn => none ⟨n, hn ▸ mem⟩, rest⟩)
        exact (mem_padded (int_mem_cells behind)).2
      · exact (mem_padded (ih rest)).1

theorem mapM_int?_map (ns : List Int) : (ns.map Json.int).mapM Json.int? = some ns := by
  induction ns with
  | nil => rfl
  | cons n ns ih =>
    rw [List.map_cons, List.mapM_cons, ih]
    rfl

theorem mapM_int?_of_null_mem {xs : List Json} (h : Json.null ∈ xs) : xs.mapM Json.int? = none := by
  induction xs with
  | nil => cases h
  | cons x xs ih =>
    rw [List.mapM_cons]
    rcases List.mem_cons.1 h with rfl | later
    · rfl
    · rw [ih later]
      cases x.int? <;> rfl

theorem readLongs_of_array {p : Path} {xs : List Json} (h : d.get? p = some (.array xs)) :
    d.readLongs p = xs.mapM Json.int? := by
  rw [Answers.readLongs, h]

theorem putLongs_eq (values : List Atom) (d : Answers) : putLongs (parent.field k) values d =
    (clearArray ((parent.field k).element 0) >>= fun _ =>
      putLongsFrom (parent.field k) 0 values) d := by
  rw [putLongs, Path.atPosition_field]
  rfl

/-- Where nothing is in the way of the array, the items are written once it has been cleared. -/
theorem putLongs_run (unlocked : d.locked = false) (values : List Atom) :
    (d.Obstructed (parent.field k) ∧
        ∃ e, putLongs (parent.field k) values d = .error e d ∧ e.category = .placement) ∨
      (¬ d.Obstructed (parent.field k) ∧ ∃ mid, d.Written (parent.field k) .null mid ∧
        putLongs (parent.field k) values d =
          putLongsFrom (parent.field k) 0 values (mid.erase (parent.field k))) := by
  rw [putLongs_eq]
  rcases clearArray_run unlocked (parent.isElement_element_field k 0)
    (parent.withoutIndex_element_field k 0) with
    ⟨blocked, e, refused, category⟩ | ⟨free, mid, written, run⟩
  · exact .inl ⟨blocked, e, bind_of_error refused _, category⟩
  · exact .inr ⟨free, mid, written, bind_of_ok run _⟩

theorem putLongs_ok {values : List Atom} {u : Unit} (unlocked : d.locked = false)
    (h : putLongs (parent.field k) values d = .ok u new) :
    ∃ entries, List.Forall₂ Entry values entries ∧
      new.get? (parent.field k) = ofItems (cells entries) := by
  rcases putLongs_run unlocked values with ⟨_, e, refused, _⟩ | ⟨_, mid, written, run⟩
  · rw [refused] at h
    cases h
  · rw [run] at h
    obtain ⟨entries, reads⟩ := exists_reads_of_putLongsFrom h
    have cleared := cleared_of_written written
    have absent := cleared.absent
    obtain ⟨after, again, filled⟩ := putLongsFrom_ok [] 0
      (cleared.locked.trans unlocked) cleared.object absent reads
    cases h.symm.trans again
    have stored := filled.get? absent
    rw [List.nil_append, padded_zero] at stored
    exact ⟨entries, reads.imp fun _ _ => entry_of_reads, stored⟩

end Edit

/-- What an accepted list leaves at a path that points to no element. Its items mean one row of
numbers and empty items. If no number stands behind an empty item, the numbers are read back in
order, or nothing is stored as there are none. Otherwise something is stored that is no list of
numbers. -/
theorem list_reads_back_iff_unbroken (d new : Answers) (p : Path) (raw : Text)
    (unlocked : d.locked = false) (inside : p.isRoot = false) (member : p.isElement = false)
    (h : (Edit.putScalar p .listOfLongs raw).run d = .ok () new) :
    ∃ entries, List.Forall₂ Edit.Entry (Edit.listItems raw) entries ∧
      (∀ others, List.Forall₂ Edit.Entry (Edit.listItems raw) others → others = entries) ∧
      (Edit.Unbroken entries → (new.get? p = none ∧ Edit.numbers entries = []) ∨
        new.readLongs p = some (Edit.numbers entries)) ∧
      (¬ Edit.Unbroken entries → new.get? p ≠ none ∧ new.readLongs p = none) := by
  obtain ⟨parent, k, rfl⟩ := Path.exists_eq_field inside member
  obtain ⟨entries, means, stored⟩ := Edit.putLongs_ok unlocked h
  refine ⟨entries, means, fun others same => ?_, fun unbroken => ?_, fun broken => ?_⟩
  · have functional : Relator.RightUnique Edit.Entry := fun _ _ _ => Edit.Entry.unique
    exact List.right_unique_forall₂' functional same means
  · rw [Edit.cells_of_unbroken unbroken] at stored
    cases ns : Edit.numbers entries with
    | nil =>
      rw [ns] at stored
      exact .inl ⟨stored, rfl⟩
    | cons n rest =>
      rw [ns, List.map_cons] at stored
      rw [Edit.readLongs_of_array stored]
      exact .inr (Edit.mapM_int?_map (n :: rest))
  · have null := Edit.null_mem_cells broken
    obtain ⟨x, xs, shape⟩ := List.exists_cons_of_ne_nil (List.ne_nil_of_mem null)
    rw [shape] at null stored
    rw [Edit.readLongs_of_array stored, stored]
    exact ⟨nofun, Edit.mapM_int?_of_null_mem null⟩

/-- A field that holds a list. -/
def selections : Path := Profile.applicant.field "selections"

theorem trailing_commas_read_back : Answers.empty.locked = false ∧ selections.isRoot = false ∧
    selections.isElement = false ∧ ∃ new,
      (Edit.putScalar selections .listOfLongs "3, -4, ,").run Answers.empty = .ok () new ∧
        new.readLongs selections = some [3, -4] := by
  refine ⟨rfl, rfl, rfl, ?_⟩
  obtain ⟨new, run⟩ : ∃ new, (Edit.putScalar selections .listOfLongs "3, -4, ,").run
      Answers.empty = .ok () new := ⟨_, rfl⟩
  obtain ⟨entries, means, only, reads, _⟩ :=
    list_reads_back_iff_unbroken Answers.empty new selections "3, -4, ," rfl rfl rfl run
  have items : List.Forall₂ Edit.Entry [.text "3", .text "-4", .text [], .text []]
      [some 3, some (-4), none, none] :=
    .cons (.written (Long.denotes_of_parse rfl)) (.cons (.written (Long.denotes_of_parse rfl))
      (.cons .empty (.cons .empty .nil)))
  cases only _ items
  refine ⟨new, run, ?_⟩
  rcases reads (by decide) with ⟨_, none⟩ | read
  · cases none
  · exact read

/-- An empty item before a number leaves a null there, and the list is not read back. -/
theorem gap_is_not_read_back : ∃ new,
    (Edit.putScalar selections .listOfLongs "1,,2").run Answers.empty = .ok () new ∧
      new.get? selections = some (.array [.int 1, .null, .int 2]) ∧
      new.readLongs selections = none := ⟨_, rfl, rfl, rfl⟩

end Intake
