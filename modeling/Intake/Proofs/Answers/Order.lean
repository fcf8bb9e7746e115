import Intake.Proofs.Answers.Attempts
import Intake.Proofs.Answers.Lists
import Intake.Proofs.Values.Digits

set_option autoImplicit false

/-!
# Writes into an array in any order

What writes make of a place that holds nothing is said by `Filled`, which every write of another
element keeps. So it holds after all of them, if nothing on the way to the array blocks them
(`attemptEach_of_absent`). Inputs of numbers and of names are writes to the elements they are for.
-/

namespace Intake

namespace Edit

/-! ## An array that starts with nothing -/

/-- The elements that writes into an array without elements make: as many as reach to the largest
index that is written, with what is written there, and fillers elsewhere. -/
structure Filled (pad : Json) (ws : List (Nat × Json)) (cells : List Json) : Prop where
  length : cells.length = ws.foldl (fun n w => max n (w.1 + 1)) 0
  written : ∀ w ∈ ws, cells[w.1]? = some w.2
  between : ∀ n < cells.length, (∀ w ∈ ws, w.1 ≠ n) → cells[n]? = some pad

namespace Filled

variable {pad : Json} {ws : List (Nat × Json)} {cells : List Json} {n : Nat}

theorem nil (pad : Json) : Filled pad [] [] := ⟨rfl, nofun, nofun⟩

theorem of_fresh (h : Filled pad ws cells) (fresh : ∀ w ∈ ws, w.1 ≠ n) :
    cells[n]? = none ∨ cells[n]? = some pad := by
  by_cases within : n < cells.length
  · exact .inr (h.between n within fresh)
  · exact .inl (List.getElem?_eq_none (Nat.le_of_not_lt within))

theorem eq_nil (h : Filled pad ws []) : ws = [] :=
  List.eq_nil_iff_forall_not_mem.2 fun w mem => nomatch h.written w mem

theorem setItem (h : Filled pad ws cells) (fresh : ∀ w ∈ ws, w.1 ≠ n) (v : Json) :
    Filled pad (ws ++ [(n, v)]) (Json.setItem n pad v cells) where
  length := by
    rw [Json.length_setItem, h.length, List.foldl_append]
    rfl
  written w mem := by
    rcases List.mem_append.1 mem with before | last
    · have stored := h.written w before
      have within := (List.getElem?_eq_some_iff.1 stored).1
      rw [Json.getElem?_setItem_of_lt within (fresh w before), stored]
    · obtain rfl := List.mem_singleton.1 last
      exact Json.getElem?_setItem_self n pad v cells
  between m within other := by
    have ne : m ≠ n := fun e => other (n, v) (by simp) e.symm
    rw [Json.length_setItem] at within
    rw [Json.getElem?_setItem, if_neg ne]
    split
    · next old => exact h.between m old fun w mem => other w (List.mem_append_left _ mem)
    · rw [if_pos (by omega)]

end Filled

section Runs

variable {α : Type} {act : α → Edit Unit} {touch : α → Option (Nat × Atom)}
  {base tail : List Step} {xs : List α} {d : Answers}

theorem attemptEach_of_idle (idle : ∀ x ∈ xs, Touches base tail none (act x)) :
    (attemptEach act xs d).1 = d := by
  induction xs with
  | nil => rfl
  | cons x xs ih =>
    obtain ⟨first, later⟩ := List.forall_mem_cons.1 idle
    cases first with
    | idle still => rw [attemptEach, still, ih later]

/-- Where one write is blocked by what is on the way to the array, all are. -/
theorem attemptEach_of_blocked (touches : ∀ x ∈ xs, Touches base tail (touch x) (act x))
    (unlocked : d.locked = false)
    (blocked : ∀ n a, ∃ b, Json.put (base ++ .index n :: tail) (.atom a) (some d.tree) = .error b) :
    (attemptEach act xs d).1 = d ∧
      ∀ x ∈ xs, touch x ≠ none → ∃ e, (x, e) ∈ (attemptEach act xs d).2 := by
  induction xs with
  | nil => exact ⟨rfl, nofun⟩
  | cons x xs ih =>
    obtain ⟨first, later⟩ := List.forall_mem_cons.1 touches
    obtain ⟨state, refused⟩ := ih later
    have here : (attempt (act x) d).1 = d ∧
        (touch x ≠ none → ∃ e, (attempt (act x) d).2 = some e) := by
      generalize touch x = t at first
      generalize act x = y at first
      cases first with
      | idle still => exact ⟨still d, fun some => absurd rfl some⟩
      | @write q n a inside steps =>
        obtain ⟨b, stop⟩ := blocked n a
        rw [← steps] at stop
        rw [attempt_putAtom_error unlocked inside stop]
        exact ⟨rfl, fun _ => ⟨_, rfl⟩⟩
    simp only [attemptEach, here.1]
    refine ⟨state, List.forall_mem_cons.2 ⟨fun some => ?_, fun y mem some => ?_⟩⟩
    · obtain ⟨e, failed⟩ := here.2 some
      exact ⟨e, by simp [failed]⟩
    · obtain ⟨e, failed⟩ := refused y mem some
      exact ⟨e, List.mem_append_right _ failed⟩

theorem ofItems_setItem (n : Nat) (pad v : Json) (cells : List Json) :
    ofItems (Json.setItem n pad v cells) = some (.array (Json.setItem n pad v cells)) := by
  have length := Json.length_setItem n pad v cells
  cases shape : Json.setItem n pad v cells with
  | nil =>
    rw [shape, List.length_nil] at length
    omega
  | cons z zs => rfl

/-- A write below an element that nothing was written below yet. -/
theorem get?_of_put_element {old : Option Json} {t v w : Json} {n : Nat} {cells : List Json}
    (fills : Json.Fills tail) (enters : Json.put tail v none = .ok w)
    (here : old.bind (Json.get? base) = ofItems cells)
    (free : cells[n]? = none ∨ cells[n]? = some (Json.filler tail))
    (h : Json.put (base ++ .index n :: tail) v old = .ok t) :
    t.get? base = ofItems (Json.setItem n (Json.filler tail) w cells) := by
  obtain ⟨array, below, there⟩ := Json.get?_put_append h
  obtain ⟨ys, inner, items, made, rfl⟩ := Json.put_index_ok below
  rw [here, itemsFor_ofItems] at items
  cases items
  have alone : Json.put tail v cells[n]? = Json.put tail v none := by
    rcases free with none | pad
    · rw [none]
    · rw [pad, fills]
  rw [alone, enters] at made
  cases made
  rw [there, ofItems_setItem]

/-- What is stored after some writes depends on them and on what was stored before. -/
theorem attemptEach_filled {entry : Atom → Json} {ws : List (Nat × Json)} {cells : List Json}
    (fills : Json.Fills tail) (enters : ∀ a, Json.put tail (.atom a) none = .ok (entry a))
    (touches : ∀ x ∈ xs, Touches base tail (touch x) (act x))
    (apart : (xs.filterMap touch).Pairwise fun s t => s.1 ≠ t.1)
    (fresh : ∀ t ∈ xs.filterMap touch, ∀ w ∈ ws, w.1 ≠ t.1) (unlocked : d.locked = false)
    (opens : ∀ t ∈ xs.filterMap touch,
      ∃ new, Json.put (base ++ .index t.1 :: tail) (.atom t.2) (some d.tree) = .ok new)
    (here : d.tree.get? base = ofItems cells) (filled : Filled (Json.filler tail) ws cells) :
    ∃ all, (attemptEach act xs d).1.tree.get? base = ofItems all ∧
      Filled (Json.filler tail) (ws ++ (xs.filterMap touch).map fun t => (t.1, entry t.2)) all := by
  induction xs generalizing d ws cells with
  | nil => exact ⟨cells, here, by simpa using filled⟩
  | cons x xs ih =>
    obtain ⟨first, later⟩ := List.forall_mem_cons.1 touches
    rw [attemptEach]
    dsimp only
    cases t : touch x with
    | none =>
      rw [t] at first
      rw [List.filterMap_cons_none t] at apart fresh opens ⊢
      cases first with
      | idle still =>
        rw [still d]
        exact ih later apart fresh unlocked opens here filled
    | some s =>
      obtain ⟨n, a⟩ := s
      rw [t] at first
      rw [List.filterMap_cons_some t] at apart fresh opens ⊢
      obtain ⟨ne, apart⟩ := List.pairwise_cons.1 apart
      obtain ⟨free, fresh⟩ := List.forall_mem_cons.1 fresh
      obtain ⟨⟨new, writes⟩, opens⟩ := List.forall_mem_cons.1 opens
      generalize act x = y at first
      cases first with
      | @write q _ _ inside steps =>
        rw [← steps] at writes
        obtain ⟨e, run, rfl, still, _⟩ := attempt_putAtom_ok unlocked inside writes
        rw [steps] at writes
        have old : (some d.tree).bind (Json.get? base) = ofItems cells := here
        have array := get?_of_put_element fills (enters a) old (filled.of_fresh free) writes
        have grown := filled.setItem free (entry a)
        have unwritten : ∀ t ∈ xs.filterMap touch, ∀ w ∈ ws ++ [(n, entry a)], w.1 ≠ t.1 := by
          intro t mem
          refine List.forall_mem_append.2 ⟨fresh t mem, ?_⟩
          exact List.forall_mem_singleton.2 (ne t mem)
        have open_still : ∀ t ∈ xs.filterMap touch, ∃ new,
            Json.put (base ++ .index t.1 :: tail) (.atom t.2) (some e.tree) = .ok new := by
          intro t mem
          obtain ⟨u, alone⟩ := opens t mem
          obtain ⟨both, second, _⟩ := Json.put_comm fills (ne t mem) writes alone
          exact ⟨both, second⟩
        rw [run]
        obtain ⟨all, stored, shape⟩ := ih later apart unwritten still open_still array grown
        exact ⟨all, stored, by simpa using shape⟩

/-- Where nothing is stored, either what is on the way to it blocks all writes, or every write of an
element is carried out. -/
theorem attemptEach_of_absent {entry : Atom → Json} (fills : Json.Fills tail)
    (enters : ∀ a, Json.put tail (.atom a) none = .ok (entry a))
    (touches : ∀ x ∈ xs, Touches base tail (touch x) (act x))
    (apart : (xs.filterMap touch).Pairwise fun s t => s.1 ≠ t.1) (unlocked : d.locked = false)
    (absent : d.tree.get? base = none) :
    ((attemptEach act xs d).1 = d ∧
      ∀ x ∈ xs, touch x ≠ none → ∃ e, (x, e) ∈ (attemptEach act xs d).2) ∨
    ∃ cells, (attemptEach act xs d).1.tree.get? base = some (.array cells) ∧
      Filled (Json.filler tail) ((xs.filterMap touch).map fun t => (t.1, entry t.2)) cells := by
  have nothing : (some d.tree).bind (Json.get? base) = none := absent
  cases way : Json.put base .null (some d.tree) with
  | error b =>
    refine .inl (attemptEach_of_blocked touches unlocked fun n a => ⟨b, ?_⟩)
    exact (Json.put_append_error_iff nothing _ _).2 way
  | ok t =>
    have opens : ∀ t ∈ xs.filterMap touch, ∃ new,
        Json.put (base ++ .index t.1 :: tail) (.atom t.2) (some d.tree) = .ok new := by
      intro t _
      cases put : Json.put (base ++ .index t.1 :: tail) (.atom t.2) (some d.tree) with
      | ok new => exact ⟨new, rfl⟩
      | error b =>
        rw [(Json.put_append_error_iff nothing _ .null).1 put] at way
        cases way
    have start : d.tree.get? base = ofItems [] := absent
    have unwritten : ∀ t ∈ xs.filterMap touch, ∀ w ∈ ([] : List (Nat × Json)), w.1 ≠ t.1 := by simp
    obtain ⟨all, stored, filled⟩ := attemptEach_filled fills enters touches apart unwritten unlocked
      opens start (.nil _)
    cases all with
    | cons cell cells => exact .inr ⟨_, stored, filled⟩
    | nil =>
      have none : ∀ x ∈ xs, touch x = none := by
        simpa using filled.eq_nil
      refine .inl ⟨attemptEach_of_idle fun x mem => none x mem ▸ touches x mem, ?_⟩
      exact fun x mem some => absurd (none x mem) some

end Runs

/-! ## Inputs for elements -/

/-- A number for the element with an index. -/
def putLongAt (p : Path) (x : Int × Atom) : Edit Unit := do
  putLong (← ofExcept (p.atIndex x.1)) x.2

/-- A text for one field of the element with an index. -/
def putTextAt (p : Path) (key : Text) (x : Int × Text) : Edit Unit := do
  let element ← ofExcept (p.atIndex x.1)
  putText (← ofExcept (element.join key)) x.2

/-- The element that an input is for and the value for it, if the input is read as one. -/
def stored? (i : Int) (read : Except Fault (Option Atom)) : Option (Nat × Atom) :=
  match read with
  | .ok (some a) => if Path.isIndex i then some (i.toNat, a) else none
  | _ => none

theorem index_of_stored? {i : Int} {read : Except Fault (Option Atom)} {t : Nat × Atom}
    (h : stored? i read = some t) : i = t.1 := by
  unfold stored? at h
  split at h
  · split at h <;> cases h
    next index => exact (Path.toNat_of_isIndex index).symm
  · cases h

theorem stored?_of_not_isIndex {i : Int} (h : Path.isIndex i = false)
    (read : Except Fault (Option Atom)) : stored? i read = none := by
  unfold stored?
  split
  · rw [h]
    rfl
  · rfl

/-- Below an index there are only indices and negative numbers. -/
theorem isIndex_of_le {i j : Int} (natural : 0 ≤ i) (le : i ≤ j) (h : Path.isIndex j = true) :
    Path.isIndex i = true := by
  simp only [Path.isIndex, Numeral.isWritable, Bool.and_eq_true, decide_eq_true_eq] at h ⊢
  have shorter : i.natAbs ≤ j.natAbs := by omega
  exact ⟨natural, Nat.le_trans (Numeral.length_digits_mono shorter) h.2⟩

section Inputs

variable {p q : Path} {base tail : List Step} {n : Nat}

theorem atIndex_cases (inside : p.isRoot = false) (i : Int) :
    (Path.isIndex i = false ∧ p.atIndex i = .error (Path.indexFault i)) ∨
      ∃ n : Nat, i = n ∧ Path.isIndex i = true ∧ p.atIndex i = .ok (p.element n) := by
  cases index : Path.isIndex i with
  | false => exact .inl ⟨rfl, by simp [Path.atIndex, inside, index]⟩
  | true =>
    exact .inr ⟨i.toNat, (Path.toNat_of_isIndex index).symm, rfl,
      by simp [Path.atIndex, inside, index]⟩

theorem element_of_inside (inside : p.isRoot = false) (n : Nat) :
    (p.element n).segments ≠ [] ∧ (p.element n).isElement = true ∧
      (p.element n).steps = p.withoutIndex.steps ++ [.index n] := by
  obtain ⟨segments⟩ := p
  rcases List.eq_nil_or_concat segments with rfl | ⟨init, s, rfl⟩
  · cases inside
  · simp [Path.element, Path.withoutIndex, Path.lastSegment?, Path.parentSegments,
      Path.isElement, Path.index?, Path.steps, Segment.steps, Segment.indexSteps]

theorem steps_element (inside : p.isRoot = false) (n : Nat) :
    (p.element n).steps = p.withoutIndex.steps ++ [.index n] :=
  (element_of_inside inside n).2.2

theorem touches_throw (e : Fault) : Touches base tail none (throw e) :=
  .idle (fun _ => rfl) (fun _ _ _ => rfl)

theorem touches_clear (element : q.isElement = true) : Touches base tail none (clear q) := by
  have run : ∀ d, attempt (clear q) d = (d, if d.locked then some .locked else none) := by
    intro d
    cases locked : d.locked with
    | true => rw [attempt, clear, requireUnlocked_bind_of_locked locked]; rfl
    | false =>
      rw [attempt, clear, requireUnlocked_bind locked]
      simp only [element, if_true]
      rfl
  exact .idle (fun d => by rw [run]) (fun d e same => by rw [run, run, same])

theorem touches_putLongAt (inside : p.isRoot = false) (x : Int × Atom) :
    Touches p.withoutIndex.steps [] (stored? x.1 (FormInput.long x.2).read) (putLongAt p x) := by
  rcases atIndex_cases inside x.1 with ⟨other, index⟩ | ⟨n, same, given, index⟩
  · rw [putLongAt, index, stored?_of_not_isIndex other]
    exact touches_throw _
  · obtain ⟨within, element, steps⟩ := element_of_inside inside n
    have run : putLongAt p x = FormInput.write (p.element n) (FormInput.long x.2).read := by
      rw [putLongAt, index, ← FormInput.run_eq_write]
      rfl
    have position : x.1.toNat = n := by omega
    rw [run]
    unfold stored?
    cases (FormInput.long x.2).read with
    | error e => exact touches_throw e
    | ok stored =>
      cases stored with
      | none => exact touches_clear element
      | some a =>
        dsimp only
        rw [if_pos given, position]
        exact .write within steps

theorem touches_putTextAt {key : Text} {s : Segment} (inside : p.isRoot = false)
    (segment : Segment.parse key = .ok s) {x : Int × Text} (written : x.2 ≠ []) :
    Touches p.withoutIndex.steps s.steps (stored? x.1 (.ok (some (.text x.2))))
      (putTextAt p key x) := by
  rcases atIndex_cases inside x.1 with ⟨other, index⟩ | ⟨n, same, given, index⟩
  · rw [putTextAt, index, stored?_of_not_isIndex other]
    exact touches_throw _
  · obtain ⟨within, element, steps⟩ := element_of_inside inside n
    have run : putTextAt p key x = putAtom ((p.element n).append s) (.text x.2) := by
      have stored : putText ((p.element n).append s) x.2 = _ := if_neg written
      rw [putTextAt, index, ← stored]
      change (ofExcept ((p.element n).join key) >>= fun q => putText q x.2) = _
      rw [Path.join_of_parse segment]
      rfl
    have position : x.1.toNat = n := by omega
    rw [run, stored?, if_pos given, position]
    refine .write (by simp [Path.append]) ?_
    have behind : ((p.element n).append s).steps = (p.element n).steps ++ s.steps := by
      simp [Path.steps, Path.append]
    rw [behind, steps, List.append_assoc]
    rfl

theorem touches_putTextAt_of_error {key : Text} {e : Fault} (inside : p.isRoot = false)
    (segment : Segment.parse key = .error e) (x : Int × Text) :
    Touches base tail none (putTextAt p key x) := by
  rcases atIndex_cases inside x.1 with ⟨_, index⟩ | ⟨n, _, _, index⟩
  · rw [putTextAt, index]
    exact touches_throw _
  · have run : putTextAt p key x = throw e := by
      rw [putTextAt, index]
      change (ofExcept ((p.element n).join key) >>= fun q => putText q x.2) = _
      rw [Path.join, segment]
      rfl
    rw [run]
    exact touches_throw e

theorem pairwise_stored? {α : Type} {xs : List (Int × α)} (distinct : (xs.map Prod.fst).Nodup)
    (read : α → Except Fault (Option Atom)) :
    xs.Pairwise fun x y =>
      ∀ s ∈ stored? x.1 (read x.2), ∀ t ∈ stored? y.1 (read y.2), s.1 ≠ t.1 := by
  have apart : xs.Pairwise fun x y => x.1 ≠ y.1 := List.pairwise_map.1 distinct
  refine apart.imp fun {x y} ne s hs t ht same => ne ?_
  rw [index_of_stored? hs, index_of_stored? ht, same]

end Inputs

end Edit

/-- Numbers, or names, that are written into different elements of an array leave the same answers
in every order, and the same of them fail, for the same faults. If nothing is stored where the
array is to be, either nothing is written and all fail that can be read, or they make an array that
reaches to the largest index: the elements that are written hold what is written to them, and the
others null, or an empty object where fields of elements are written. -/
theorem elements_written_in_any_order (d : Answers) (p : Path) (inside : p.isRoot = false) :
    (∀ xs ys : List (Int × Atom), xs.Perm ys → (xs.map Prod.fst).Nodup →
      let run := Edit.attemptEach (Edit.putLongAt p)
      let entry := fun x : Int × Atom => Edit.stored? x.1 (FormInput.long x.2).read
      (run xs d).1 = (run ys d).1 ∧ (run xs d).2.Perm (run ys d).2 ∧
      (d.locked = false → d.get? p.withoutIndex = none →
        ((run xs d).1 = d ∧ ∀ x ∈ xs, entry x ≠ none → ∃ e, (x, e) ∈ (run xs d).2) ∨
        ∃ cells, (run xs d).1.get? p.withoutIndex = some (.array cells) ∧
          Edit.Filled .null ((xs.filterMap entry).map fun t => (t.1, .atom t.2)) cells)) ∧
    ∀ (key : Text) (xs ys : List (Int × Text)), xs.Perm ys → (xs.map Prod.fst).Nodup →
      (∀ x ∈ xs, x.2 ≠ []) →
      let run := Edit.attemptEach (Edit.putTextAt p key)
      let entry := fun x : Int × Text => Edit.stored? x.1 (.ok (some (.text x.2)))
      (run xs d).1 = (run ys d).1 ∧ (run xs d).2.Perm (run ys d).2 ∧
      (d.locked = false → d.get? p.withoutIndex = none →
        ∀ field, Segment.parse key = .ok ⟨field, none⟩ →
        ((run xs d).1 = d ∧ ∀ x ∈ xs, entry x ≠ none → ∃ e, (x, e) ∈ (run xs d).2) ∨
        ∃ cells, (run xs d).1.get? p.withoutIndex = some (.array cells) ∧
          Edit.Filled (.object [])
            ((xs.filterMap entry).map fun t => (t.1, .object [(field, .atom t.2)])) cells) := by
  constructor
  · intro xs ys perm distinct run entry
    have touches : ∀ x ∈ xs, Edit.Touches p.withoutIndex.steps [] (entry x) (Edit.putLongAt p x) :=
      fun x _ => Edit.touches_putLongAt inside x
    have apart := Edit.pairwise_stored? distinct fun a => (FormInput.long a).read
    obtain ⟨state, failed⟩ :=
      Edit.attemptEach_of_touches Json.fills_nil touches apart perm d
    refine ⟨state, failed, fun unlocked absent => ?_⟩
    have entries := apart.filterMap entry fun x y h s hs t ht => h s hs t ht
    exact Edit.attemptEach_of_absent Json.fills_nil (fun _ => rfl) touches entries unlocked absent
  · intro key xs ys perm distinct written run entry
    have apart := Edit.pairwise_stored? distinct fun s => .ok (some (.text s))
    cases segment : Segment.parse key with
    | error e =>
      have idle : ∀ x ∈ xs, Edit.Touches [] [] none (Edit.putTextAt p key x) :=
        fun x _ => Edit.touches_putTextAt_of_error inside segment x
      obtain ⟨state, failed⟩ := Edit.attemptEach_of_touches Json.fills_nil idle
        (apart.imp fun _ _ mem => nomatch mem) perm d
      exact ⟨state, failed, nofun⟩
    | ok s =>
      have touches : ∀ x ∈ xs, Edit.Touches p.withoutIndex.steps s.steps (entry x)
          (Edit.putTextAt p key x) :=
        fun x mem => Edit.touches_putTextAt inside segment (written x mem)
      have fills : Json.Fills s.steps := Json.fills_key s.key s.indexSteps
      obtain ⟨state, failed⟩ := Edit.attemptEach_of_touches fills touches apart perm d
      refine ⟨state, failed, fun unlocked absent field same => ?_⟩
      cases same
      have entries := apart.filterMap entry fun x y h s hs t ht => h s hs t ht
      exact Edit.attemptEach_of_absent fills (fun _ => rfl) touches entries unlocked absent

/-- The children, of whom none is stored yet. -/
def children : Path := Profile.applicant.field "children"

theorem children_written_in_any_order : children.isRoot = false ∧
    (Edit.attemptEach (Edit.putTextAt children "name") [(2, "Cy"), (0, "Ada")] .empty).1 =
      (Edit.attemptEach (Edit.putTextAt children "name") [(0, "Ada"), (2, "Cy")] .empty).1 ∧
    ∃ cells,
      (Edit.attemptEach (Edit.putTextAt children "name") [(2, "Cy"), (0, "Ada")] .empty).1.get?
        children = some (.array cells) ∧ cells.length = 3 ∧ cells[1]? = some (.object []) := by
  obtain ⟨same, _, stored⟩ := (elements_written_in_any_order .empty children rfl).2 "name"
    [(2, "Cy"), (0, "Ada")] [(0, "Ada"), (2, "Cy")] (List.Perm.swap _ _ _) (by decide) (by decide)
  refine ⟨rfl, same, ?_⟩
  rcases stored rfl rfl "name" rfl with ⟨unchanged, _⟩ | ⟨cells, here, filled⟩
  · have missing := congrArg (Answers.get? · children) unchanged
    cases missing
  · exact ⟨cells, here, filled.length, filled.between 1 (by rw [filled.length]; decide) (by decide)⟩

end Intake
