import Intake.Proofs.Answers.Presence
import Intake.Proofs.Answers.Replacing
import Intake.Proofs.Values.Integers

set_option autoImplicit false

/-!
# Lists of numbers as they are shown

A list is shown with a comma and a blank between its numbers, and form input is divided at the
commas. So every number but the first has a blank in front of it there, which is stripped off: what
is left are the numbers as they are written (`listItems_listBody`), and each is read as itself.
-/

namespace Intake

/-- A separator of two parts divides at its first part, and leaves the second part in front of what
follows. -/
theorem intercalate_append_sep {α : Type} (sep front l : List α) (ls : List (List α)) :
    List.intercalate (sep ++ front) (l :: ls) =
      List.intercalate sep (l :: ls.map (front ++ ·)) := by
  rw [intercalate_cons_eq_flatMap, intercalate_cons_eq_flatMap, List.flatMap_map]
  simp only [List.append_assoc]

namespace Text

theorem strip_blank_cons {c : CodePoint} (blank : isBlank c = true) (s : Text) :
    strip (c :: s) = strip s := by
  rw [strip, strip, trim, trim, List.dropWhile_cons_of_pos blank]

theorem strip_cons_ne_nil {c : CodePoint} (solid : isBlank c = false) (s : Text) :
    strip (c :: s) ≠ [] := by
  intro none
  have head := head?_strip_cons solid s
  rw [none] at head
  cases head

end Text

theorem Numeral.isBlank_of_mem_ofInt {n : Int} {c : CodePoint} (mem : c ∈ ofInt n) :
    Text.isBlank c = false := by
  rcases of_mem_ofInt mem with rfl | digit
  · decide
  · exact CodePoint.isBlank_of_isDigit digit

theorem Numeral.strip_ofInt (n : Int) : Text.strip (ofInt n) = ofInt n :=
  Text.strip_of_not_blank fun _ mem => isBlank_of_mem_ofInt mem

namespace Long

/-- What is shown of a list between the brackets. -/
def listBody (ns : List Int) : Text := List.intercalate ", " (ns.map Numeral.ofInt)

/-- Commas stand between the first number and the others, which have a blank in front of them. -/
theorem listBody_cons (n : Int) (ns : List Int) :
    listBody (n :: ns) = List.intercalate [CodePoint.char ',']
      (Numeral.ofInt n :: (ns.map Numeral.ofInt).map ([CodePoint.char ' '] ++ ·)) :=
  intercalate_append_sep [CodePoint.char ','] [CodePoint.char ' '] _ _

theorem strip_listBody_cons (n : Int) (ns : List Int) : Text.strip (listBody (n :: ns)) ≠ [] := by
  obtain ⟨c, cs, first⟩ := List.exists_cons_of_ne_nil (Numeral.ofInt_ne_nil n)
  have begins : c ∈ Numeral.ofInt n := first ▸ List.mem_cons_self
  rw [listBody_cons, intercalate_cons_eq_flatMap, first]
  exact Text.strip_cons_ne_nil (Numeral.isBlank_of_mem_ofInt begins) _

theorem splitOn_listBody_cons (n : Int) (ns : List Int) :
    (listBody (n :: ns)).splitOn (CodePoint.char ',') =
      Numeral.ofInt n :: (ns.map Numeral.ofInt).map ([CodePoint.char ' '] ++ ·) := by
  have noComma (m : Int) : CodePoint.char ',' ∉ Numeral.ofInt m :=
    Numeral.notMem_ofInt (by decide) rfl m
  rw [listBody_cons]
  refine List.splitOn_intercalate (CodePoint.char ',') ?_ (List.cons_ne_nil _ _)
  intro item mem
  rcases List.mem_cons.1 mem with rfl | later
  · exact noComma n
  · obtain ⟨_, inside, rfl⟩ := List.mem_map.1 later
    obtain ⟨m, _, rfl⟩ := List.mem_map.1 inside
    simpa using noComma m

end Long

namespace Edit

/-- The items of a list that is shown are its numbers as they are written. -/
theorem listItems_listBody {ns : List Int} (nonempty : ns ≠ []) :
    listItems (Long.listBody ns) = ns.map fun n => .text (Numeral.ofInt n) := by
  obtain ⟨n, ns, rfl⟩ := List.exists_cons_of_ne_nil nonempty
  have later (m : Int) : Text.strip ([CodePoint.char ' '] ++ Numeral.ofInt m) = Numeral.ofInt m :=
    (Text.strip_blank_cons (by decide) _).trans (Numeral.strip_ofInt m)
  rw [listItems, if_neg (Long.strip_listBody_cons n ns), Long.splitOn_listBody_cons]
  simp only [List.map_cons, List.map_map, Function.comp_def, later, Numeral.strip_ofInt]

/-- What is written of an integer of 64 bits is an item that means this integer. -/
theorem isItem_ofInt {n : Int} (fits : Long.Fits n) : IsItem (.text (Numeral.ofInt n)) := by
  refine .text (Numeral.ofInt_ne_nil n) ?_
  rw [Long.filter_ofInt]
  exact Nat.le_trans (Long.length_digits_of_fits fits) (by decide)

theorem means_ofInt {n : Int} (fits : Long.Fits n) : Means (.text (Numeral.ofInt n)) n :=
  Entry.written (Long.denotes_iff.2 ⟨Long.spells_ofInt n, fits⟩)

theorem readLongs_of_stored {d : Answers} {p : Path} {ns : List Int} (nonempty : ns ≠ [])
    (stored : d.get? p = ofItems (ns.map Json.int)) : d.readLongs p = some ns := by
  obtain ⟨n, ns, rfl⟩ := List.exists_cons_of_ne_nil nonempty
  rw [readLongs_of_array stored]
  exact mapM_int?_map (n :: ns)

end Edit

open Edit

/-- A list of 64-bit integers that is not empty survives being shown. If what is shown of it,
without the brackets, is given as form input for a path that points to no element, and nothing is in
the way there, then it is written, the same list is read back, and it is shown as before. -/
theorem shown_list_reads_back (d : Answers) (p : Path) (ns : List Int)
    (unlocked : d.locked = false) (inside : p.isRoot = false) (member : p.isElement = false)
    (free : ¬ d.Obstructed p) (nonempty : ns ≠ []) (fits : ∀ n ∈ ns, Long.Fits n) :
    ∃ body, Long.listText ns = "[" ++ body ++ "]" ∧
      ∃ new, (putScalar p .listOfLongs body).run d = .ok () new ∧
        new.readLongs p = some ns ∧ new.readShown p = some (Long.listText ns) := by
  obtain ⟨parent, k, rfl⟩ := Path.exists_eq_field inside member
  refine ⟨Long.listBody ns, rfl, ?_⟩
  have given : ∀ a ∈ ns.map fun n => Atom.text (Numeral.ofInt n), IsItem a := by
    intro a mem
    obtain ⟨n, inside, rfl⟩ := List.mem_map.1 mem
    exact isItem_ofInt (fits n inside)
  have means : List.Forall₂ Means (ns.map fun n => Atom.text (Numeral.ofInt n)) ns := by
    rw [List.forall₂_map_left_iff, List.forall₂_same]
    exact fun n mem => means_ofInt (fits n mem)
  have input : putScalar (parent.field k) .listOfLongs (Long.listBody ns) =
      putLongs (parent.field k) (ns.map fun n => .text (Numeral.ofInt n)) :=
    congrArg (putLongs (parent.field k)) (listItems_listBody nonempty)
  rcases putLongs_run unlocked _ with ⟨blocked, _⟩ | ⟨_, mid, null, run⟩
  · exact absurd blocked free
  · have cleared := cleared_of_written null
    obtain ⟨new, accepted, written⟩ := putLongsFrom_accepted unlocked cleared given means
    have stored := (replaced_of_cleared cleared written).stored
    have read := readLongs_of_stored nonempty stored
    refine ⟨new, ?_, read, ?_⟩
    · rw [input]
      exact run.trans accepted
    · simp only [Answers.readShown, read]

/-- The least and the greatest integer of 64 bits with a zero between them. -/
def extremes : List Int := [-2 ^ 63, 0, 2 ^ 63 - 1]

theorem extremes_read_back : Answers.empty.locked = false ∧ selections.isRoot = false ∧
    selections.isElement = false ∧ ¬ Answers.empty.Obstructed selections ∧ extremes ≠ [] ∧
    (∀ n ∈ extremes, Long.Fits n) ∧
    ∃ body, Long.listText extremes = "[" ++ body ++ "]" ∧
      ∃ new, (putScalar selections .listOfLongs body).run Answers.empty = .ok () new ∧
        new.readLongs selections = some extremes ∧
        new.readShown selections = some "[-9223372036854775808, 0, 9223372036854775807]" := by
  have here : Answers.empty.get? Profile.applicant = some (.object _) := rfl
  have free : ¬ Answers.empty.Obstructed selections := not_obstructed_of_object here
  have fits : ∀ n ∈ extremes, Long.Fits n := by
    unfold Long.Fits
    decide
  refine ⟨rfl, rfl, rfl, free, List.cons_ne_nil _ _, fits, ?_⟩
  obtain ⟨body, shown, new, run, read, again⟩ := shown_list_reads_back Answers.empty selections
    extremes rfl rfl rfl free (List.cons_ne_nil _ _) fits
  have text : Long.listText extremes = "[-9223372036854775808, 0, 9223372036854775807]" := by
    decide +kernel
  exact ⟨body, shown, new, run, read, again.trans (congrArg some text)⟩

end Intake
