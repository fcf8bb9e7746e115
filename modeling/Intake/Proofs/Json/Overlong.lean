import Intake.Proofs.Json.RoundTrip
import Intake.Proofs.Values.Overlong

set_option autoImplicit false

/-!
# Documents with integers that are too long

The reader of a document stumbles exactly if it comes to an integer of too many digits before
anything that is malformed. `Stumbles` says so along the nesting of the text, and without the fuel
of the reader: each reader moves on in its text, so that what is read with some fuel is read with
any fuel above a bound in the length (`lasts_read`).
-/

namespace Intake.Json

/-! ## Readers that move on -/

/-- What a reader may come to: fewer than `n` characters are left, or the text is malformed, or it
is one over whose digits the reader stumbles. -/
def Moves {α : Type} (n : Nat) (stumbles : Prop) : Read α → Prop
  | .ok (_, rest) => rest.length < n
  | .error .malformed => True
  | .error .numeralTooLong => stumbles

section Moves

variable {α β : Type} {m n : Nat} {p q : Prop} {r : Read α}

theorem Moves.mono (h : Moves m p r) (le : m ≤ n) (weaken : p → q) : Moves n q r := by
  cases r with
  | ok out => exact Nat.lt_of_lt_of_le h le
  | error e =>
    cases e with
    | malformed => trivial
    | numeralTooLong => exact weaken h

theorem Moves.map (h : Moves n p r) (f : α → β) :
    Moves n p (r.map fun out => (f out.1, out.2)) := by
  cases r with
  | ok out => exact h
  | error e => cases e <;> exact h

/-- A reader that refuses what its first part refuses. -/
theorem Moves.error {e : ReadFault} (h : Moves n p r) (eq : r = .error e) :
    Moves n p (.error e : Read β) := by
  rw [eq] at h
  cases e <;> exact h

theorem Moves.lt {a : α} {rest : Text} (h : Moves n p r) (eq : r = .ok (a, rest)) :
    rest.length < n := by
  rw [eq] at h
  exact h

end Moves

theorem length_skipSpace_le (cs : Text) : (skipSpace cs).length ≤ cs.length :=
  List.length_dropWhile_le _ _

theorem length_codeUnit? {cs : Text} {out : Nat × Text} (h : codeUnit? cs = some out) :
    out.2.length < cs.length := by
  unfold codeUnit? at h
  split at h
  · obtain ⟨unit, _, rfl⟩ := Option.map_eq_some_iff.1 h
    simp only [List.length_cons]
    omega
  · cases h

theorem length_lowUnit? {cs : Text} {out : Nat × Text} (h : lowUnit? cs = some out) :
    out.2.length < cs.length := by
  unfold lowUnit? at h
  split at h
  · have shorter := length_codeUnit? (Option.eq_some_of_filter_eq_some h)
    simp only [List.length_cons]
    omega
  · cases h

theorem length_escapedPoint (unit : Nat) (rest : Text) :
    (escapedPoint unit rest).2.length ≤ rest.length := by
  unfold escapedPoint
  split
  · next low after found =>
    split at found
    · exact Nat.le_of_lt (length_lowUnit? found)
    · cases found
  · exact Nat.le_refl _

theorem moves_readPoint (cs : Text) : Moves cs.length False (readPoint cs) := by
  unfold readPoint
  split
  · exact Nat.lt_succ_self _
  · next rest =>
    split
    · next unit more found =>
      have shorter := length_codeUnit? found
      have after := length_escapedPoint unit more
      show (escapedPoint unit more).2.length < rest.length + 2
      dsimp only at shorter
      omega
    · trivial
  · next rest _ =>
    split
    · show rest.length < rest.length + 2
      omega
    · trivial
  · split
    · trivial
    · exact Nat.lt_succ_self _
  · trivial

theorem moves_readPoints (fuel : Nat) (cs : Text) : Moves cs.length False (readPoints fuel cs) := by
  induction fuel generalizing cs with
  | zero => trivial
  | succ fuel ih =>
    have first := moves_readPoint cs
    unfold readPoints
    split
    · next eq => exact first.error eq
    · next eq => exact first.lt eq
    · next c rest eq =>
      have later := ih rest
      split
      · next eq' => exact (later.mono (Nat.le_of_lt (first.lt eq)) id).error eq'
      · next eq' => exact Nat.lt_trans (later.lt eq') (first.lt eq)

theorem moves_readText (cs : Text) : Moves cs.length False (readText cs) := moves_readPoints _ cs

theorem moves_readKey (cs : Text) : Moves cs.length False (readKey cs) := by
  unfold readKey
  split
  · next rest =>
    have key := moves_readText rest
    split
    · next eq => exact (key.mono (Nat.le_succ _) id).error eq
    · next k after eq =>
      have shorter := length_skipSpace_le after
      split
      · next more colon =>
        rw [colon, List.length_cons] at shorter
        have := key.lt eq
        show more.length < rest.length + 1
        omega
      · trivial
  · trivial

/-! ## Numbers -/

/-- More digits, a fraction or an exponent come next. -/
inductive GoesOn : Text → Prop where
  | digit {c : CodePoint} {rest : Text} : c.isDigit = true → GoesOn (c :: rest)
  | fraction {c : CodePoint} {rest : Text} : c.isDigit = true → GoesOn ('.' :: c :: rest)
  | exponent {mark c : CodePoint} {sign rest : Text} {negative : Bool} :
      mark = .char 'e' ∨ mark = .char 'E' → Numeral.Sign sign negative → c.isDigit = true →
      GoesOn (mark :: (sign ++ c :: rest))

theorem length_splitFraction (cs : Text) : (splitFraction cs).2.length ≤ cs.length := by
  unfold splitFraction
  split
  · next rest =>
    dsimp only
    split
    · exact Nat.le_refl _
    · exact Nat.le_succ_of_le (List.length_dropWhile_le _ _)
  · exact Nat.le_refl _

theorem length_splitExponent (cs : Text) : (splitExponent cs).2.length ≤ cs.length := by
  unfold splitExponent
  split
  · next c rest =>
    dsimp only
    split
    · obtain ⟨sign, _, shape⟩ := Numeral.exists_sign rest
      have behind := List.length_dropWhile_le CodePoint.isDigit (Numeral.splitSign rest).2
      have whole := congrArg List.length shape
      rw [List.length_append] at whole
      simp only [List.length_cons]
      omega
    · exact Nat.le_refl _
  · exact Nat.le_refl _

theorem takeWhile_isDigit_of_not_goesOn {rest : Text} (h : ¬ GoesOn rest) :
    rest.takeWhile CodePoint.isDigit = [] ∧ rest.dropWhile CodePoint.isDigit = rest := by
  cases rest with
  | nil => exact ⟨rfl, rfl⟩
  | cons c more =>
    have stop : ¬ c.isDigit = true := fun digit => h (.digit digit)
    exact ⟨List.takeWhile_cons_of_neg stop, List.dropWhile_cons_of_neg stop⟩

theorem splitFraction_of_not_goesOn {rest : Text} (h : ¬ GoesOn rest) :
    splitFraction rest = ([], rest) := by
  unfold splitFraction
  split
  · next more =>
    have none : more.takeWhile CodePoint.isDigit = [] := by
      cases more with
      | nil => rfl
      | cons c after => exact List.takeWhile_cons_of_neg fun digit => h (.fraction digit)
    simp [none]
  · rfl

theorem splitExponent_of_not_goesOn {rest : Text} (h : ¬ GoesOn rest) :
    splitExponent rest = (none, rest) := by
  unfold splitExponent
  split
  · next mark more =>
    obtain ⟨sign, signed, shape⟩ := Numeral.exists_sign more
    cases split : Numeral.splitSign more with
    | mk negative ds =>
      rw [split] at signed shape
      dsimp only
      refine if_neg fun goesOn => h ?_
      simp only [Bool.and_eq_true, Bool.or_eq_true, decide_eq_true_eq] at goesOn
      obtain ⟨marked, digits⟩ := goesOn
      cases ds with
      | nil => cases digits
      | cons c after =>
        rw [shape]
        refine .exponent marked signed (Decidable.byContradiction fun stop => ?_)
        rw [List.takeWhile_cons_of_neg stop] at digits
        cases digits
  · rfl

theorem splitExponent_ne_none {mark c : CodePoint} {sign rest : Text} {negative : Bool}
    (hm : mark = .char 'e' ∨ mark = .char 'E') (hs : Numeral.Sign sign negative)
    (hc : c.isDigit = true) : (splitExponent (mark :: (sign ++ c :: rest))).1 ≠ none := by
  have split : Numeral.splitSign (sign ++ c :: rest) = (negative, c :: rest) := by
    cases hs with
    | plus => rfl
    | minus => rfl
    | none =>
      rw [List.nil_append]
      unfold Numeral.splitSign
      split
      · next eq =>
        cases eq
        cases hc
      · next eq =>
        cases eq
        cases hc
      · rfl
  simp [splitExponent, split, hm, hc]

/-- A number that goes on, but with no more digits, has a fraction or an exponent. -/
theorem split_ne_of_goesOn {rest : Text} (h : GoesOn rest)
    (stop : rest.takeWhile CodePoint.isDigit = []) :
    ¬ ((splitFraction rest).1.isEmpty = true ∧
      (splitExponent (splitFraction rest).2).1 = none) := by
  rintro ⟨fraction, exponent⟩
  cases h with
  | digit hc =>
    rw [List.takeWhile_cons_of_pos hc] at stop
    cases stop
  | fraction hc => simp [splitFraction, hc] at fraction
  | @exponent mark c sign rest negative hm hs hc =>
    have some : (splitExponent (mark :: (sign ++ c :: rest))).1 ≠ none :=
      splitExponent_ne_none hm hs hc
    rcases hm with rfl | rfl <;> exact some exponent

theorem moves_finishNumber (negative : Bool) (whole rest : Text) : Moves (rest.length + 1)
    (Numeral.digitLimit < whole.length ∧ (rest.takeWhile CodePoint.isDigit = [] → ¬ GoesOn rest))
    (finishNumber negative whole rest) := by
  have fraction := length_splitFraction rest
  have exponent := length_splitExponent (splitFraction rest).2
  have behind := Nat.lt_succ_of_le (Nat.le_trans exponent fraction)
  unfold finishNumber
  dsimp only
  split
  · next plain =>
    split
    · exact behind
    · next none =>
      refine ⟨Numeral.value?_eq_none_iff.1 none, fun stop goesOn => ?_⟩
      exact split_ne_of_goesOn goesOn stop plain
  · exact behind

theorem finishNumber_of_long (negative : Bool) {whole rest : Text}
    (long : Numeral.digitLimit < whole.length) (h : ¬ GoesOn rest) :
    finishNumber negative whole rest = .error .numeralTooLong := by
  simp [finishNumber, splitFraction_of_not_goesOn h, splitExponent_of_not_goesOn h,
    Numeral.value?_eq_none_iff.2 long]

/-- An integer with too many digits at the start of a text. No digit follows a leading zero, and
with a fraction or an exponent it would be another number. -/
def StartsOverlong (cs : Text) : Prop :=
  ∃ ds rest, IsOverlong ds ∧ ds.head? ≠ some (.char '0') ∧ ¬ GoesOn rest ∧ cs = ds ++ rest

theorem takeWhile_dropWhile_isDigit (cs : Text) :
    (cs.dropWhile CodePoint.isDigit).takeWhile CodePoint.isDigit = [] := by
  have first := List.head?_dropWhile_not CodePoint.isDigit cs
  cases behind : cs.dropWhile CodePoint.isDigit with
  | nil => rfl
  | cons c more =>
    rw [behind] at first
    exact List.takeWhile_cons_of_neg (by simpa using first)

theorem moves_readNumber (negative : Bool) (cs : Text) :
    Moves cs.length (StartsOverlong cs) (readNumber negative cs) := by
  unfold readNumber
  split
  · next rest =>
    have zero := moves_finishNumber negative [.char '0'] rest
    exact zero.mono (Nat.le_refl _) fun h => absurd h.1 (by decide)
  · next noZero =>
    have shape := List.takeWhile_append_dropWhile (p := CodePoint.isDigit) (l := cs)
    dsimp only
    split
    · trivial
    · next some =>
      have some : cs.takeWhile CodePoint.isDigit ≠ [] := fun h => some (List.isEmpty_iff.2 h)
      refine (moves_finishNumber negative _ _).mono ?_ fun ⟨long, ends⟩ => ?_
      · have whole := congrArg List.length shape
        have pos := List.length_pos_iff.2 some
        rw [List.length_append] at whole
        omega
      · have digits : IsDigits (cs.takeWhile CodePoint.isDigit) :=
          ⟨some, List.all_eq_true.1 List.all_takeWhile⟩
        refine ⟨_, _, ⟨digits, long⟩, fun zero => ?_, ends (takeWhile_dropWhile_isDigit cs),
          shape.symm⟩
        obtain ⟨more, eq⟩ := List.head?_eq_some_iff.1 zero
        rw [eq] at shape
        exact noZero _ shape.symm

theorem readNumber_of_startsOverlong (negative : Bool) {cs : Text} (h : StartsOverlong cs) :
    readNumber negative cs = .error .numeralTooLong := by
  obtain ⟨ds, rest, ⟨digits, long⟩, first, ends, rfl⟩ := h
  obtain ⟨stop, behind⟩ := takeWhile_isDigit_of_not_goesOn ends
  obtain ⟨c, more, rfl⟩ := List.exists_cons_of_ne_nil digits.1
  unfold readNumber
  split
  · next eq =>
    cases eq
    exact absurd rfl first
  · simp only [List.takeWhile_append_of_pos digits.2, List.dropWhile_append_of_pos digits.2, stop,
      behind, List.append_nil, List.isEmpty_iff, digits.1, if_false]
    exact finishNumber_of_long negative long ends

theorem moves_readAtom (cs : Text) : Moves cs.length
    (StartsOverlong cs ∨ ∃ rest, cs = .char '-' :: rest ∧ StartsOverlong rest) (readAtom cs) := by
  unfold readAtom
  split
  case h_7 rest =>
    have text := (moves_readText rest).map Atom.text
    exact text.mono (Nat.le_succ _) False.elim
  case h_8 rest _ =>
    exact (moves_readNumber true rest).mono (Nat.le_succ _) fun h => .inr ⟨rest, rfl, h⟩
  case h_9 => exact (moves_readNumber false cs).mono (Nat.le_refl _) .inl
  all_goals
    -- A name has been read.
    simp only [Moves, List.length_cons]
    omega

theorem StartsOverlong.exists_digit {cs : Text} (h : StartsOverlong cs) :
    ∃ c more, c.isDigit = true ∧ cs = c :: more := by
  obtain ⟨ds, rest, ⟨digits, _⟩, _, _, rfl⟩ := h
  obtain ⟨c, more, rfl⟩ := List.exists_cons_of_ne_nil digits.1
  exact ⟨c, more ++ rest, digits.2 c List.mem_cons_self, rfl⟩

theorem StartsOverlong.length {cs : Text} (h : StartsOverlong cs) :
    Numeral.digitLimit < cs.length := by
  obtain ⟨ds, rest, ⟨_, long⟩, _, _, rfl⟩ := h
  rw [List.length_append]
  omega

theorem StartsOverlong.readAtom_eq {cs : Text} (h : StartsOverlong cs) :
    readAtom cs = .error .numeralTooLong := by
  obtain ⟨c, more, digit, rfl⟩ := h.exists_digit
  rw [readAtom_of_isDigit digit, readNumber_of_startsOverlong false h]

theorem StartsOverlong.readAtom_minus_eq {cs : Text} (h : StartsOverlong cs) :
    readAtom (.char '-' :: cs) = .error .numeralTooLong := by
  obtain ⟨c, more, digit, rfl⟩ := h.exists_digit
  rw [readAtom_minus digit, readNumber_of_startsOverlong true h]

/-! ## Values -/

/-- The value that a text starts with, and what stands behind it. -/
def Reads (cs : Text) (v : Json) (rest : Text) : Prop := ∃ fuel, readValue fuel cs = .ok (v, rest)

/-- Where a reader stands: before a value, before the elements of an array that are left, or before
the members of an object that are left. -/
inductive Part where
  | value
  | items
  | members

/-- The reader comes to an integer with too many digits, with nothing malformed before it. -/
inductive Stumbles : Part → Text → Prop where
  | integer {cs : Text} : StartsOverlong (skipSpace cs) → Stumbles .value cs
  | negative {cs rest : Text} : skipSpace cs = .char '-' :: rest → StartsOverlong rest →
      Stumbles .value cs
  | array {cs rest : Text} : skipSpace cs = .char '[' :: rest → Stumbles .items (skipSpace rest) →
      Stumbles .value cs
  | object {cs rest : Text} : skipSpace cs = .char '\x7b' :: rest →
      Stumbles .members (skipSpace rest) → Stumbles .value cs
  | item {cs : Text} : Stumbles .value cs → Stumbles .items cs
  | laterItem {cs rest more : Text} {v : Json} : Reads cs v rest →
      skipSpace rest = .char ',' :: more → Stumbles .items more → Stumbles .items cs
  | member {cs k rest : Text} : readKey (skipSpace cs) = .ok (k, rest) →
      Stumbles .value rest → Stumbles .members cs
  | laterMember {cs k afterKey rest more : Text} {v : Json} :
      readKey (skipSpace cs) = .ok (k, afterKey) → Reads afterKey v rest →
      skipSpace rest = .char ',' :: more → Stumbles .members more → Stumbles .members cs

section Steps

variable {fuel : Nat}

theorem length_lt_of_skipSpace {cs rest : Text} {c : CodePoint} (h : skipSpace cs = c :: rest) :
    rest.length < cs.length := by
  have shorter := length_skipSpace_le cs
  rw [h] at shorter
  exact shorter

theorem moves_readValue_succ
    (items : ∀ cs, Moves cs.length (Stumbles .items cs) (readItems fuel cs))
    (members : ∀ cs, Moves cs.length (Stumbles .members cs) (readMembers fuel cs)) (cs : Text) :
    Moves cs.length (Stumbles .value cs) (readValue (fuel + 1) cs) := by
  rw [readValue]
  split
  · next rest opens =>
    have inside := length_lt_of_skipSpace opens
    split
    · next after closes => exact Nat.lt_trans (length_lt_of_skipSpace closes) inside
    · have shorter := Nat.le_of_lt (Nat.lt_of_le_of_lt (length_skipSpace_le rest) inside)
      exact ((items _).map Json.array).mono shorter (.array opens)
  · next rest opens =>
    have inside := length_lt_of_skipSpace opens
    split
    · next after closes => exact Nat.lt_trans (length_lt_of_skipSpace closes) inside
    · have shorter := Nat.le_of_lt (Nat.lt_of_le_of_lt (length_skipSpace_le rest) inside)
      exact ((members _).map Json.object).mono shorter (.object opens)
  · refine ((moves_readAtom _).map Json.atom).mono (length_skipSpace_le cs) ?_
    rintro (starts | ⟨rest, eq, starts⟩)
    · exact .integer starts
    · exact .negative eq starts

theorem moves_readItems_succ
    (value : ∀ cs, Moves cs.length (Stumbles .value cs) (readValue fuel cs))
    (items : ∀ cs, Moves cs.length (Stumbles .items cs) (readItems fuel cs)) (cs : Text) :
    Moves cs.length (Stumbles .items cs) (readItems (fuel + 1) cs) := by
  have first := value cs
  rw [readItems]
  split
  · next eq => exact (first.mono (Nat.le_refl _) .item).error eq
  · next v rest eq =>
    have used := first.lt eq
    split
    · next more comma =>
      have shorter := Nat.lt_trans (length_lt_of_skipSpace comma) used
      exact ((items more).map (v :: ·)).mono (Nat.le_of_lt shorter) (.laterItem ⟨fuel, eq⟩ comma)
    · next after closes => exact Nat.lt_trans (length_lt_of_skipSpace closes) used
    · trivial

theorem moves_readMembers_succ
    (value : ∀ cs, Moves cs.length (Stumbles .value cs) (readValue fuel cs))
    (members : ∀ cs, Moves cs.length (Stumbles .members cs) (readMembers fuel cs)) (cs : Text) :
    Moves cs.length (Stumbles .members cs) (readMembers (fuel + 1) cs) := by
  have key : Moves cs.length (Stumbles .members cs) (readKey (skipSpace cs)) :=
    (moves_readKey (skipSpace cs)).mono (length_skipSpace_le cs) False.elim
  rw [readMembers]
  split
  · next eq => exact key.error eq
  · next k afterKey named =>
    have behind := key.lt named
    have first := value afterKey
    split
    · next eq => exact (first.mono (Nat.le_of_lt behind) (.member named)).error eq
    · next v rest eq =>
      have used := Nat.lt_trans (first.lt eq) behind
      split
      · next more comma =>
        have shorter := Nat.lt_trans (length_lt_of_skipSpace comma) used
        exact ((members more).map ((k, v) :: ·)).mono (Nat.le_of_lt shorter)
          (.laterMember named ⟨fuel, eq⟩ comma)
      · next after closes => exact Nat.lt_trans (length_lt_of_skipSpace closes) used
      · trivial

end Steps

theorem moves_read (fuel : Nat) : ∀ cs, Moves cs.length (Stumbles .value cs) (readValue fuel cs) ∧
    Moves cs.length (Stumbles .items cs) (readItems fuel cs) ∧
    Moves cs.length (Stumbles .members cs) (readMembers fuel cs) := by
  induction fuel with
  | zero => exact fun _ => ⟨trivial, trivial, trivial⟩
  | succ fuel ih =>
    have value := fun cs => (ih cs).1
    have items := fun cs => (ih cs).2.1
    have members := fun cs => (ih cs).2.2
    exact fun cs => ⟨moves_readValue_succ items members cs, moves_readItems_succ value items cs,
      moves_readMembers_succ value members cs⟩

/-! ## Enough fuel -/

/-- The outcome `s` of more fuel, unless the outcome of less fuel is that the text is malformed. -/
def Lasts {α : Type} (r s : Read α) : Prop := r = .error .malformed ∨ s = r

theorem Lasts.map {α β : Type} {r s : Read α} (h : Lasts r s) (f : α × Text → β × Text) :
    Lasts (r.map f) (s.map f) := by
  rcases h with rfl | rfl
  · exact .inl rfl
  · exact .inr rfl

section Fuel

variable {f g : Nat}

theorem lasts_readValue_succ {cs : Text}
    (items : ∀ inner : Text, inner.length < cs.length →
      Lasts (readItems f inner) (readItems g inner))
    (members : ∀ inner : Text, inner.length < cs.length →
      Lasts (readMembers f inner) (readMembers g inner)) :
    Lasts (readValue (f + 1) cs) (readValue (g + 1) cs) := by
  rw [readValue, readValue]
  split
  · next rest opens =>
    split
    · exact .inr rfl
    · have shorter := Nat.lt_of_le_of_lt (length_skipSpace_le rest) (length_lt_of_skipSpace opens)
      exact (items _ shorter).map _
  · next rest opens =>
    split
    · exact .inr rfl
    · have shorter := Nat.lt_of_le_of_lt (length_skipSpace_le rest) (length_lt_of_skipSpace opens)
      exact (members _ shorter).map _
  · exact .inr rfl

theorem lasts_readItems_succ {cs : Text} (value : Lasts (readValue f cs) (readValue g cs))
    (items : ∀ inner : Text, inner.length + 2 ≤ cs.length →
      Lasts (readItems f inner) (readItems g inner)) :
    Lasts (readItems (f + 1) cs) (readItems (g + 1) cs) := by
  have first := (moves_read f cs).1
  rw [readItems, readItems]
  rcases value with bad | same
  · rw [bad]
    exact .inl rfl
  · rw [same]
    split
    · exact .inr rfl
    · next v rest eq =>
      have used := first.lt eq
      split
      · next more comma =>
        have shorter := length_lt_of_skipSpace comma
        exact (items more (by omega)).map _
      · exact .inr rfl
      · exact .inr rfl

theorem lasts_readMembers_succ {cs : Text}
    (value : ∀ inner : Text, inner.length < cs.length →
      Lasts (readValue f inner) (readValue g inner))
    (members : ∀ inner : Text, inner.length + 2 ≤ cs.length →
      Lasts (readMembers f inner) (readMembers g inner)) :
    Lasts (readMembers (f + 1) cs) (readMembers (g + 1) cs) := by
  have key := moves_readKey (skipSpace cs)
  rw [readMembers, readMembers]
  split
  · exact .inr rfl
  · next k afterKey named =>
    have behind := Nat.lt_of_lt_of_le (key.lt named) (length_skipSpace_le cs)
    have first := (moves_read f afterKey).1
    rcases value afterKey behind with bad | same
    · rw [bad]
      exact .inl rfl
    · rw [same]
      split
      · exact .inr rfl
      · next v rest eq =>
        have used := first.lt eq
        split
        · next more comma =>
          have shorter := length_lt_of_skipSpace comma
          exact (members more (by omega)).map _
        · exact .inr rfl
        · exact .inr rfl

end Fuel

/-- A value needs at most twice as much fuel as it has characters. -/
theorem lasts_read (f : Nat) : ∀ (g : Nat) (cs : Text),
    (2 * cs.length + 1 ≤ g → Lasts (readValue f cs) (readValue g cs)) ∧
    (2 * cs.length + 2 ≤ g → Lasts (readItems f cs) (readItems g cs)) ∧
    (2 * cs.length + 2 ≤ g → Lasts (readMembers f cs) (readMembers g cs)) := by
  induction f with
  | zero => exact fun _ _ => ⟨fun _ => .inl rfl, fun _ => .inl rfl, fun _ => .inl rfl⟩
  | succ f ih =>
    intro g cs
    cases g with
    | zero => exact ⟨fun _ => by omega, fun _ => by omega, fun _ => by omega⟩
    | succ g =>
      refine ⟨fun enough => lasts_readValue_succ ?_ ?_, fun enough => lasts_readItems_succ ?_ ?_,
        fun enough => lasts_readMembers_succ ?_ ?_⟩
      · exact fun inner shorter => (ih g inner).2.1 (by omega)
      · exact fun inner shorter => (ih g inner).2.2 (by omega)
      · exact (ih g cs).1 (by omega)
      · exact fun inner shorter => (ih g inner).2.1 (by omega)
      · exact fun inner shorter => (ih g inner).1 (by omega)
      · exact fun inner shorter => (ih g inner).2.2 (by omega)

theorem Reads.readValue {cs rest : Text} {v : Json} (h : Reads cs v rest) {g : Nat}
    (enough : 2 * cs.length + 1 ≤ g) : readValue g cs = .ok (v, rest) := by
  obtain ⟨fuel, read⟩ := h
  rcases (lasts_read fuel g cs).1 enough with bad | same
  · rw [read] at bad
    cases bad
  · rw [same, read]

theorem Reads.length_lt {cs rest : Text} {v : Json} (h : Reads cs v rest) :
    rest.length < cs.length := by
  obtain ⟨fuel, read⟩ := h
  exact (moves_read fuel cs).1.lt read

/-! ## The reader stumbles -/

/-- A reader that has so much fuel stumbles. -/
def StumblesWith (fuel : Nat) (cs : Text) : Part → Prop
  | .value => readValue fuel cs = .error .numeralTooLong
  | .items => readItems fuel cs = .error .numeralTooLong
  | .members => readMembers fuel cs = .error .numeralTooLong

/-- The fuel that a text of `n` characters needs. -/
def Part.fuel (n : Nat) : Part → Nat
  | .value => 2 * n + 1
  | .items => 2 * n + 2
  | .members => 2 * n + 2

theorem readValue_of_atom {fuel : Nat} {cs : Text} {e : ReadFault}
    (h : readAtom (skipSpace cs) = .error e) (array : ∀ rest, skipSpace cs ≠ .char '[' :: rest)
    (object : ∀ rest, skipSpace cs ≠ .char '\x7b' :: rest) :
    readValue (fuel + 1) cs = .error e := by
  rw [readValue]
  split
  · next eq => exact absurd eq (array _)
  · next eq => exact absurd eq (object _)
  · rw [h]
    rfl

/-- What ends a collection starts no element and no member. -/
theorem readItems_end (fuel : Nat) (after : Text) :
    readItems fuel (.char ']' :: after) = .error .malformed := by
  rcases fuel with _ | _ | fuel <;> rfl

theorem readMembers_end (fuel : Nat) (after : Text) :
    readMembers fuel (.char '\x7d' :: after) = .error .malformed := by
  cases fuel <;> rfl

theorem stumblesWith_of_stumbles {part : Part} {cs : Text} (h : Stumbles part cs) :
    ∀ fuel, part.fuel cs.length ≤ fuel → StumblesWith fuel cs part := by
  induction h with
  | @integer cs starts =>
    rintro (_ | fuel) enough
    · cases enough
    · obtain ⟨c, more, digit, eq⟩ := starts.exists_digit
      refine readValue_of_atom starts.readAtom_eq (fun rest other => ?_) fun rest other => ?_
      all_goals
        rw [eq] at other
        cases other
        cases digit
  | @negative cs rest minus starts =>
    rintro (_ | fuel) enough
    · cases enough
    · refine readValue_of_atom (minus ▸ starts.readAtom_minus_eq) ?_ ?_
      all_goals
        rw [minus]
        exact nofun
  | @array cs rest opens inside ih =>
    rintro (_ | fuel) enough
    · cases enough
    · have shorter := Nat.lt_of_le_of_lt (length_skipSpace_le rest) (length_lt_of_skipSpace opens)
      have stumbles := ih fuel (by simp only [Part.fuel] at enough ⊢; omega)
      simp only [StumblesWith] at stumbles ⊢
      simp only [readValue, opens]
      split
      · next after closes =>
        rw [closes, readItems_end] at stumbles
        cases stumbles
      · rw [stumbles]
        rfl
  | @object cs rest opens inside ih =>
    rintro (_ | fuel) enough
    · cases enough
    · have shorter := Nat.lt_of_le_of_lt (length_skipSpace_le rest) (length_lt_of_skipSpace opens)
      have stumbles := ih fuel (by simp only [Part.fuel] at enough ⊢; omega)
      simp only [StumblesWith] at stumbles ⊢
      simp only [readValue, opens]
      split
      · next after closes =>
        rw [closes, readMembers_end] at stumbles
        cases stumbles
      · rw [stumbles]
        rfl
  | item inside ih =>
    rintro (_ | fuel) enough
    · cases enough
    · have stumbles := ih fuel (Nat.le_of_succ_le_succ enough)
      simp only [StumblesWith] at stumbles ⊢
      rw [readItems, stumbles]
  | @laterItem cs rest more v first comma later ih =>
    rintro (_ | fuel) enough
    · cases enough
    · have used := first.length_lt
      have shorter := length_lt_of_skipSpace comma
      simp only [Part.fuel] at enough ih
      have stumbles := ih fuel (by omega)
      simp only [StumblesWith] at stumbles ⊢
      rw [readItems, first.readValue (by omega)]
      dsimp only
      simp only [comma]
      rw [stumbles]
      rfl
  | @member cs k rest key inside ih =>
    rintro (_ | fuel) enough
    · cases enough
    · have behind := Nat.lt_of_lt_of_le ((moves_readKey _).lt key) (length_skipSpace_le cs)
      have stumbles := ih fuel (by simp only [Part.fuel] at enough ⊢; omega)
      simp only [StumblesWith] at stumbles ⊢
      rw [readMembers, key]
      dsimp only
      rw [stumbles]
  | @laterMember cs k afterKey rest more v key first comma later ih =>
    rintro (_ | fuel) enough
    · cases enough
    · have behind := Nat.lt_of_lt_of_le ((moves_readKey _).lt key) (length_skipSpace_le cs)
      have used := first.length_lt
      have shorter := length_lt_of_skipSpace comma
      simp only [Part.fuel] at enough ih
      have stumbles := ih fuel (by omega)
      simp only [StumblesWith] at stumbles ⊢
      rw [readMembers, key]
      dsimp only
      rw [first.readValue (by omega)]
      dsimp only
      simp only [comma]
      rw [stumbles]
      rfl

theorem read_eq_error_iff {s : Text} : read s = .error .numeralTooLong ↔ Stumbles .value s := by
  have outcome := (moves_read (2 * s.length + 2) s).1
  unfold read
  constructor
  · intro h
    split at h
    · next e eq =>
      cases h
      rw [eq] at outcome
      exact outcome
    · split at h <;> cases h
  · intro h
    have stumbles : readValue (2 * s.length + 2) s = .error .numeralTooLong :=
      stumblesWith_of_stumbles h _ (Nat.le_succ _)
    rw [stumbles]

theorem Stumbles.length {part : Part} {cs : Text} (h : Stumbles part cs) :
    Numeral.digitLimit < cs.length := by
  induction h with
  | @integer cs starts =>
    exact Nat.lt_of_lt_of_le starts.length (length_skipSpace_le cs)
  | negative minus starts => exact Nat.lt_trans starts.length (length_lt_of_skipSpace minus)
  | @array cs rest opens inside ih =>
    have shorter := length_skipSpace_le rest
    have := length_lt_of_skipSpace opens
    omega
  | @object cs rest opens inside ih =>
    have shorter := length_skipSpace_le rest
    have := length_lt_of_skipSpace opens
    omega
  | item inside ih => exact ih
  | laterItem first comma later ih =>
    exact Nat.lt_trans ih (Nat.lt_trans (length_lt_of_skipSpace comma) first.length_lt)
  | @member cs k rest key inside ih =>
    have behind := Nat.lt_of_lt_of_le ((moves_readKey _).lt key) (length_skipSpace_le cs)
    exact Nat.lt_trans ih behind
  | @laterMember cs k afterKey rest more v key first comma later ih =>
    have behind := Nat.lt_of_lt_of_le ((moves_readKey _).lt key) (length_skipSpace_le cs)
    have shorter := length_lt_of_skipSpace comma
    have := first.length_lt
    omega

end Intake.Json
