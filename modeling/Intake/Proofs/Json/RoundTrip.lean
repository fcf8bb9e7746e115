import Intake.Json.Reader
import Intake.Json.Writer
import Intake.Proofs.Json.Copying

set_option autoImplicit false

/-!
# Reading what was written

The reader inverts the writer on values whose numbers are integers that may be written (`Integral`).
`readPoint_writePoint` says so of one code point of a string, `readAtom_writeAtom` of an atom, and
`readValue_write` of a value with anything behind it that can follow a value. The fuel that a value
needs is never more than the length of its text.
-/

namespace Intake

/-- A number is an integer with few enough digits to be written. -/
def Atom.isIntegral : Atom → Bool
  | .double _ => false
  | .int n => Numeral.isWritable n
  | _ => true

/-- All numbers in a value are integers with few enough digits to be written. -/
inductive Json.Integral : Json → Prop where
  | atom {a : Atom} : a.isIntegral = true → Integral (.atom a)
  | array {items : List Json} : (∀ v ∈ items, Integral v) → Integral (.array items)
  | object {ms : Members} : (∀ m ∈ ms, Integral m.2) → Integral (.object ms)

theorem CodePoint.ofNat_toNat_of_lt {c : CodePoint} (h : c.toNat < 0x20) :
    CodePoint.ofNat c.toNat = c := by
  cases c with
  | surrogate i =>
    simp only [CodePoint.toNat] at h
    omega
  | char c =>
    simp only [CodePoint.toNat] at h ⊢
    rw [CodePoint.ofNat, dif_neg (by omega), Char.ofNat_toNat]

namespace Numeral

/-- No number but zero is written with a zero in front. -/
theorem exists_digits_eq_cons {n : Nat} (h : n ≠ 0) :
    ∃ c rest, digits n = c :: rest ∧ c ≠ .char '0' := by
  induction n using Nat.strongRecOn with
  | ind n ih =>
    by_cases small : n < 10
    · have single : ∀ m : Fin 10, m.val ≠ 0 →
          digits m.val = [.char (Nat.digitChar m.val)] ∧
            CodePoint.char (Nat.digitChar m.val) ≠ .char '0' := by
        decide
      obtain ⟨eq, ne⟩ := single ⟨n, small⟩ h
      exact ⟨_, [], eq, ne⟩
    · obtain ⟨c, rest, eq, ne⟩ := ih (n / 10) (by omega) (by omega)
      have split : digits n = digits (n / 10) ++ [.char (Nat.digitChar (n % 10))] := by
        simp [digits, Nat.toDigits_of_base_le (by decide : 1 < 10) (by omega : 10 ≤ n),
          Text.ofChars]
      exact ⟨c, rest ++ _, by rw [split, eq, List.cons_append], ne⟩

end Numeral

namespace Json

/-! ## Strings -/

theorem codeUnit?_hex {n : Nat} (h : n < 0x10000) (more : Text) :
    codeUnit? (Text.hex 4 n ++ more) = some (n, more) := by
  have digits : Text.ofHex? (Text.hex 4 n) = some n := by
    simp [Text.ofHex?, Text.hex, CodePoint.char?, Text.hexValue?_hexDigit]
    omega
  simp only [Text.hex, List.nil_append, List.cons_append] at digits ⊢
  rw [codeUnit?, digits]
  rfl

theorem readPoint_control {c : CodePoint} (h : c.toNat < 0x20) (more : Text) :
    readPoint (.char '\\' :: .char 'u' :: (Text.hex 4 c.toNat ++ more)) = .ok (some c, more) := by
  have unit := codeUnit?_hex (n := c.toNat) (by omega) more
  have whole : isHigh c.toNat = false := by
    simp only [isHigh, Bool.and_eq_false_iff, decide_eq_false_iff_not]
    omega
  simp only [readPoint, unit, escapedPoint, whole, Bool.false_eq_true, if_false,
    CodePoint.ofNat_toNat_of_lt h]

theorem readPoint_plain {c : CodePoint} (quote : c ≠ .char '"') (backslash : c ≠ .char '\\')
    (printed : ¬ c.toNat < 0x20) (more : Text) : readPoint (c :: more) = .ok (some c, more) := by
  unfold readPoint
  split <;> simp_all

theorem readPoint_writePoint (c : CodePoint) (more : Text) :
    readPoint (writePoint c ++ more) = .ok (some c, more) := by
  unfold writePoint
  split
  case h_8 quote backslash _ _ _ _ _ =>
    split
    · exact readPoint_control ‹_› more
    · exact readPoint_plain quote backslash ‹_› more
  all_goals rfl

theorem readPoints_flatMap (s rest : Text) {fuel : Nat} (h : s.length < fuel) :
    readPoints fuel (s.flatMap writePoint ++ .char '"' :: rest) = .ok (s, rest) := by
  induction s generalizing fuel with
  | nil =>
    obtain ⟨n, rfl⟩ := Nat.exists_eq_add_one.2 h
    rfl
  | cons c s ih =>
    obtain ⟨n, rfl⟩ := Nat.exists_eq_add_one.2 (Nat.zero_lt_of_lt h)
    rw [List.flatMap_cons, List.append_assoc, readPoints, readPoint_writePoint]
    simp only [ih (Nat.lt_of_succ_lt_succ h)]

theorem length_le_flatMap (s : Text) : s.length ≤ (s.flatMap writePoint).length := by
  induction s with
  | nil => exact Nat.le_refl 0
  | cons c s ih =>
    have one : 1 ≤ (writePoint c).length := by
      unfold writePoint
      split
      case h_8 => split <;> simp
      all_goals decide
    rw [List.flatMap_cons, List.length_append, List.length_cons]
    omega

theorem readText_flatMap (s rest : Text) :
    readText (s.flatMap writePoint ++ .char '"' :: rest) = .ok (s, rest) := by
  have enough := length_le_flatMap s
  apply readPoints_flatMap
  rw [List.length_append, List.length_cons]
  omega

theorem writeText_append (s rest : Text) :
    writeText s ++ rest = .char '"' :: (s.flatMap writePoint ++ .char '"' :: rest) := by
  rw [writeText, List.append_assoc, List.append_assoc]
  rfl

theorem readKey_writeText (k rest : Text) :
    readKey (writeText k ++ .char ':' :: rest) = .ok (k, rest) := by
  rw [writeText_append, readKey, readText_flatMap]
  rfl

/-! ## Atoms -/

/-- What can follow a value: nothing, a comma or a closing bracket. -/
def isFollowing : Text → Bool
  | [] => true
  | c :: _ => c = ',' || c = ']' || c = '\x7d'

/-- Nothing that follows a value continues a number. -/
theorem stops_of_isFollowing {c : CodePoint} {rest : Text} (h : isFollowing (c :: rest) = true) :
    c.isDigit = false ∧ c ≠ .char '.' ∧ c ≠ .char 'e' ∧ c ≠ .char 'E' := by
  simp only [isFollowing, Bool.or_eq_true, decide_eq_true_eq] at h
  rcases h with (rfl | rfl) | rfl <;> decide

theorem splitFraction_of_isFollowing {rest : Text} (h : isFollowing rest = true) :
    splitFraction rest = ([], rest) := by
  cases rest with
  | nil => rfl
  | cons c more =>
    have stops := stops_of_isFollowing h
    unfold splitFraction
    split
    · next eq => exact absurd (List.cons.inj eq).1 stops.2.1
    · rfl

theorem splitExponent_of_isFollowing {rest : Text} (h : isFollowing rest = true) :
    splitExponent rest = (none, rest) := by
  cases rest with
  | nil => rfl
  | cons c more =>
    obtain ⟨_, _, lower, upper⟩ := stops_of_isFollowing h
    simp [splitExponent, lower, upper]

theorem finishNumber_of_isFollowing {n : Nat} {rest : Text} (negative : Bool)
    (few : (Numeral.digits n).length ≤ Numeral.digitLimit) (h : isFollowing rest = true) :
    finishNumber negative (Numeral.digits n) rest =
      .ok (.int (Numeral.signed negative n), rest) := by
  simp [finishNumber, splitFraction_of_isFollowing h, splitExponent_of_isFollowing h,
    Numeral.value?_digits few]

theorem takeWhile_digits {rest : Text} (n : Nat) (h : isFollowing rest = true) :
    (Numeral.digits n ++ rest).takeWhile CodePoint.isDigit = Numeral.digits n ∧
      (Numeral.digits n ++ rest).dropWhile CodePoint.isDigit = rest := by
  have all : ∀ c ∈ Numeral.digits n, c.isDigit = true := fun c => Numeral.isDigit_of_mem_digits
  rw [List.takeWhile_append_of_pos all, List.dropWhile_append_of_pos all]
  cases rest with
  | nil => simp
  | cons c more =>
    have stops := (stops_of_isFollowing h).1
    simp [stops]

theorem readNumber_digits {n : Nat} {rest : Text} (negative : Bool)
    (few : (Numeral.digits n).length ≤ Numeral.digitLimit) (h : isFollowing rest = true) :
    readNumber negative (Numeral.digits n ++ rest) =
      .ok (.int (Numeral.signed negative n), rest) := by
  by_cases zero : n = 0
  · subst zero
    exact finishNumber_of_isFollowing negative few h
  · obtain ⟨c, more, eq, ne⟩ := Numeral.exists_digits_eq_cons zero
    obtain ⟨taken, dropped⟩ := takeWhile_digits n h
    unfold readNumber
    split
    · next first =>
      rw [eq] at first
      exact absurd (List.cons.inj first).1 ne
    · simp only [taken, dropped, List.isEmpty_iff, Numeral.digits_ne_nil, if_false]
      exact finishNumber_of_isFollowing negative few h

theorem ofInt_eq (n : Int) :
    (Numeral.ofInt n = .char '-' :: Numeral.digits n.natAbs ∧ Numeral.signed true n.natAbs = n) ∨
      Numeral.ofInt n = Numeral.digits n.natAbs ∧ Numeral.signed false n.natAbs = n := by
  unfold Numeral.ofInt
  split
  · exact .inl ⟨rfl, show -(n.natAbs : Int) = n by omega⟩
  · exact .inr ⟨rfl, show (n.natAbs : Int) = n by omega⟩

theorem readAtom_of_isDigit {c : CodePoint} (h : c.isDigit = true) (rest : Text) :
    readAtom (c :: rest) = readNumber false (c :: rest) := by
  unfold readAtom
  split
  case h_9 => rfl
  all_goals
    -- Every other case starts with something that is no digit.
    rename_i eq
    obtain ⟨rfl, _⟩ := List.cons.inj eq
    cases h

theorem readAtom_minus {c : CodePoint} (h : c.isDigit = true) (rest : Text) :
    readAtom (.char '-' :: c :: rest) = readNumber true (c :: rest) := by
  have noLimit : c ≠ .char 'I' := by
    rintro rfl
    cases h
  simp [readAtom, noLimit]

theorem readAtom_ofInt {n : Int} {rest : Text} (few : Numeral.isWritable n = true)
    (h : isFollowing rest = true) : readAtom (Numeral.ofInt n ++ rest) = .ok (.int n, rest) := by
  have few : (Numeral.digits n.natAbs).length ≤ Numeral.digitLimit := by
    simpa [Numeral.isWritable] using few
  have read := fun negative => readNumber_digits negative few h
  obtain ⟨c, more, eq⟩ := List.exists_cons_of_ne_nil (Numeral.digits_ne_nil n.natAbs)
  have digit : c.isDigit = true := Numeral.isDigit_of_mem_digits (eq ▸ List.mem_cons_self)
  rw [eq, List.cons_append] at read
  rcases ofInt_eq n with ⟨written, value⟩ | ⟨written, value⟩
  · rw [written, eq, List.cons_append, List.cons_append, readAtom_minus digit, read, value]
  · rw [written, eq, List.cons_append, readAtom_of_isDigit digit, read, value]

theorem readAtom_writeAtom {a : Atom} {rest : Text} (h : a.isIntegral = true)
    (following : isFollowing rest = true) : readAtom (writeAtom a ++ rest) = .ok (a, rest) := by
  cases a with
  | null => rfl
  | bool b => cases b <;> rfl
  | int n => exact readAtom_ofInt h following
  | double x => cases h
  | text s =>
    rw [writeAtom, writeText_append, readAtom, readText_flatMap]
    rfl

/-! ## Values -/

/-- What no value starts with: a blank or what ends a collection. -/
def blanksAndEnds : List CodePoint := [' ', '\t', '\n', '\r', ']', '\x7d']

/-- A text that starts like a value. -/
def Opens (s : Text) : Prop := ∃ c rest, s = c :: rest ∧ c ∉ blanksAndEnds

/-- A text that starts like a value that is no collection. -/
def OpensAtom (s : Text) : Prop :=
  ∃ c rest, s = c :: rest ∧ c ∉ .char '[' :: .char '\x7b' :: blanksAndEnds

theorem OpensAtom.opens {s : Text} (h : OpensAtom s) : Opens s := by
  obtain ⟨c, rest, eq, other⟩ := h
  exact ⟨c, rest, eq, fun mem => other (List.mem_cons_of_mem _ (List.mem_cons_of_mem _ mem))⟩

theorem OpensAtom.of_isDigit {c : CodePoint} (h : c.isDigit = true) (rest : Text) :
    OpensAtom (c :: rest) := by
  refine ⟨c, rest, rfl, fun mem => ?_⟩
  have none : ∀ d ∈ .char '[' :: .char '\x7b' :: blanksAndEnds, d.isDigit = false := by decide
  rw [none c mem] at h
  cases h

theorem OpensAtom.append {s : Text} (h : OpensAtom s) (rest : Text) : OpensAtom (s ++ rest) := by
  obtain ⟨c, more, rfl, other⟩ := h
  exact ⟨c, more ++ rest, rfl, other⟩

theorem Opens.append {s : Text} (h : Opens s) (rest : Text) : Opens (s ++ rest) := by
  obtain ⟨c, more, rfl, other⟩ := h
  exact ⟨c, more ++ rest, rfl, other⟩

theorem Opens.skipSpace_eq {s : Text} (h : Opens s) : skipSpace s = s := by
  obtain ⟨c, rest, rfl, other⟩ := h
  have visible : isSpace c = false := by
    simp only [blanksAndEnds, List.mem_cons, not_or] at other
    simp [isSpace, other]
  rw [skipSpace, List.dropWhile_cons, visible]
  rfl

theorem Opens.ne_cons {s : Text} (h : Opens s) {d : CodePoint} (hd : d ∈ blanksAndEnds)
    (rest : Text) : s ≠ d :: rest := by
  obtain ⟨c, more, rfl, other⟩ := h
  intro eq
  exact other ((List.cons.inj eq).1 ▸ hd)

theorem opensAtom_writeAtom {a : Atom} (h : a.isIntegral = true) : OpensAtom (writeAtom a) := by
  cases a with
  | null => exact ⟨_, _, rfl, by decide⟩
  | bool b => cases b <;> exact ⟨_, _, rfl, by decide⟩
  | double x => cases h
  | text s => exact ⟨_, _, rfl, by decide⟩
  | int n =>
    obtain ⟨c, more, eq⟩ := List.exists_cons_of_ne_nil (Numeral.digits_ne_nil n.natAbs)
    have digit : c.isDigit = true := Numeral.isDigit_of_mem_digits (eq ▸ List.mem_cons_self)
    rw [writeAtom]
    rcases ofInt_eq n with ⟨written, _⟩ | ⟨written, _⟩
    · exact ⟨_, _, written, by decide⟩
    · rw [written, eq]
      exact .of_isDigit digit more

theorem opens_write {v : Json} (h : v.Integral) : Opens (write v) := by
  cases h with
  | atom ha => exact (opensAtom_writeAtom ha).opens
  | @array items _ => cases items <;> exact ⟨_, _, rfl, by decide⟩
  | @object ms _ => rcases ms with _ | ⟨⟨k, v⟩, ms⟩ <;> exact ⟨_, _, rfl, by decide⟩

theorem opens_writeText (k : Text) : Opens (writeText k) := ⟨_, _, rfl, by decide⟩

theorem isFollowing_writeItems (vs : List Json) (rest : Text) :
    isFollowing (writeItems vs ++ rest) = true := by
  cases vs <;> rfl

theorem isFollowing_writeMembers (ms : Members) (rest : Text) :
    isFollowing (writeMembers ms ++ rest) = true := by
  rcases ms with _ | ⟨⟨k, v⟩, ms⟩ <;> rfl

section Steps

variable {fuel : Nat} {s rest : Text}

theorem readValue_opensAtom (h : OpensAtom s) :
    readValue (fuel + 1) s = (readAtom s).map fun r => (.atom r.1, r.2) := by
  have skipped := h.opens.skipSpace_eq
  obtain ⟨c, more, rfl, other⟩ := h
  simp only [List.mem_cons, not_or] at other
  rw [readValue, skipped]
  split
  · next eq => exact absurd (List.cons.inj eq).1 other.1
  · next eq => exact absurd (List.cons.inj eq).1 other.2.1
  · rfl

theorem readValue_bracket (h : Opens s) :
    readValue (fuel + 1) (.char '[' :: s) =
      (readItems fuel s).map fun r => (.array r.1, r.2) := by
  have visible : skipSpace (.char '[' :: s) = .char '[' :: s := rfl
  rw [readValue, visible]
  simp only [h.skipSpace_eq]
  split
  · next after => exact absurd rfl (h.ne_cons (by decide) after)
  · rfl

theorem readValue_brace (h : Opens s) :
    readValue (fuel + 1) (.char '\x7b' :: s) =
      (readMembers fuel s).map fun r => (.object r.1, r.2) := by
  have visible : skipSpace (.char '\x7b' :: s) = .char '\x7b' :: s := rfl
  rw [readValue, visible]
  simp only [h.skipSpace_eq]
  split
  · next after => exact absurd rfl (h.ne_cons (by decide) after)
  · rfl

end Steps

theorem length_write_pos {v : Json} (h : v.Integral) : 0 < (write v).length := by
  obtain ⟨c, rest, eq, _⟩ := opens_write h
  rw [eq]
  exact Nat.zero_lt_succ _

theorem length_writeItems_pos (vs : List Json) : 0 < (writeItems vs).length := by
  cases vs <;> exact Nat.zero_lt_succ _

theorem length_writeMembers_pos (ms : Members) : 0 < (writeMembers ms).length := by
  rcases ms with _ | ⟨⟨k, v⟩, ms⟩ <;> exact Nat.zero_lt_succ _

/-! The texts of collections, with what stands behind their first values set apart. -/

theorem write_array_cons (v : Json) (vs : List Json) :
    write (.array (v :: vs)) = .char '[' :: (write v ++ writeItems vs) := rfl

theorem write_object_cons (k : Text) (v : Json) (ms : Members) :
    write (.object ((k, v) :: ms)) =
      .char '\x7b' :: (writeText k ++ .char ':' :: (write v ++ writeMembers ms)) := by
  simp only [write, List.append_assoc]
  rfl

theorem writeItems_cons (v : Json) (vs : List Json) :
    writeItems (v :: vs) = .char ',' :: (write v ++ writeItems vs) := rfl

theorem writeMembers_cons (k : Text) (v : Json) (ms : Members) :
    writeMembers ((k, v) :: ms) =
      .char ',' :: (writeText k ++ .char ':' :: (write v ++ writeMembers ms)) := by
  simp only [writeMembers, List.append_assoc]
  rfl

/-- With this much fuel the text of a value is read as that value. -/
def ReadsBack (fuel : Nat) (v : Json) : Prop :=
  ∀ rest, isFollowing rest = true → readValue fuel (write v ++ rest) = .ok (v, rest)

mutual

theorem readValue_write : (v : Json) → v.Integral → ∀ fuel, (write v).length ≤ fuel →
    ReadsBack fuel v
  | .atom a, h, fuel, enough => by
    intro rest following
    obtain ⟨n, rfl⟩ := Nat.exists_eq_add_one.2 (Nat.lt_of_lt_of_le (length_write_pos h) enough)
    cases h with
    | atom ha =>
      rw [write, readValue_opensAtom ((opensAtom_writeAtom ha).append rest),
        readAtom_writeAtom ha following]
      rfl
  | .array [], h, fuel, enough => by
    intro rest following
    obtain ⟨n, rfl⟩ := Nat.exists_eq_add_one.2 (Nat.lt_of_lt_of_le (length_write_pos h) enough)
    rfl
  | .array (v :: vs), h, fuel, enough => by
    intro rest following
    obtain ⟨hv, later⟩ : v.Integral ∧ ∀ w ∈ vs, w.Integral := by
      cases h with
      | array items => exact List.forall_mem_cons.1 items
    have first := length_write_pos hv
    have behind := length_writeItems_pos vs
    rw [write_array_cons, List.length_cons, List.length_append] at enough
    obtain ⟨n, rfl⟩ : ∃ n, fuel = n + 1 + 1 := ⟨fuel - 2, by omega⟩
    have read := readItems_write vs later n (by omega) v (readValue_write v hv n (by omega)) rest
    rw [write_array_cons, List.cons_append, List.append_assoc,
      readValue_bracket ((opens_write hv).append _), read]
    rfl
  | .object [], h, fuel, enough => by
    intro rest following
    obtain ⟨n, rfl⟩ := Nat.exists_eq_add_one.2 (Nat.lt_of_lt_of_le (length_write_pos h) enough)
    rfl
  | .object ((k, v) :: ms), h, fuel, enough => by
    intro rest following
    obtain ⟨hv, later⟩ : v.Integral ∧ ∀ m ∈ ms, m.2.Integral := by
      cases h with
      | object members => exact List.forall_mem_cons.1 members
    have first := length_write_pos hv
    have behind := length_writeMembers_pos ms
    rw [write_object_cons] at enough ⊢
    simp only [List.length_cons, List.length_append] at enough
    obtain ⟨n, rfl⟩ : ∃ n, fuel = n + 1 + 1 := ⟨fuel - 2, by omega⟩
    have here := readValue_write v hv n (by omega)
    have read := readMembers_write ms later n (by omega) k v here rest
    rw [List.cons_append, List.append_assoc, List.cons_append, List.append_assoc,
      readValue_brace ((opens_writeText k).append _), read]
    rfl

theorem readItems_write : (vs : List Json) → (∀ w ∈ vs, w.Integral) → ∀ fuel,
    (writeItems vs).length ≤ fuel → ∀ v, ReadsBack fuel v → ∀ rest,
      readItems (fuel + 1) (write v ++ (writeItems vs ++ rest)) = .ok (v :: vs, rest)
  | [], _, fuel, _, v, back, rest => by
    rw [readItems, back _ (isFollowing_writeItems [] rest)]
    rfl
  | w :: ws, h, fuel, enough, v, back, rest => by
    obtain ⟨hw, later⟩ := List.forall_mem_cons.1 h
    have behind := length_writeItems_pos ws
    have following := isFollowing_writeItems (w :: ws) rest
    rw [writeItems_cons] at enough following ⊢
    rw [List.length_cons, List.length_append] at enough
    obtain ⟨n, rfl⟩ := Nat.exists_eq_add_one.2 (Nat.lt_of_lt_of_le (Nat.zero_lt_succ _) enough)
    have read := readItems_write ws later n (by omega) w (readValue_write w hw n (by omega)) rest
    rw [readItems, back _ following, List.cons_append, List.append_assoc]
    have comma : ∀ s, skipSpace (.char ',' :: s) = .char ',' :: s := fun _ => rfl
    simp only [comma, read]
    rfl

theorem readMembers_write : (ms : Members) → (∀ m ∈ ms, m.2.Integral) → ∀ fuel,
    (writeMembers ms).length ≤ fuel → ∀ k v, ReadsBack fuel v → ∀ rest,
      readMembers (fuel + 1) (writeText k ++ .char ':' :: (write v ++ (writeMembers ms ++ rest))) =
        .ok ((k, v) :: ms, rest)
  | [], _, fuel, _, k, v, back, rest => by
    rw [readMembers, (opens_writeText k |>.append _).skipSpace_eq, readKey_writeText]
    simp only [back _ (isFollowing_writeMembers [] rest)]
    rfl
  | (j, w) :: ms, h, fuel, enough, k, v, back, rest => by
    obtain ⟨hw, later⟩ := List.forall_mem_cons.1 h
    have behind := length_writeMembers_pos ms
    have following := isFollowing_writeMembers ((j, w) :: ms) rest
    rw [writeMembers_cons] at enough following ⊢
    simp only [List.length_cons, List.length_append] at enough
    obtain ⟨n, rfl⟩ := Nat.exists_eq_add_one.2 (Nat.lt_of_lt_of_le (Nat.zero_lt_succ _) enough)
    have there := readValue_write w hw n (by omega)
    have read := readMembers_write ms later n (by omega) j w there rest
    rw [readMembers, (opens_writeText k |>.append _).skipSpace_eq, readKey_writeText]
    have comma : ∀ s, skipSpace (.char ',' :: s) = .char ',' :: s := fun _ => rfl
    simp only [List.cons_append, List.append_assoc] at following ⊢
    simp only [back _ following, comma, read]
    rfl

end

/-! ## Whole texts -/

theorem dedupMembers_of_new {kept ms : Members} (nodup : (Members.keys (kept ++ ms)).Nodup)
    (same : ∀ m ∈ ms, dedup m.2 = m.2) : dedupMembers kept ms = kept ++ ms := by
  induction ms generalizing kept with
  | nil => rw [dedupMembers, List.append_nil]
  | cons m ms ih =>
    obtain ⟨k, v⟩ := m
    obtain ⟨here, later⟩ := List.forall_mem_cons.1 same
    have moved : kept ++ (k, v) :: ms = (kept ++ [(k, v)]) ++ ms := by simp
    have absent : k ∉ Members.keys kept := by
      intro mem
      rw [Members.keys, List.map_append, List.nodup_append] at nodup
      exact nodup.2.2 k mem k List.mem_cons_self rfl
    rw [moved] at nodup ⊢
    rw [dedupMembers, here, Members.set_of_new absent, ih nodup later]

mutual

/-- Where no key is repeated, nothing is dropped. -/
theorem dedup_of_wellKeyed : (v : Json) → v.WellKeyed → dedup v = v
  | .atom a, _ => by rw [dedup]
  | .array xs, h => by rw [dedup, dedupItems_of_wellKeyed xs h.items]
  | .object ms, h => by
    have nodup : (Members.keys ([] ++ ms)).Nodup := h.nodup_keys
    rw [dedup, dedupMembers_of_new nodup (dedup_members ms h.members)]
    rfl

theorem dedupItems_of_wellKeyed : (xs : List Json) → (∀ v ∈ xs, v.WellKeyed) → dedupItems xs = xs
  | [], _ => by rw [dedupItems]
  | v :: vs, h => by
    obtain ⟨hv, later⟩ := List.forall_mem_cons.1 h
    rw [dedupItems, dedup_of_wellKeyed v hv, dedupItems_of_wellKeyed vs later]

theorem dedup_members : (ms : Members) → (∀ m ∈ ms, m.2.WellKeyed) → ∀ m ∈ ms, dedup m.2 = m.2
  | [], _ => fun _ mem => nomatch mem
  | (k, v) :: ms, h => by
    obtain ⟨hv, later⟩ := List.forall_mem_cons.1 h
    exact List.forall_mem_cons.2 ⟨dedup_of_wellKeyed v hv, dedup_members ms later⟩

end

/-- Reading the text of a value gives the value, the order of its keys included. -/
theorem read_write {v : Json} (wellKeyed : v.WellKeyed) (h : v.Integral) :
    read (write v) = .ok v := by
  have back := readValue_write v h (2 * (write v).length + 2) (by omega) [] rfl
  rw [List.append_nil] at back
  rw [read, back]
  simp only [dedup_of_wellKeyed v wellKeyed]
  rfl

theorem write_injective {v w : Json} (hv : v.WellKeyed) (hw : w.WellKeyed) (iv : v.Integral)
    (iw : w.Integral) (h : write v = write w) : v = w := by
  have read := read_write hv iv
  rw [h, read_write hw iw] at read
  exact (Except.ok.inj read).symm

theorem isWritable_of_integral {v : Json} (h : v.Integral) : v.isWritable = true := by
  induction h with
  | @atom a integral => cases a <;> first | rfl | exact integral
  | array _ ih => exact isWritable_array.2 ih
  | object _ ih => exact isWritable_object.2 ih

end Json
end Intake
