import Mathlib.Data.List.Basic
import Intake.Path
import Intake.Proofs.Json.RoundTrip
import Intake.Proofs.Query.Parsing
import Intake.Proofs.Sequence
import Intake.Proofs.Values.Digits

set_option autoImplicit false

/-!
# Keys that are written in queries

Behind a dot a query names a field by one token: by a word, an integer, a name in quotes or the star
for all fields (`Form`). A key that is written as it stands is read as itself if it is plain, which
is a word that is not reserved or an integer behind which no fraction follows (`reads_of_isPlain`),
and no other key but the star is (`isPlain_of_reads`).
-/

namespace Intake.Query

/-! ## Tokens of a text -/

/-- The tokens of a text, wherever in a query it stands. -/
def Scans (cs : Text) (ts : List Token) : Prop :=
  ∃ fuel place, cs.length ≤ fuel ∧ (Lexeme.scanFrom fuel place cs).map Lexeme.token = ts

theorem scans_scan (s : Text) : Scans s ((Lexeme.scan s).map Lexeme.token) :=
  ⟨s.length, .start, Nat.le_refl _, rfl⟩

theorem Scans.eq_nil {ts : List Token} (h : Scans [] ts) : ts = [] := by
  obtain ⟨fuel, place, _, rfl⟩ := h
  cases fuel <;> rfl

/-- The first token of a text comes before those of what it leaves. -/
theorem Scans.cons {c : CodePoint} {cs rest : Text} {t : Token} {ts : List Token}
    (h : Scans (c :: cs) ts) (solid : Text.isBlank c = false)
    (next : Token.next (c :: cs) = (t, rest)) :
    ∃ more, ts = t :: more ∧
      (Lexeme.endsScan t = false → rest.length ≤ cs.length → Scans rest more) := by
  obtain ⟨fuel, place, enough, rfl⟩ := h
  cases fuel with
  | zero => cases enough
  | succ fuel =>
    have ne : ∀ d : CodePoint, Text.isBlank d = true → c ≠ d := by
      rintro d blank rfl
      rw [solid] at blank
      cases blank
    simp only [Lexeme.scanFrom, next, ne ' ' (by decide), ne '\t' (by decide),
      ne '\n' (by decide), decide_false, Bool.false_and, Bool.or_false, Bool.false_eq_true,
      if_false, List.map_cons]
    refine ⟨_, rfl, fun goesOn shorter => ?_⟩
    rw [goesOn]
    exact ⟨fuel, _, Nat.le_trans shorter (Nat.le_of_succ_le_succ enough), rfl⟩

namespace Token

theorem order?_eq_none {c : CodePoint} (solid : Text.isBlank c = false) (comma : c ≠ ',')
    (slash : c ≠ '/') (backslash : c ≠ '\\') (cs : Text) : order? (c :: cs) = none := by
  have kept : (c :: cs).dropWhile Text.isBlank = c :: cs := by simp [solid]
  unfold order?
  rw [List.head?_cons, if_neg (by simpa using comma), kept]
  split
  · next eq => exact absurd (List.cons.inj eq).1 slash
  · next eq => exact absurd (List.cons.inj eq).1 backslash
  · rfl

/-- The field that a token stands for behind a dot. -/
def field? : Token → Option Text
  | .name s => some s
  | .star => some "*"
  | .int n => some (Numeral.ofInt n)
  | _ => none

theorem endsScan_of_field? {t : Token} {s : Text} (h : t.field? = some s) :
    Lexeme.endsScan t = false := by
  unfold field? at h
  split at h <;> first | rfl | cases h

/-- A token that goes on with a route. -/
def joins : Token → Bool
  | .dot | .descent | .openBracket => true
  | _ => false

end Token

theorem afterDot_of_field? {t : Token} {s : Text} (h : t.field? = some s) (ts : List Token) :
    afterDot (t :: ts) = .ok (.fields [s], ts) := by
  unfold Token.field? at h
  split at h <;> cases h <;> rfl

theorem unexpected_eq_error {α : Type} (ts : List Token) :
    ∃ e, (unexpected ts : Parsed α) = .error e := by
  unfold unexpected
  split <;> exact ⟨_, rfl⟩

theorem afterDot_of_field?_eq_none {t : Token} (h : t.field? = none) (joins : t.joins = false)
    (ts : List Token) : ∃ e, afterDot (t :: ts) = .error e := by
  unfold afterDot
  split
  · next eq =>
    cases eq
    cases h
  · next eq =>
    cases eq
    cases h
  · next eq =>
    cases eq
    cases h
  · next eq =>
    cases eq
    cases joins
  · exact unexpected_eq_error (t :: ts)

/-! ## Words and integers -/

namespace Token

inductive IsWord : Text → Prop where
  | plain {c : CodePoint} {cs : Text} : isNameStart c = true → (∀ d ∈ cs, isNameChar d = true) →
      IsWord (c :: cs)
  | marked {c : CodePoint} {cs : Text} : isNameStart c = true → (∀ d ∈ cs, isNameChar d = true) →
      IsWord ('@' :: c :: cs)

def reserved : List Text := ["true", "false", "where", "wherenot"]

/-- A word stands for the field of its name unless it is reserved. -/
theorem ofWord_cases (w : Text) :
    (w ∉ reserved ∧ ofWord w = .name w) ∨ (w ∈ reserved ∧ (ofWord w).field? = none) := by
  unfold ofWord
  split
  · next eq => exact .inr ⟨eq ▸ by decide, rfl⟩
  · split
    · next eq => exact .inr ⟨eq ▸ by decide, rfl⟩
    · split
      · next eq => exact .inr ⟨eq ▸ by decide, rfl⟩
      · split
        · next eq => exact .inr ⟨eq ▸ by decide, rfl⟩
        · exact .inl ⟨by simp [reserved, *], rfl⟩

theorem ofWord_of_notMem {w : Text} (h : w ∉ reserved) : ofWord w = .name w :=
  (ofWord_cases w).elim And.right fun mem => absurd mem.1 h

theorem of_field?_ofWord {w s : Text} (h : (ofWord w).field? = some s) : w ∉ reserved ∧ s = w := by
  rcases ofWord_cases w with ⟨free, eq⟩ | ⟨_, none⟩
  · rw [eq] at h
    cases h
    exact ⟨free, rfl⟩
  · rw [none] at h
    cases h

/-- A point and a digit, with which an integer goes on as a fraction. -/
def opensFraction : Text → Bool
  | '.' :: c :: _ => (Text.digitValue? c).isSome
  | _ => false

theorem digitValues_eq_nil_iff {cs : Text} :
    digitValues cs = [] ↔ ∀ c ∈ cs.head?, (Text.digitValue? c).isSome = false := by
  cases cs with
  | nil => simp [digitValues]
  | cons c cs => cases value : Text.digitValue? c <;> simp [digitValues, value]

/-- The digits behind a point. -/
def fractionOf : Text → List Nat
  | '.' :: more => digitValues more
  | _ => []

theorem fractionOf_eq_nil_iff {rest : Text} :
    fractionOf rest = [] ↔ opensFraction rest = false := by
  unfold fractionOf
  split
  · next more =>
    rw [digitValues_eq_nil_iff]
    cases more with
    | nil => simp [opensFraction]
    | cons c more => simp [opensFraction]
  · next other =>
    refine iff_of_true rfl ?_
    unfold opensFraction
    split
    · exact absurd rfl (other _)
    · rfl

theorem number?_eq (negative : Bool) (cs : Text) :
    number? negative cs =
      if digitValues cs = [] then none
      else if fractionOf (dropDigits cs) = [] then
        if (digitValues cs).length ≤ Numeral.digitLimit then
          some (.int (Numeral.signed negative (numberOf (digitValues cs))), dropDigits cs)
        else some (.tooLong, dropDigits cs)
      else
        some (.double (Double.ofDecimal negative
            (numberOf (digitValues cs ++ fractionOf (dropDigits cs)))
            (-(fractionOf (dropDigits cs)).length)), dropDigits ((dropDigits cs).drop 1)) := rfl

section Digits

variable {tail : Text} (stops : ∀ c ∈ tail.head?, (Text.digitValue? c).isSome = false)

theorem digitValue?_digitChar {n : Nat} (h : n < 10) :
    Text.digitValue? (.char (Nat.digitChar n)) = some n := by
  have all : ∀ i : Fin 10, Text.digitValue? (.char (Nat.digitChar i)) = some i.val := by decide
  exact all ⟨n, h⟩

theorem isSome_digitValue?_of_mem_digits {m : Nat} {c : CodePoint} (h : c ∈ Numeral.digits m) :
    (Text.digitValue? c).isSome = true := by
  obtain ⟨n, small, rfl⟩ := CodePoint.exists_eq_digitChar (Numeral.isDigit_of_mem_digits h)
  rw [digitValue?_digitChar small]
  rfl

include stops

theorem takeWhile_of_stops :
    (tail.takeWhile fun c => (Text.digitValue? c).isSome) = [] ∧
      (tail.dropWhile fun c => (Text.digitValue? c).isSome) = tail := by
  cases tail with
  | nil => exact ⟨rfl, rfl⟩
  | cons c cs => simp [stops c rfl]

theorem dropDigits_digits (m : Nat) : dropDigits (Numeral.digits m ++ tail) = tail := by
  rw [dropDigits, List.dropWhile_append_of_pos fun c => isSome_digitValue?_of_mem_digits]
  exact (takeWhile_of_stops stops).2

/-- The digits of a number make the number. -/
theorem digitValues_digits (m : Nat) :
    numberOf (digitValues (Numeral.digits m ++ tail)) = m ∧
      (digitValues (Numeral.digits m ++ tail)).length = (Numeral.digits m).length := by
  have digits : ∀ c ∈ Numeral.digits m, c.isDigit = true := fun c => Numeral.isDigit_of_mem_digits
  obtain ⟨ns, small, eq⟩ := Numeral.exists_eq_digitChars digits
  have values : digitValues (Numeral.digits m ++ tail) = ns := by
    rw [digitValues, List.takeWhile_append_of_pos fun c => isSome_digitValue?_of_mem_digits,
      (takeWhile_of_stops stops).1, List.append_nil, eq, List.filterMap_map]
    exact (List.filterMap_congr fun n mem => digitValue?_digitChar (small n mem)).trans
      List.filterMap_some
  have number : Numeral.value (Numeral.digits m) = numberOf ns := by
    rw [eq, Numeral.value_digitChars ns small]
    rfl
  rw [values]
  exact ⟨number.symm.trans (Numeral.value_digits m), by rw [eq, List.length_map]⟩

/-- The digits of a number are read as an integer unless they are too many or a fraction follows. -/
theorem number?_digits_eq_int_iff {negative : Bool} {m : Nat} {n : Int} {rest : Text} :
    number? negative (Numeral.digits m ++ tail) = some (.int n, rest) ↔
      opensFraction tail = false ∧ (Numeral.digits m).length ≤ Numeral.digitLimit ∧
        n = Numeral.signed negative m ∧ rest = tail := by
  obtain ⟨value, length⟩ := digitValues_digits stops m
  have some : digitValues (Numeral.digits m ++ tail) ≠ [] := by
    intro none
    rw [none] at length
    exact Numeral.digits_ne_nil m (List.eq_nil_of_length_eq_zero length.symm)
  rw [number?_eq, dropDigits_digits stops, if_neg some, value, length, ← fractionOf_eq_nil_iff]
  by_cases whole : fractionOf tail = []
  · by_cases few : (Numeral.digits m).length ≤ Numeral.digitLimit
    · simp [whole, few, eq_comm]
    · simp [whole, few]
  · simp [whole]

end Digits

/-! ## Fields -/

/-- A text starts with a token that stands for a field, and leaves a rest. -/
def Reads (cs s rest : Text) : Prop := ∃ t, next cs = (t, rest) ∧ t.field? = some s

/-- The forms in which a field is named at the start of a text. -/
inductive Form : Text → Text → Text → Prop where
  | star {rest : Text} : Form ('*' :: rest) "*" rest
  | positive {cs rest : Text} {n : Int} : number? false cs = some (.int n, rest) →
      Form cs (Numeral.ofInt n) rest
  | negative {cs rest : Text} {n : Int} : number? true cs = some (.int n, rest) →
      Form ('-' :: cs) (Numeral.ofInt n) rest
  | quoted {quote : CodePoint} {cs s rest : Text} : quote = '\'' ∨ quote = '"' →
      quotedName quote cs = .ok (s, rest) → Form (quote :: cs) s rest
  | word {w rest : Text} : IsWord w → w ∉ reserved → Form (w ++ rest) w rest

theorem exists_of_getD_number? {negative : Bool} {cs rest s : Text} {other : Token × Text}
    {t : Token} (h : (number? negative cs).getD other = (t, rest)) (field : t.field? = some s)
    (noField : other.1.field? = none) :
    ∃ n, number? negative cs = some (.int n, rest) ∧ s = Numeral.ofInt n := by
  cases found : number? negative cs with
  | none =>
    rw [found] at h
    rw [Option.getD_none] at h
    rw [h, field] at noField
    cases noField
  | some out =>
    rw [found, Option.getD_some] at h
    subst h
    have integer : ∃ n, t = .int n := by
      rw [number?_eq] at found
      split at found
      · cases found
      · split at found
        · split at found <;> cases found
          · exact ⟨_, rfl⟩
          · cases field
        · cases found
          cases field
    obtain ⟨n, rfl⟩ := integer
    cases field
    exact ⟨n, rfl, rfl⟩

theorem exists_of_ofQuoted {quote : CodePoint} {ofName : Text → Token} {cs rest s : Text}
    {t : Token} (h : ofQuoted quote ofName cs = (t, rest)) (field : t.field? = some s) :
    ∃ r, quotedName quote cs = .ok (r, rest) ∧ t = ofName r := by
  unfold ofQuoted at h
  split at h
  · next r after eq =>
    cases h
    exact ⟨r, eq, rfl⟩
  · cases h
    cases field

theorem form_of_ofText {cs rest s : Text} {t : Token} (h : ofText cs = (t, rest))
    (field : t.field? = some s) : Form cs s rest := by
  have shape := fun cs => List.takeWhile_append_dropWhile (p := isNameChar) (l := cs)
  have inWord : ∀ cs : Text, ∀ d ∈ cs.takeWhile isNameChar, isNameChar d = true :=
    fun cs => List.all_eq_true.1 List.all_takeWhile
  unfold ofText at h
  split at h
  -- Most tokens stand for no field.
  all_goals first
    | (cases h; cases field; done)
    | skip
  case h_10 =>
    cases h
    cases field
    exact .star
  case h_22 =>
    obtain ⟨n, found, rfl⟩ := exists_of_getD_number? h field rfl
    exact .negative found
  case h_26 =>
    obtain ⟨r, found, rfl⟩ := exists_of_ofQuoted h field
    cases field
    exact .quoted (.inl rfl) found
  case h_27 =>
    obtain ⟨r, found, rfl⟩ := exists_of_ofQuoted h field
    cases field
    exact .quoted (.inr rfl) found
  case h_28 =>
    obtain ⟨r, found, rfl⟩ := exists_of_ofQuoted h field
    cases field
  case h_29 c cs =>
    split at h <;> cases h
    · next start =>
      obtain ⟨free, rfl⟩ := of_field?_ofWord field
      have form : Form _ _ (cs.dropWhile isNameChar) := .word (.marked start (inWord cs)) free
      rwa [List.cons_append, List.cons_append, shape] at form
    · cases field
  case h_31 c cs _ _ _ _ _ _ _ _ _ _ _ _ _ _ _ _ _ _ _ _ _ _ _ _ _ _ _ _ _ _ =>
    split at h
    · next start =>
      cases h
      obtain ⟨free, rfl⟩ := of_field?_ofWord field
      have form : Form _ _ (cs.dropWhile isNameChar) := .word (.plain start (inWord cs)) free
      rwa [List.cons_append, shape] at form
    · obtain ⟨n, found, rfl⟩ := exists_of_getD_number? h field rfl
      exact .positive found

theorem Reads.form {cs s rest : Text} (h : Reads cs s rest) : Form cs s rest := by
  obtain ⟨t, eq, field⟩ := h
  unfold next at eq
  cases ordered : order? cs with
  | none =>
    rw [ordered] at eq
    exact form_of_ofText eq field
  | some out =>
    rw [ordered] at eq
    subst eq
    unfold order? at ordered
    split at ordered <;> cases ordered <;> cases field

theorem joins_getD_number? {negative : Bool} {cs : Text} {other : Token × Text}
    (h : other.1.joins = false) : ((number? negative cs).getD other).1.joins = false := by
  rw [number?_eq]
  split
  · exact h
  · split
    · split <;> rfl
    · rfl

theorem joins_ofQuoted (quote : CodePoint) {ofName : Text → Token}
    (h : ∀ s, (ofName s).joins = false) (cs : Text) :
    (ofQuoted quote ofName cs).1.joins = false := by
  unfold ofQuoted
  split
  · exact h _
  · rfl

theorem joins_ofWord (w : Text) : (ofWord w).joins = false := by
  unfold ofWord
  repeat' split
  all_goals rfl

theorem joins_ofText {cs : Text} (h : ∀ c ∈ cs.head?, c ≠ '.' ∧ c ≠ '[') :
    (ofText cs).1.joins = false := by
  unfold ofText
  split
  all_goals first
    | rfl
    | exact joins_getD_number? rfl
    | exact joins_ofQuoted _ (fun _ => rfl) _
    | exact absurd rfl (h _ rfl).1
    | exact absurd rfl (h _ rfl).2
    | skip
  -- What is left are words.
  · split
    · exact joins_ofWord ('@' :: _)
    · rfl
  · split
    · exact joins_ofWord _
    · exact joins_getD_number? rfl

/-- Only a point or an opening bracket starts a token that goes on with a route. -/
theorem joins_next {cs : Text} (h : ∀ c ∈ cs.head?, c ≠ '.' ∧ c ≠ '[') :
    (next cs).1.joins = false := by
  unfold next order?
  split
  · rfl
  · rfl
  · exact joins_ofText h

/-! ## Keys -/

/-- A key as a written address has it. -/
structure IsKey (k : Text) : Prop where
  ne_nil : k ≠ []
  allowed : ∀ c ∈ k, Segment.isKeyChar c = true

/-- With this the key of a segment ends: with a point, an opening bracket or the end of the text. -/
def EndsKey (tail : Text) : Prop := ∀ c ∈ tail.head?, c = '.' ∨ c = '['

def IsInteger (k : Text) : Prop := ∃ n, Numeral.isWritable n = true ∧ k = Numeral.ofInt n

/-- A key that may be written as it is. -/
def IsPlain (k : Text) : Prop := (IsWord k ∧ k ∉ reserved) ∨ IsInteger k

theorem EndsKey.stops {tail : Text} (h : EndsKey tail) :
    ∀ c ∈ tail.head?, (Text.digitValue? c).isSome = false := by
  intro c first
  rcases h c first with rfl | rfl <;> decide

theorem EndsKey.takeWhile_dropWhile {tail : Text} (h : EndsKey tail) {cs : Text}
    (name : ∀ d ∈ cs, isNameChar d = true) :
    (cs ++ tail).takeWhile isNameChar = cs ∧ (cs ++ tail).dropWhile isNameChar = tail := by
  rw [List.takeWhile_append_of_pos name, List.dropWhile_append_of_pos name]
  cases tail with
  | nil => exact ⟨List.append_nil cs, rfl⟩
  | cons c more =>
    have stops : isNameChar c = false := by
      rcases h c rfl with rfl | rfl <;> decide
    simp [stops]

theorem toNat_of_isAlphanum {d : Char} (h : d.isAlphanum = true) :
    48 ≤ d.toNat ∧ d.toNat ≤ 57 ∨ 65 ≤ d.toNat ∧ d.toNat ≤ 90 ∨ 97 ≤ d.toNat ∧ d.toNat ≤ 122 := by
  rcases Bool.or_eq_true_iff.1 h with letter | digit
  · rcases Bool.or_eq_true_iff.1 letter with upper | lower
    · exact .inr (.inl (of_decide_eq_true upper))
    · obtain ⟨low, high⟩ := Bool.and_eq_true_iff.1 lower
      exact .inr (.inr ⟨of_decide_eq_true low, of_decide_eq_true high⟩)
  · obtain ⟨low, high⟩ := Bool.and_eq_true_iff.1 digit
    exact .inl ⟨of_decide_eq_true low, of_decide_eq_true high⟩

theorem isBlank_of_isAlphanum {c : CodePoint} (h : c.isAlphanum = true) :
    Text.isBlank c = false := by
  cases c with
  | surrogate i => cases h
  | char d =>
    have range := toNat_of_isAlphanum h
    have outside : ∀ r ∈ Text.blankRanges, r.2 ≤ 0x20 ∨ 0x85 ≤ r.1 := by decide
    refine Bool.eq_false_iff.2 fun blank => ?_
    simp only [Text.isBlank, CodePoint.isIn, List.any_eq_true, Bool.and_eq_true,
      decide_eq_true_eq] at blank
    obtain ⟨r, mem, low, high⟩ := blank
    simp only [CodePoint.toNat] at low high
    have := outside r mem
    omega

/-- The signs that a token may start with. -/
def signs : Text :=
  ['*', '[', ']', '(', ')', '$', ',', ':', '&', '?', '+', '|', '~', '.', '<', '>', '!', '=', '-',
    '\'', '"', '\x60', '@']

/-- No sign starts a word or a number without a minus. -/
theorem ofText_of_notMem {c : CodePoint} (h : c ∉ signs) (cs : Text) :
    ofText (c :: cs) =
      if isNameStart c then (ofWord (c :: cs.takeWhile isNameChar), cs.dropWhile isNameChar)
      else (number? false (c :: cs)).getD (.unreadable (.character c), c :: cs) := by
  unfold ofText
  split
  case h_31 =>
    next eq =>
      cases eq
      rfl
  all_goals
    rename_i eq
    first
      | exact absurd ((List.cons.inj eq).1 ▸ h) (by decide)
      | cases eq

/-- A letter, a digit or a low line starts a word or a number. -/
theorem next_of_isAlphanum {c : CodePoint} (h : c.isAlphanum = true ∨ c = '_') (cs : Text) :
    next (c :: cs) =
      if isNameStart c then (ofWord (c :: cs.takeWhile isNameChar), cs.dropWhile isNameChar)
      else (number? false (c :: cs)).getD (.unreadable (.character c), c :: cs) := by
  have ne : ∀ d : CodePoint, d.isAlphanum = false ∧ d ≠ '_' → c ≠ d := by
    rintro d ⟨other, noLine⟩ rfl
    rcases h with letter | line
    · rw [other] at letter
      cases letter
    · exact noLine line
  have solid : Text.isBlank c = false := by
    rcases h with letter | rfl
    · exact isBlank_of_isAlphanum letter
    · decide
  have noSign : c ∉ signs := by
    have others : ∀ d ∈ signs, d.isAlphanum = false ∧ d ≠ '_' := by decide
    exact fun mem => ne c (others c mem) rfl
  rw [next, order?_eq_none solid (ne ',' (by decide)) (ne '/' (by decide)) (ne '\\' (by decide)),
    Option.getD_none, ofText_of_notMem noSign]

theorem isAlphanum_of_isNameStart {c : CodePoint} (h : isNameStart c = true) :
    c.isAlphanum = true ∨ c = '_' := by
  unfold isNameStart at h
  rcases Bool.or_eq_true_iff.1 h with letter | line
  · cases c with
    | char d => exact .inl (Bool.or_eq_true_iff.2 (.inl letter))
    | surrogate i => cases letter
  · exact .inr (of_decide_eq_true line)

theorem isAlphanum_of_isDigit {c : CodePoint} (h : c.isDigit = true) : c.isAlphanum = true := by
  cases c with
  | char d => exact Bool.or_eq_true_iff.2 (.inr h)
  | surrogate i => cases h

theorem isNameStart_of_isDigit {c : CodePoint} (h : c.isDigit = true) : isNameStart c = false := by
  obtain ⟨n, small, rfl⟩ := CodePoint.exists_eq_digitChar h
  have all : ∀ i : Fin 10, isNameStart (.char (Nat.digitChar i)) = false := by decide
  exact all ⟨n, small⟩

/-- The digits of a number that go on neither with a digit nor as a fraction. -/
theorem next_digits {m : Nat} {tail : Text}
    (stops : ∀ c ∈ tail.head?, (Text.digitValue? c).isSome = false)
    (whole : opensFraction tail = false) (few : (Numeral.digits m).length ≤ Numeral.digitLimit) :
    next (Numeral.digits m ++ tail) = (.int m, tail) := by
  have found : number? false (Numeral.digits m ++ tail) = some (.int m, tail) :=
    (number?_digits_eq_int_iff stops).2 ⟨whole, few, rfl, rfl⟩
  obtain ⟨c, more, eq, digit⟩ := Numeral.exists_digits_eq_digit_cons m
  rw [eq, List.cons_append] at found ⊢
  rw [next_of_isAlphanum (.inl (isAlphanum_of_isDigit digit)),
    if_neg (Bool.eq_false_iff.1 (isNameStart_of_isDigit digit)), found]
  rfl

section Key

variable {k tail : Text} (ends : EndsKey tail)

include ends

theorem reads_of_isWord (word : IsWord k) (free : k ∉ reserved) : Reads (k ++ tail) k tail := by
  cases word with
  | @plain c cs start name =>
    obtain ⟨taken, left⟩ := ends.takeWhile_dropWhile name
    refine ⟨.name (c :: cs), ?_, rfl⟩
    rw [List.cons_append, next_of_isAlphanum (isAlphanum_of_isNameStart start), if_pos start, taken,
      left, ofWord_of_notMem free]
  | @marked c cs start name =>
    obtain ⟨taken, left⟩ := ends.takeWhile_dropWhile name
    refine ⟨.name ('@' :: c :: cs), ?_, rfl⟩
    have noOrder : order? ('@' :: c :: (cs ++ tail)) = none :=
      order?_eq_none (by decide) (by decide) (by decide) (by decide) _
    rw [List.cons_append, List.cons_append, next, noOrder, Option.getD_none, ofText, if_pos start,
      taken, left, ofWord_of_notMem free]

theorem reads_of_isInteger (integer : IsInteger k) (whole : opensFraction tail = false) :
    Reads (k ++ tail) k tail := by
  obtain ⟨n, writable, rfl⟩ := integer
  have few : (Numeral.digits n.natAbs).length ≤ Numeral.digitLimit := by
    simpa [Numeral.isWritable] using writable
  refine ⟨.int n, ?_, rfl⟩
  rcases Json.ofInt_eq n with ⟨written, value⟩ | ⟨written, value⟩
  · have found := (number?_digits_eq_int_iff ends.stops).2 ⟨whole, few, value.symm, rfl⟩
    have noOrder : order? ('-' :: (Numeral.digits n.natAbs ++ tail)) = none :=
      order?_eq_none (by decide) (by decide) (by decide) (by decide) _
    rw [written, List.cons_append, next, noOrder, Option.getD_none, ofText, found]
    rfl
  · rw [written, next_digits ends.stops whole few]
    exact congrArg (fun n => (Token.int n, tail)) value

/-- A plain key is read as itself, unless it is an integer that goes on as a fraction. -/
theorem reads_of_isPlain (plain : IsPlain k) (whole : IsInteger k → opensFraction tail = false) :
    Reads (k ++ tail) k tail :=
  plain.elim (fun h => reads_of_isWord ends h.1 h.2) fun h => reads_of_isInteger ends h (whole h)

end Key

/-! ## Keys that are read as themselves -/

theorem ofInt_ne_star (n : Int) : Numeral.ofInt n ≠ "*" := by
  obtain ⟨c, cs, eq, first⟩ := Numeral.exists_ofInt_eq_cons n
  rw [eq]
  intro same
  obtain ⟨rfl, _⟩ := List.cons.inj same
  revert first
  decide

theorem IsWord.exists_eq_cons {w : Text} (h : IsWord w) :
    ∃ c cs, w = c :: cs ∧ (c = '@' ∨ isNameStart c = true) := by
  cases h with
  | plain start _ => exact ⟨_, _, rfl, .inr start⟩
  | marked _ _ => exact ⟨_, _, rfl, .inl rfl⟩

theorem IsWord.ne_star {w : Text} (h : IsWord w) : w ≠ "*" := by
  obtain ⟨c, cs, rfl, first⟩ := h.exists_eq_cons
  intro same
  obtain ⟨rfl, _⟩ := List.cons.inj same
  revert first
  decide

theorem IsWord.not_isInteger {w : Text} (h : IsWord w) : ¬ IsInteger w := by
  rintro ⟨n, _, same⟩
  obtain ⟨c, cs, rfl, start⟩ := h.exists_eq_cons
  obtain ⟨d, ds, eq, first⟩ := Numeral.exists_ofInt_eq_cons n
  obtain ⟨rfl, _⟩ := List.cons.inj (same.trans eq)
  rcases first with rfl | digit
  · revert start
    decide
  · rcases start with rfl | start
    · cases digit
    · rw [isNameStart_of_isDigit digit] at start
      cases start

theorem IsPlain.ne_star {k : Text} (h : IsPlain k) : k ≠ "*" := by
  rcases h with ⟨word, _⟩ | ⟨n, _, rfl⟩
  · exact word.ne_star
  · exact ofInt_ne_star n

/-- A name in quotes closes within a key, and is shorter than it, or the name has in it what ends
the key. -/
def ClosesIn (a tail s rest : Text) : Prop :=
  (s.length < a.length ∧ ∃ more, more <:+ a ∧ rest = more ++ tail) ∨ ∃ c ∈ s, c = '.' ∨ c = '['

theorem ClosesIn.cons {a b tail s rest : Text} (h : ClosesIn a tail s rest) (c : CodePoint)
    (suffix : a <:+ b) (longer : a.length < b.length) : ClosesIn b tail (c :: s) rest := by
  rcases h with ⟨shorter, more, inside, eq⟩ | ⟨d, mem, behind⟩
  · refine .inl ⟨?_, more, inside.trans suffix, eq⟩
    rw [List.length_cons]
    omega
  · exact .inr ⟨d, List.mem_cons_of_mem c mem, behind⟩

theorem closesIn_of_quotedName {quote : CodePoint} {a tail s rest : Text}
    (mark : quote = '\'' ∨ quote = '"') (ends : EndsKey tail)
    (h : quotedName quote (a ++ tail) = .ok (s, rest)) : ClosesIn a tail s rest := by
  have ended : ∀ {c : CodePoint} {cs : Text}, tail = c :: cs → c = '.' ∨ c = '[' := by
    rintro c cs rfl
    exact ends c rfl
  generalize shape : a ++ tail = cs at h
  fun_induction quotedName quote cs generalizing a s with
  | case1 => cases h
  | case2 => cases h
  | case3 c cs _ ih =>
    -- The backslash and what it escapes may both stand in the key, or the key ends between them.
    obtain ⟨_, inner, eq⟩ := exists_of_map_ok h
    cases eq
    rcases a with _ | ⟨x, _ | ⟨y, a⟩⟩
    · exact absurd (ended shape) (by decide)
    · exact .inr ⟨c, List.mem_cons_self, ended (List.cons.inj shape).2⟩
    · refine (ih (List.cons.inj (List.cons.inj shape).2).2 inner).cons c ?_ ?_
      · exact (List.suffix_cons y a).trans (List.suffix_cons x _)
      · simp only [List.length_cons]
        omega
  | case4 cs _ =>
    cases h
    cases a with
    | nil =>
      rcases mark with rfl | rfl <;> exact absurd (ended shape) (by decide)
    | cons x a =>
      exact .inl ⟨Nat.zero_lt_succ _, a, List.suffix_cons x a, (List.cons.inj shape).2.symm⟩
  | case5 => cases h
  | case6 c cs _ _ _ ih =>
    obtain ⟨_, inner, eq⟩ := exists_of_map_ok h
    cases eq
    cases a with
    | nil => exact .inr ⟨c, List.mem_cons_self, ended shape⟩
    | cons x a =>
      exact (ih (List.cons.inj shape).2 inner).cons c (List.suffix_cons x a) (Nat.lt_succ_self _)

/-- An integer that is read from its own digits leaves what is behind them. -/
theorem of_number?_digits {negative : Bool} {n : Int} {tail rest : Text} (ends : EndsKey tail)
    (h : number? negative (Numeral.digits n.natAbs ++ tail) = some (.int n, rest)) :
    rest = tail ∧ IsPlain (Numeral.ofInt n) ∧ opensFraction tail = false := by
  obtain ⟨whole, few, _, left⟩ := (number?_digits_eq_int_iff ends.stops).1 h
  exact ⟨left, .inr ⟨n, decide_eq_true few, rfl⟩, whole⟩

theorem number?_minus (cs : Text) : number? false ('-' :: cs) = none := by
  have none : digitValues ('-' :: cs) = [] := digitValues_eq_nil_iff.2 fun c first => by
    cases first
    decide
  rw [number?_eq, if_pos none]

theorem of_form_of_isInteger {n : Int} {tail rest : Text} (ends : EndsKey tail)
    (h : number? false (Numeral.ofInt n ++ tail) = some (.int n, rest) ∨
      ∃ cs, Numeral.ofInt n ++ tail = CodePoint.char '-' :: cs ∧
        number? true cs = some (.int n, rest)) :
    rest = tail ∧ IsPlain (Numeral.ofInt n) ∧ opensFraction tail = false := by
  rcases Json.ofInt_eq n with ⟨written, _⟩ | ⟨written, _⟩
  · rw [written, List.cons_append] at h
    rcases h with found | ⟨cs, shape, found⟩
    · rw [number?_minus] at found
      cases found
    · cases shape
      exact of_number?_digits ends found
  · rcases h with found | ⟨cs, shape, _⟩
    · rw [written] at found
      exact of_number?_digits ends found
    · obtain ⟨c, more, eq, digit⟩ := Numeral.exists_digits_eq_digit_cons n.natAbs
      rw [written, eq] at shape
      cases shape
      cases digit

/-- A key that is read as the star leaves some of its last characters. -/
theorem suffix_of_reads_star {k tail rest : Text} (key : IsKey k) (ends : EndsKey tail)
    (h : Reads (k ++ tail) "*" rest) :
    ∃ more, more <:+ k ∧ more.length < k.length ∧ rest = more ++ tail := by
  obtain ⟨c, cs, rfl⟩ := List.exists_cons_of_ne_nil key.ne_nil
  have behind : ∀ {more : Text}, more <:+ cs → more <:+ c :: cs ∧ more.length < (c :: cs).length :=
    fun suffix => ⟨suffix.trans (List.suffix_cons c cs), Nat.lt_succ_of_le suffix.length_le⟩
  have form := h.form
  generalize shape : c :: cs ++ tail = text at form
  generalize star : ("*" : Text) = s at form
  cases form with
  | star =>
    obtain ⟨suffix, shorter⟩ := behind (List.suffix_refl cs)
    exact ⟨cs, suffix, shorter, (List.cons.inj shape).2.symm⟩
  | positive _ => exact absurd star.symm (ofInt_ne_star _)
  | negative _ => exact absurd star.symm (ofInt_ne_star _)
  | quoted mark found =>
    rw [← (List.cons.inj shape).2] at found
    rcases closesIn_of_quotedName mark ends found with ⟨_, more, suffix, eq⟩ | ⟨d, mem, point⟩
    · exact ⟨more, (behind suffix).1, (behind suffix).2, eq⟩
    · subst star
      obtain rfl := List.mem_singleton.1 mem
      exact absurd point (by decide)
  | word word _ => exact absurd star.symm word.ne_star

/-- A key that is read as itself is plain, and it is read to its end. -/
theorem isPlain_of_reads {k tail rest : Text} (key : IsKey k) (ends : EndsKey tail)
    (noStar : k ≠ "*") (h : Reads (k ++ tail) k rest) :
    rest = tail ∧ IsPlain k ∧ (IsInteger k → opensFraction tail = false) := by
  have form := h.form
  generalize shape : k ++ tail = text at form
  generalize same : k = s at form
  cases form with
  | star => exact absurd same noStar
  | positive found =>
    subst same shape
    obtain ⟨eq, plain, whole⟩ := of_form_of_isInteger ends (.inl found)
    exact ⟨eq, plain, fun _ => whole⟩
  | negative found =>
    subst same
    obtain ⟨eq, plain, whole⟩ := of_form_of_isInteger ends (.inr ⟨_, shape, found⟩)
    exact ⟨eq, plain, fun _ => whole⟩
  | quoted mark found =>
    -- What is in the quotes is shorter than the key, or has in it what no key has.
    obtain ⟨c, cs, rfl⟩ := List.exists_cons_of_ne_nil key.ne_nil
    rw [← (List.cons.inj shape).2, ← same] at found
    rcases closesIn_of_quotedName mark ends found with ⟨shorter, _⟩ | ⟨d, mem, point⟩
    · exact absurd (Nat.lt_succ_of_lt shorter) (Nat.lt_irrefl _)
    · have allowed := key.allowed d mem
      rcases point with rfl | rfl <;> exact absurd allowed (by decide)
  | word word free =>
    subst same
    refine ⟨(List.append_cancel_left shape).symm, .inl ⟨word, free⟩, fun integer => ?_⟩
    exact absurd integer word.not_isInteger

end Token
end Intake.Query
