import Mathlib.Data.List.Basic
import Mathlib.Data.List.TakeWhile
import Intake.CalendarDate
import Intake.Path
import Intake.Proofs.Sequence
import Intake.Proofs.Values.Amounts

set_option autoImplicit false

/-!
# Numerals that are too long

A reader of a text gives a value or refuses the text in terms of its own, unless the text has a run
of more digits than are ever converted. Where such a run makes a reader of numbers, of money or of
addresses stumble is said by the shape of the text.
-/

namespace Intake

/-- A run of digits that is too long to be converted. -/
def IsOverlong (ds : Text) : Prop := IsDigits ds ∧ Numeral.digitLimit < ds.length

theorem isOverlong_replicate {c : CodePoint} (digit : c.isDigit = true) {n : Nat}
    (long : Numeral.digitLimit < n) : IsOverlong (List.replicate n c) := by
  refine ⟨⟨fun empty => ?_, fun d mem => List.eq_of_mem_replicate mem ▸ digit⟩, ?_⟩
  · rw [List.replicate_eq_nil_iff] at empty
    rw [empty] at long
    cases long
  · rwa [List.length_replicate]

theorem Numeral.value?_eq_none_iff {ds : Text} : value? ds = none ↔ digitLimit < ds.length := by
  rw [value?, ite_eq_right_iff]
  simp

/-- What becomes of a text: the reader stumbles over its digits if `overlong` holds of it, as it
does of no short text, and otherwise gives a value or a fault of its own category. -/
def RefusesAs {α : Type} (own : Fault.Category) (overlong : Text → Prop)
    (read : Text → Except Fault α) (s : Text) : Prop :=
  (overlong s ∧ Numeral.digitLimit < s.length ∧ read s = .error .numeralTooLong) ∨
    (¬ overlong s ∧ ((∃ a, read s = .ok a) ∨ ∃ e, read s = .error e ∧ e.category = own))

theorem RefusesAs.of_error {α : Type} {own : Fault.Category} {overlong : Text → Prop}
    {read : Text → Except Fault α} {s : Text}
    (refused : ∀ {e}, read s = .error e → e.category = own ∨ (e = .numeralTooLong ∧ overlong s))
    (stumbles : overlong s → Numeral.digitLimit < s.length ∧ read s = .error .numeralTooLong) :
    RefusesAs own overlong read s := by
  by_cases long : overlong s
  · exact .inl ⟨long, stumbles long⟩
  · refine .inr ⟨long, ?_⟩
    cases result : read s with
    | ok a => exact .inl ⟨a, rfl⟩
    | error e => exact .inr ⟨e, rfl, (refused result).resolve_right fun h => long h.2⟩

theorem Text.strip_infix (s : Text) : strip s <:+: s := by
  have front : s.dropWhile isBlank <:+ s := List.dropWhile_suffix _
  have back : strip s <+: s.dropWhile isBlank := by
    rw [strip, trim, ← List.reverse_suffix, List.reverse_reverse]
    exact List.dropWhile_suffix _
  exact back.isInfix.trans front.isInfix

/-! ## Whole numbers -/

namespace Long

/-- A run of digits that is too long, behind at most one sign. -/
def IsOverlong (raw : Text) : Prop :=
  ∃ sign negative ds, Numeral.Sign sign negative ∧ Intake.IsOverlong ds ∧ raw = sign ++ ds

theorem parse_eq_error {raw : Text} {e : Fault} (h : parse raw = .error e) :
    e.category = .value ∨ (e = .numeralTooLong ∧ IsOverlong raw) := by
  obtain ⟨sign, signed, shape⟩ := Numeral.exists_sign raw
  unfold parse at h
  dsimp only at h
  split at h
  · cases h
    exact .inl rfl
  · next digits =>
    have digits : IsDigits (Numeral.splitSign raw).2 := by
      simpa [not_or, IsDigits] using digits
    split at h
    · next none =>
      cases h
      have long := Numeral.value?_eq_none_iff.1 none
      exact .inr ⟨rfl, sign, _, _, signed, ⟨digits, long⟩, shape⟩
    · split at h <;> cases h
      exact .inl rfl

theorem parse_of_isOverlong {raw : Text} (h : IsOverlong raw) :
    parse raw = .error .numeralTooLong := by
  obtain ⟨sign, negative, ds, signed, ⟨digits, long⟩, rfl⟩ := h
  have whole : ¬ (ds = [] ∨ (!ds.all CodePoint.isDigit) = true) := by
    simpa [not_or, IsDigits] using digits
  rw [parse, signed.splitSign_append digits]
  dsimp only
  rw [if_neg whole, Numeral.value?_eq_none_iff.2 long]

/-- Behind a sign, what the digits make decides. -/
theorem parse_of_signed {sign ds : Text} {negative : Bool} (signed : Numeral.Sign sign negative)
    (digits : IsDigits ds) (few : ds.length ≤ Numeral.digitLimit) :
    parse (sign ++ ds) =
      if Numeral.signed negative (Numeral.value ds) < min ∨
          max < Numeral.signed negative (Numeral.value ds)
      then .error (.longOutOfRange (sign ++ ds))
      else .ok (Numeral.signed negative (Numeral.value ds)) := by
  have whole : ¬ (ds = [] ∨ (!ds.all CodePoint.isDigit) = true) := by
    simpa [not_or, IsDigits] using digits
  simp only [parse, signed.splitSign_append digits, if_neg whole, Numeral.value?, if_pos few]

/-- What a text means is read from it, unless it is too long. -/
theorem parse_of_denotes {raw : Text} {n : Int} (h : Denotes raw n) (short : ¬ IsOverlong raw) :
    parse raw = .ok n := by
  obtain ⟨sign, negative, ds, signed, digits, rfl, rfl, lower, upper⟩ := h
  have few : ds.length ≤ Numeral.digitLimit := by
    by_contra long
    exact short ⟨sign, negative, ds, signed, ⟨digits, Nat.lt_of_not_le long⟩, rfl⟩
  rw [parse_of_signed signed digits few, if_neg]
  omega

/-- A text is not too long if it has not too many digits altogether. -/
theorem not_isOverlong_of_few {raw : Text}
    (few : (raw.filter CodePoint.isDigit).length ≤ Numeral.digitLimit) : ¬ IsOverlong raw := by
  rintro ⟨sign, _, ds, _, ⟨digits, long⟩, rfl⟩
  rw [List.filter_append, List.filter_eq_self.2 digits.2, List.length_append] at few
  omega

theorem IsOverlong.length {raw : Text} (h : IsOverlong raw) : Numeral.digitLimit < raw.length := by
  obtain ⟨sign, _, ds, _, ⟨_, long⟩, rfl⟩ := h
  rw [List.length_append]
  omega

theorem refusesAs (raw : Text) : RefusesAs .value IsOverlong parse raw :=
  .of_error parse_eq_error fun h => ⟨h.length, parse_of_isOverlong h⟩

end Long

/-! ## Money -/

namespace Currency

/-- Dollars with too many digits, with or without cents. Blanks around them mean nothing. -/
def IsOverlong (raw : Text) : Prop :=
  ∃ whole ds, Whole whole ds ∧ Numeral.digitLimit < ds.length ∧ (Text.strip raw = whole ∨
    ∃ a b, a.isDigit = true ∧ b.isDigit = true ∧ Text.strip raw = whole ++ [.char '.', a, b])

theorem isGroups_flatMap {groups : List Text} (h : ∀ g ∈ groups, IsDigits g ∧ g.length = 3) :
    isGroups (groups.flatMap (.char ',' :: ·)) = true := by
  induction groups with
  | nil => rfl
  | cons g groups ih =>
    obtain ⟨⟨digits, three⟩, later⟩ := List.forall_mem_cons.1 h
    obtain ⟨a, b, c, rfl⟩ := List.length_eq_three.1 three
    obtain ⟨ha, hb, hc⟩ : a.isDigit = true ∧ b.isDigit = true ∧ c.isDigit = true := by
      simpa using digits.2
    rw [List.flatMap_cons]
    show (a.isDigit && b.isDigit && c.isDigit && isGroups (groups.flatMap _)) = true
    rw [ha, hb, hc, ih later]
    rfl

theorem isWhole_of_whole {s ds : Text} (h : Whole s ds) : isWhole s = true := by
  cases h with
  | plain digits =>
    simp [isWhole, List.takeWhile_eq_self_iff.2 digits.2, List.dropWhile_eq_nil_iff.2 digits.2,
      digits.1]
  | @grouped lead groups digits few each =>
    have stops : ∀ rest : List Text,
        (rest.flatMap (CodePoint.char ',' :: ·)).takeWhile CodePoint.isDigit = [] ∧
        (rest.flatMap (CodePoint.char ',' :: ·)).dropWhile CodePoint.isDigit =
          rest.flatMap (CodePoint.char ',' :: ·) := by
      intro rest
      cases rest <;> exact ⟨rfl, rfl⟩
    simp [isWhole, List.takeWhile_append_of_pos digits.2, List.dropWhile_append_of_pos digits.2,
      (stops groups).1, (stops groups).2, digits.1, few, isGroups_flatMap each]

theorem Whole.splitCents?_eq {s ds : Text} (h : Whole s ds) : splitCents? s = some (s, []) := by
  simp only [splitCents?, List.takeWhile_eq_self_iff.2 h.ne_point,
    List.dropWhile_eq_nil_iff.2 h.ne_point]

theorem Whole.splitCents?_append {s ds : Text} {a b : CodePoint} (h : Whole s ds)
    (ha : a.isDigit = true) (hb : b.isDigit = true) :
    splitCents? (s ++ [.char '.', a, b]) = some (s, [a, b]) := by
  have point : ([.char '.', a, b] : Text).takeWhile (· ≠ .char '.') = [] ∧
      ([.char '.', a, b] : Text).dropWhile (· ≠ .char '.') = [.char '.', a, b] := ⟨rfl, rfl⟩
  simp only [splitCents?, List.takeWhile_append_of_pos h.ne_point,
    List.dropWhile_append_of_pos h.ne_point, point, List.append_nil, ha, hb]
  rfl

theorem parse_eq_error {raw : Text} {e : Fault} (h : parse raw = .error e) :
    e = .malformedCurrency raw ∨ (e = .numeralTooLong ∧ IsOverlong raw) := by
  unfold parse at h
  split at h
  · cases h
    exact .inl rfl
  · next whole fraction parts =>
    split at h
    · next accepted =>
      split at h <;> cases h
      next none =>
      refine .inr ⟨rfl, whole, _, whole_of_isWhole accepted, Numeral.value?_eq_none_iff.1 none, ?_⟩
      rcases splitCents?_eq_some parts with ⟨same, _⟩ | ⟨a, b, ha, hb, same, _⟩
      · exact .inl same
      · exact .inr ⟨a, b, ha, hb, same⟩
    · cases h
      exact .inl rfl

theorem parse_of_isOverlong {raw : Text} (h : IsOverlong raw) :
    parse raw = .error .numeralTooLong := by
  obtain ⟨whole, ds, written, long, shape⟩ := h
  obtain ⟨fraction, parts⟩ : ∃ fraction, splitCents? (Text.strip raw) = some (whole, fraction) := by
    rcases shape with same | ⟨a, b, ha, hb, same⟩
    · rw [same]
      exact ⟨_, written.splitCents?_eq⟩
    · rw [same]
      exact ⟨_, written.splitCents?_append ha hb⟩
  simp only [parse, parts, isWhole_of_whole written, if_true]
  rw [← written.eq_filter, Numeral.value?_eq_none_iff.2 long]

theorem IsOverlong.length {raw : Text} (h : IsOverlong raw) : Numeral.digitLimit < raw.length := by
  obtain ⟨whole, ds, written, long, shape⟩ := h
  have fewer : ds.length ≤ whole.length := written.eq_filter ▸ List.length_filter_le _ whole
  have stripped : whole.length ≤ (Text.strip raw).length := by
    rcases shape with same | ⟨a, b, _, _, same⟩
    · rw [same]
    · rw [same, List.length_append]
      exact Nat.le_add_right _ _
  have := (Text.strip_infix raw).length_le
  omega

theorem refusesAs (raw : Text) : RefusesAs .value IsOverlong parse raw :=
  .of_error (fun h => (parse_eq_error h).imp_left (congrArg Fault.category))
    fun h => ⟨h.length, parse_of_isOverlong h⟩

end Currency

/-! ## Dates -/

/-- A date has eight digits. -/
theorem CalendarDate.refusesAs (raw : Text) : RefusesAs .value (fun _ => False) parse raw := by
  refine .of_error (fun {e} h => .inl ?_) False.elim
  unfold parse at h
  split at h
  · split at h
    · dsimp only at h
      split at h
      · next small =>
        cases parts : ofParts _ _ _ small with
        | ok d =>
          rw [parts] at h
          cases h
        | error cause =>
          rw [parts] at h
          cases h
          rfl
      · cases h
        rfl
    · cases h
      rfl
  · cases h
    rfl

/-! ## Addresses -/

namespace Segment

/-- A field name before an index with too many digits. -/
def IsOverlong (text : Text) : Prop :=
  ∃ key ds, key ≠ [] ∧ (∀ c ∈ key, isKeyChar c = true) ∧ Intake.IsOverlong ds ∧
    text = key ++ ("[" ++ ds ++ "]")

theorem indexDigits?_eq_some_iff {rest ds : Text} :
    indexDigits? rest = some ds ↔ IsDigits ds ∧ rest = "[" ++ ds ++ "]" := by
  constructor
  · intro h
    unfold indexDigits? at h
    split at h
    · next cs =>
      have shape := List.takeWhile_append_dropWhile (p := CodePoint.isDigit) (l := cs)
      dsimp only at h
      split at h <;> cases h
      next parts =>
      rw [parts.2] at shape
      refine ⟨⟨parts.1, List.all_eq_true.1 List.all_takeWhile⟩, ?_⟩
      exact congrArg (CodePoint.char '[' :: ·) shape.symm
    · cases h
  · rintro ⟨digits, rfl⟩
    have stops : ("]" : Text).takeWhile CodePoint.isDigit = [] ∧
        ("]" : Text).dropWhile CodePoint.isDigit = "]" := ⟨rfl, rfl⟩
    show indexDigits? (CodePoint.char '[' :: (ds ++ "]")) = some ds
    simp only [indexDigits?, List.takeWhile_append_of_pos digits.2,
      List.dropWhile_append_of_pos digits.2, stops, List.append_nil]
    exact if_pos ⟨digits.1, rfl⟩

theorem parse_eq_error {text : Text} {e : Fault} (h : parse text = .error e) :
    e = .malformedSegment text ∨ (e = .numeralTooLong ∧ IsOverlong text) := by
  have shape := List.takeWhile_append_dropWhile (p := isKeyChar) (l := text)
  simp only [parse] at h
  split at h
  · cases h
    exact .inl rfl
  · next key =>
    split at h
    · cases h
    · split at h
      · cases h
        exact .inl rfl
      · next ds digits =>
        split at h <;> cases h
        next none =>
        obtain ⟨digits, index⟩ := indexDigits?_eq_some_iff.1 digits
        have long := Numeral.value?_eq_none_iff.1 none
        refine .inr ⟨rfl, _, ds, key, List.all_eq_true.1 List.all_takeWhile, ⟨digits, long⟩, ?_⟩
        rw [← index, shape]

theorem parse_of_isOverlong {text : Text} (h : IsOverlong text) :
    parse text = .error .numeralTooLong := by
  obtain ⟨key, ds, some, allowed, ⟨digits, long⟩, rfl⟩ := h
  have index := indexDigits?_eq_some_iff.2 ⟨digits, rfl⟩
  have stops : ("[" ++ ds ++ "]" : Text).takeWhile isKeyChar = [] ∧
      ("[" ++ ds ++ "]" : Text).dropWhile isKeyChar = "[" ++ ds ++ "]" := ⟨rfl, rfl⟩
  simp only [parse, List.takeWhile_append_of_pos allowed, List.dropWhile_append_of_pos allowed,
    stops, List.append_nil, if_neg some, index, Numeral.value?_eq_none_iff.2 long]
  rfl

end Segment

namespace Path

/-- The texts between the points of an address. -/
def parts (s : Text) : List Text := (dropRootMark (Text.strip s)).splitOn (.char '.')

/-- Segments that are well formed before one whose index has too many digits. -/
def IsOverlong (s : Text) : Prop :=
  ∃ earlier text later, parts s = earlier ++ text :: later ∧
    (∀ t ∈ earlier, ∃ segment, Segment.parse t = .ok segment) ∧ Segment.IsOverlong text

theorem parse_eq_error_iff {s : Text} {e : Fault} :
    parse s = .error e ↔ dropRootMark (Text.strip s) ≠ [] ∧
      FirstRefused Segment.parse (parts s) e := by
  rw [← mapM_eq_error_iff, parts]
  simp only [parse]
  split
  · next empty => exact iff_of_false nofun fun h => h.1 empty
  · next written =>
    cases (dropRootMark (Text.strip s)).splitOn (.char '.') |>.mapM Segment.parse with
    | ok segments => exact iff_of_false nofun fun h => nomatch h.2
    | error e' => simp [Except.map, written]

theorem dropRootMark_suffix (t : Text) : dropRootMark t <:+ t := by
  unfold dropRootMark
  split
  · exact List.nil_suffix
  · exact List.suffix_append ("$." : Text) _
  · exact List.suffix_refl t

/-- Each part of an address lies in its text. -/
theorem infix_of_mem_parts {s part : Text} (h : part ∈ parts s) : part <:+: s := by
  have joined : part <:+: List.intercalate [CodePoint.char '.'] (parts s) := infix_intercalate h
  rw [parts, List.intercalate_splitOn] at joined
  exact joined.trans ((dropRootMark_suffix _).isInfix.trans (Text.strip_infix s))

theorem IsOverlong.length {s : Text} (h : IsOverlong s) : Numeral.digitLimit < s.length := by
  obtain ⟨earlier, text, later, shape, _, key, ds, _, _, ⟨_, long⟩, rfl⟩ := h
  have mem : key ++ ("[" ++ ds ++ "]") ∈ parts s :=
    shape ▸ List.mem_append_right _ List.mem_cons_self
  have within := (infix_of_mem_parts mem).length_le
  simp only [List.length_append] at within
  omega

theorem refusesAs (s : Text) : RefusesAs .path IsOverlong parse s := by
  refine .of_error (fun {e} h => ?_) fun h => ⟨h.length, ?_⟩
  · obtain ⟨_, earlier, text, later, shape, accepted, refused⟩ := parse_eq_error_iff.1 h
    refine (Segment.parse_eq_error refused).imp (congrArg Fault.category) ?_
    rintro ⟨same, long⟩
    refine ⟨same, ?_⟩
    exact ⟨earlier, text, later, shape, accepted, long⟩
  · obtain ⟨earlier, text, later, shape, accepted, long⟩ := h
    refine parse_eq_error_iff.2 ⟨fun empty => ?_, earlier, text, later, shape, accepted,
      Segment.parse_of_isOverlong long⟩
    have one : parts s = [[]] := by
      rw [parts, empty]
      rfl
    have mem : text ∈ parts s := shape ▸ List.mem_append_right _ List.mem_cons_self
    obtain ⟨key, ds, some, _, _, rfl⟩ := long
    rw [one, List.mem_singleton] at mem
    exact some (List.append_eq_nil_iff.1 mem).1

end Path
end Intake
