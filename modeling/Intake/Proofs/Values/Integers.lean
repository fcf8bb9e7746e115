import Mathlib.Data.Nat.Digits.Defs
import Intake.Proofs.Values.Digits
import Intake.Proofs.Values.Overlong

set_option autoImplicit false

/-!
# Texts of 64-bit integers

Which integer a text spells is told by its digits alone, each of which counts ten times as much as
the one behind it. The reader takes exactly the texts that spell an integer of 64 bits
(`parse_eq_ok_iff`), and it has one reason for refusing a text that spells no integer and another
for one that spells an integer out of range.
-/

namespace Intake

namespace Numeral

/-- The text is a row of decimal digits, the highest of them first, that make a number. Zeros may
stand in front. -/
def Spells (ds : Text) (n : Nat) : Prop :=
  ∃ row : List Nat, row ≠ [] ∧ (∀ m ∈ row, m < 10) ∧
    ds = row.map (fun m => .char (Nat.digitChar m)) ∧ n = Nat.ofDigits 10 row.reverse

/-- From the highest digit on, each further digit multiplies by ten what stands before it. -/
theorem ofDigits_reverse (row : List Nat) :
    Nat.ofDigits 10 row.reverse = row.foldl (fun n m => 10 * n + m) 0 := by
  rw [Nat.ofDigits_eq_foldr, List.foldr_reverse]
  congr 1
  funext n m
  exact Nat.add_comm m (10 * n)

theorem spells_iff {ds : Text} {n : Nat} : Spells ds n ↔ IsDigits ds ∧ n = value ds := by
  constructor
  · rintro ⟨row, some, small, rfl, rfl⟩
    refine ⟨⟨by simpa using some, ?_⟩, ?_⟩
    · intro c mem
      obtain ⟨m, inside, rfl⟩ := List.mem_map.1 mem
      simpa [CodePoint.isDigit, Nat.isDigit_digitChar] using small m inside
    · rw [ofDigits_reverse, value_digitChars row small]
  · rintro ⟨⟨some, digit⟩, rfl⟩
    obtain ⟨row, small, rfl⟩ := exists_eq_digitChars digit
    refine ⟨row, by simpa using some, small, rfl, ?_⟩
    rw [ofDigits_reverse, value_digitChars row small]

theorem spells_digits (n : Nat) : Spells (digits n) n :=
  spells_iff.2 ⟨isDigits_digits n, (value_digits n).symm⟩

end Numeral

namespace Long

/-- The text spells an integer: a row of digits, alone or behind one sign. -/
inductive Spells : Text → Int → Prop where
  | plain {ds : Text} {n : Nat} : Numeral.Spells ds n → Spells ds n
  | plus {ds : Text} {n : Nat} : Numeral.Spells ds n → Spells (.char '+' :: ds) n
  | minus {ds : Text} {n : Nat} : Numeral.Spells ds n → Spells (.char '-' :: ds) (-n)

theorem spells_iff {raw : Text} {n : Int} : Spells raw n ↔ ∃ sign negative ds,
    Numeral.Sign sign negative ∧ IsDigits ds ∧ raw = sign ++ ds ∧
      n = Numeral.signed negative (Numeral.value ds) := by
  constructor
  · intro spelt
    cases spelt with
    | plain row =>
      obtain ⟨digits, rfl⟩ := Numeral.spells_iff.1 row
      exact ⟨[], false, _, .none, digits, rfl, rfl⟩
    | plus row =>
      obtain ⟨digits, rfl⟩ := Numeral.spells_iff.1 row
      exact ⟨_, false, _, .plus, digits, rfl, rfl⟩
    | minus row =>
      obtain ⟨digits, rfl⟩ := Numeral.spells_iff.1 row
      exact ⟨_, true, _, .minus, digits, rfl, rfl⟩
  · rintro ⟨sign, negative, ds, signed, digits, rfl, rfl⟩
    have row := Numeral.spells_iff.2 ⟨digits, rfl⟩
    cases signed with
    | none => exact .plain row
    | plus => exact .plus row
    | minus => exact .minus row

theorem spells_ofInt (n : Int) : Spells (Numeral.ofInt n) n := by
  have row := Numeral.spells_digits n.natAbs
  unfold Numeral.ofInt
  split
  · next negative =>
    have spelt := Spells.minus row
    rwa [Int.ofNat_natAbs_of_nonpos (Int.le_of_lt negative), Int.neg_neg] at spelt
  · next natural =>
    have spelt := Spells.plain row
    rwa [Int.natAbs_of_nonneg (Int.not_lt.1 natural)] at spelt

/-- The integers of 64 bits. -/
def Fits (n : Int) : Prop := -2 ^ 63 ≤ n ∧ n ≤ 2 ^ 63 - 1

theorem denotes_iff {raw : Text} {n : Int} : Denotes raw n ↔ Spells raw n ∧ Fits n := by
  rw [spells_iff]
  constructor
  · rintro ⟨sign, negative, ds, signed, digits, shape, same, range⟩
    exact ⟨⟨sign, negative, ds, signed, digits, shape, same⟩, range⟩
  · rintro ⟨⟨sign, negative, ds, signed, digits, shape, same⟩, range⟩
    exact ⟨sign, negative, ds, signed, digits, shape, same, range⟩

theorem parse_of_not_spells {raw : Text} (h : ∀ n, ¬ Spells raw n) :
    parse raw = .error (.malformedLong raw) := by
  obtain ⟨sign, signed, shape⟩ := Numeral.exists_sign raw
  have noDigits : ¬ IsDigits (Numeral.splitSign raw).2 := by
    intro digits
    exact h _ (spells_iff.2 ⟨sign, _, _, signed, digits, shape, rfl⟩)
  unfold parse
  dsimp only
  refine if_pos ?_
  by_contra whole
  exact noDigits (by simpa [not_or, IsDigits] using whole)

section Short

variable {raw : Text} (few : (raw.filter CodePoint.isDigit).length ≤ Numeral.digitLimit)

include few

theorem parse_eq_ok_iff {n : Int} : parse raw = .ok n ↔ Spells raw n ∧ Fits n := by
  rw [← denotes_iff]
  constructor
  · exact denotes_of_parse
  · intro means
    exact parse_of_denotes means (not_isOverlong_of_few few)

theorem parse_of_not_fits {n : Int} (spelt : Spells raw n) (outside : ¬ Fits n) :
    parse raw = .error (.longOutOfRange raw) := by
  obtain ⟨sign, negative, ds, signed, digits, rfl, rfl⟩ := spells_iff.1 spelt
  have short : ds.length ≤ Numeral.digitLimit := by
    rw [List.filter_append, List.filter_eq_self.2 digits.2, List.length_append] at few
    omega
  rw [parse_of_signed signed digits short, if_pos]
  by_contra inside
  obtain ⟨lower, upper⟩ := not_or.1 inside
  exact outside ⟨Int.not_lt.1 lower, Int.not_lt.1 upper⟩

end Short

/-- An integer of 64 bits has at most nineteen digits. -/
theorem length_digits_of_fits {n : Int} (fits : Fits n) :
    (Numeral.digits n.natAbs).length ≤ 19 := by
  obtain ⟨lower, upper⟩ := fits
  rw [Numeral.digits, Text.ofChars, List.length_map,
    Nat.length_toDigits_le_iff (by decide) (by decide)]
  omega

theorem filter_ofInt (n : Int) :
    (Numeral.ofInt n).filter CodePoint.isDigit = Numeral.digits n.natAbs := by
  have digits := List.filter_eq_self.2 (Numeral.isDigits_digits n.natAbs).2
  unfold Numeral.ofInt
  split
  · exact (List.filter_cons_of_neg (by decide)).trans digits
  · exact digits

/-- What is written of an integer of 64 bits is read as this integer. -/
theorem parse_ofInt {n : Int} (fits : Fits n) : parse (Numeral.ofInt n) = .ok n := by
  refine (parse_eq_ok_iff ?_).2 ⟨spells_ofInt n, fits⟩
  rw [filter_ofInt]
  exact Nat.le_trans (length_digits_of_fits fits) (by decide)

/-- A text without too many digits is read exactly as the integer that it spells, if that has 64
bits. Any other such text is refused: it spells no integer, or one that is out of range. What is
written of an integer of 64 bits is read as this very integer. -/
theorem integers_read_exactly :
    (∀ text : Text, (text.filter CodePoint.isDigit).length ≤ Numeral.digitLimit →
      (∀ n, parse text = .ok n ↔ Spells text n ∧ Fits n) ∧
      ((∀ n, ¬ Spells text n) → parse text = .error (.malformedLong text)) ∧
      (∀ n, Spells text n → ¬ Fits n → parse text = .error (.longOutOfRange text)) ∧
      ∀ e, parse text = .error e → e.category = .value) ∧
    ∀ n, Fits n → parse (Numeral.ofInt n) = .ok n := by
  constructor
  · intro text few
    refine ⟨fun n => parse_eq_ok_iff few, parse_of_not_spells, fun n => parse_of_not_fits few, ?_⟩
    intro e refused
    rcases parse_eq_error refused with own | ⟨_, long⟩
    · exact own
    · exact absurd long (not_isOverlong_of_few few)
  · intro n fits
    exact parse_ofInt fits

/-- The least integer of 64 bits behind zeros. -/
def least : Text := "-0009223372036854775808"

/-- The least integer is read, the one below it is out of range, and a line feed behind digits
spells nothing. -/
theorem least_read_exactly :
    ((least.filter CodePoint.isDigit).length ≤ Numeral.digitLimit ∧ Spells least (-2 ^ 63) ∧
      parse least = .ok (-2 ^ 63)) ∧
    (Spells "-9223372036854775809" (-9223372036854775809) ∧ ¬ Fits (-9223372036854775809) ∧
      parse "-9223372036854775809" = .error (.longOutOfRange "-9223372036854775809")) ∧
    ((∀ n, ¬ Spells "12\n" n) ∧ parse "12\n" = .error (.malformedLong "12\n")) ∧
    Fits (2 ^ 63 - 1) ∧ parse (Numeral.ofInt (2 ^ 63 - 1)) = .ok (2 ^ 63 - 1) := by
  obtain ⟨texts, numbers⟩ := integers_read_exactly
  have few : (least.filter CodePoint.isDigit).length ≤ Numeral.digitLimit := by decide
  have row : Numeral.Spells "0009223372036854775808" 9223372036854775808 :=
    ⟨[0, 0, 0, 9, 2, 2, 3, 3, 7, 2, 0, 3, 6, 8, 5, 4, 7, 7, 5, 8, 0, 8], by decide, by decide, rfl,
      by norm_num [Nat.ofDigits]⟩
  have next : Numeral.Spells "9223372036854775809" 9223372036854775809 :=
    ⟨[9, 2, 2, 3, 3, 7, 2, 0, 3, 6, 8, 5, 4, 7, 7, 5, 8, 0, 9], by decide, by decide, rfl,
      by norm_num [Nat.ofDigits]⟩
  have greatest : Fits (2 ^ 63 - 1) := ⟨by decide, by decide⟩
  have lowest : Fits (-2 ^ 63) := ⟨by decide, by decide⟩
  have outside : ¬ Fits (-9223372036854775809) := by
    rintro ⟨lower, _⟩
    exact absurd lower (by decide)
  have none : ∀ n, ¬ Spells "12\n" n := by
    intro n spelt
    by_cases fits : Fits n
    · have read := ((texts _ (by decide)).1 n).2 ⟨spelt, fits⟩
      cases read
    · have refused := (texts _ (by decide)).2.2.1 n spelt fits
      cases refused
  refine ⟨⟨few, .minus row, ?_⟩, ⟨.minus next, outside, ?_⟩, ⟨none, ?_⟩, greatest,
    numbers _ greatest⟩
  · exact ((texts _ few).1 _).2 ⟨.minus row, lowest⟩
  · exact (texts _ (by decide)).2.2.1 _ (.minus next) outside
  · exact (texts _ (by decide)).2.1 none

end Long
end Intake
