import Intake.Answers.Read
import Intake.Answers.Write
import Intake.Proofs.Values.Digits
import Intake.Proofs.Values.Overlong

set_option autoImplicit false

/-!
# Amounts of money as they are shown

The commas that are put into the digits of an amount are those with which an amount may be written
(`whole_grouped`), so that what is shown of it is read as the amount (`amounts_read_as_shown`).
Debts cannot be read, but they are shown as well. There the sign belongs to the whole dollars alone,
which have been rounded down, and the cents count upwards from them (`shown_exactly_iff`).
-/

namespace Intake

namespace Numeral

/-- The groups of three that are divided from the end are those of the digits. -/
theorem exists_groups_groupFromEnd {ds : Text} (digits : IsDigits ds) :
    ∃ (lead : Text) (groups : List Text), IsDigits lead ∧ lead.length ≤ 3 ∧
      (∀ g ∈ groups, IsDigits g ∧ g.length = 3) ∧
      (groupFromEnd ds).reverse = lead ++ groups.flatMap (.char ',' :: ·) ∧
      ds.reverse = lead ++ groups.flatten := by
  obtain ⟨some, digit⟩ := digits
  fun_induction groupFromEnd ds with
  | case1 a b c d rest ih =>
    simp only [List.forall_mem_cons] at digit
    obtain ⟨ha, hb, hc, later⟩ := digit
    obtain ⟨lead, groups, first, few, each, divided, same⟩ :=
      ih (List.cons_ne_nil d rest) (List.forall_mem_cons.2 later)
    have last : IsDigits [c, b, a] := ⟨List.cons_ne_nil _ _, by simp [ha, hb, hc]⟩
    refine ⟨lead, groups ++ [[c, b, a]], first, few, ?_, ?_, ?_⟩
    · intro g mem
      rcases List.mem_append.1 mem with old | new
      · exact each g old
      · rw [List.mem_singleton.1 new]
        exact ⟨last, rfl⟩
    · simp [divided]
    · simp [same]
  | case2 ds short =>
    have few : ds.length ≤ 3 := by
      match ds, short with
      | [], _ | [_], _ | [_, _], _ | [_, _, _], _ => simp
      | a :: b :: c :: d :: rest, short => exact (short a b c d rest rfl).elim
    refine ⟨ds.reverse, [], ⟨?_, ?_⟩, ?_, nofun, ?_, ?_⟩
    · simpa using some
    · simpa using digit
    · simpa using few
    · simp
    · simp

theorem whole_grouped (n : Nat) : Currency.Whole (grouped n) (digits n) := by
  have digits : IsDigits (digits n).reverse :=
    ⟨by simpa using digits_ne_nil n, fun c mem => isDigit_of_mem_digits (List.mem_reverse.1 mem)⟩
  obtain ⟨lead, groups, first, few, each, divided, same⟩ := exists_groups_groupFromEnd digits
  rw [List.reverse_reverse] at same
  rw [grouped, divided, same]
  exact .grouped first few each

end Numeral

namespace Currency

/-! ## What is read -/

theorem parse_of_parts {raw whole ds fraction : Text} (written : Whole whole ds)
    (parts : splitCents? (Text.strip raw) = some (whole, fraction))
    (few : ds.length ≤ Numeral.digitLimit) :
    parse raw = .ok ⟨100 * Numeral.value ds + Numeral.value fraction⟩ := by
  have value : Numeral.value? ds = some (Numeral.value ds) := if_pos few
  simp only [parse, parts, isWhole_of_whole written, if_true, ← written.eq_filter, value]

theorem parse_of_denotes {raw : Text} {a : Currency} (h : Denotes raw a)
    (short : ¬ IsOverlong raw) : parse raw = .ok a := by
  cases h with
  | @dollars whole ds written shape =>
    have few : ds.length ≤ Numeral.digitLimit := by
      by_contra long
      exact short ⟨whole, ds, written, Nat.lt_of_not_le long, .inl shape⟩
    have parts : splitCents? (Text.strip raw) = some (whole, []) :=
      (congrArg splitCents? shape).trans written.splitCents?_eq
    rw [parse_of_parts written parts few]
    rfl
  | @cents whole ds x y written hx hy shape =>
    have few : ds.length ≤ Numeral.digitLimit := by
      by_contra long
      exact short ⟨whole, ds, written, Nat.lt_of_not_le long, .inr ⟨x, y, hx, hy, shape⟩⟩
    have parts : splitCents? (Text.strip raw) = some (whole, [x, y]) :=
      (congrArg splitCents? shape).trans (written.splitCents?_append hx hy)
    exact parse_of_parts written parts few

theorem exists_denotes_of_isOverlong {raw : Text} (h : IsOverlong raw) : ∃ a, Denotes raw a := by
  obtain ⟨whole, ds, written, _, shape | ⟨x, y, hx, hy, shape⟩⟩ := h
  · exact ⟨_, .dollars written shape⟩
  · exact ⟨_, .cents written hx hy shape⟩

/-- A text is read as the amount that it means, unless it has too many digits. -/
theorem parse_eq_ok_iff {raw : Text} {a : Currency} :
    parse raw = .ok a ↔ Denotes raw a ∧ ¬ IsOverlong raw := by
  constructor
  · intro read
    refine ⟨denotes_of_parse read, ?_⟩
    intro long
    rw [parse_of_isOverlong long] at read
    cases read
  · rintro ⟨means, short⟩
    exact parse_of_denotes means short

theorem parse_of_not_denotes {raw : Text} (h : ∀ a, ¬ Denotes raw a) :
    parse raw = .error (.malformedCurrency raw) := by
  cases result : parse raw with
  | ok a => exact absurd (denotes_of_parse result) (h a)
  | error e =>
    rcases parse_eq_error result with rfl | ⟨_, long⟩
    · rfl
    · obtain ⟨a, means⟩ := exists_denotes_of_isOverlong long
      exact absurd means (h a)

/-! ## What is shown -/

theorem dollarsText_eq_error_iff {a : Currency} {e : Fault} : a.dollarsText = .error e ↔
    e = .numeralTooLong ∧ Numeral.isWritable (a.cents / 100) = false := by
  have whole : Int.fdiv a.cents 100 = a.cents / 100 := Int.fdiv_eq_ediv_of_nonneg _ (by decide)
  simp only [dollarsText, whole]
  cases Numeral.isWritable (a.cents / 100) with
  | false => simp [eq_comm]
  | true => simp

/-- An amount is shown as its dollars, rounded down, and the cents that it has beyond them. -/
theorem exists_dollarsText_eq {a : Currency} (few : Numeral.isWritable (a.cents / 100) = true) :
    ∃ x y : CodePoint, x.isDigit = true ∧ y.isDigit = true ∧
      (Numeral.value [x, y] : Int) = a.cents % 100 ∧
      a.dollarsText = .ok ((if a.cents < 0 then ("-" : Text) else []) ++
        (Numeral.grouped (a.cents / 100).natAbs ++ [.char '.', x, y])) := by
  have whole : Int.fdiv a.cents 100 = a.cents / 100 := Int.fdiv_eq_ediv_of_nonneg _ (by decide)
  have rest : Int.fmod a.cents 100 = a.cents % 100 := Int.fmod_eq_emod_of_nonneg _ (by decide)
  have sign : a.cents / 100 < 0 ↔ a.cents < 0 := by omega
  obtain ⟨r, beyond⟩ : ∃ r : Nat, a.cents % 100 = r :=
    Int.eq_ofNat_of_zero_le (Int.emod_nonneg _ (by decide))
  have tens : r / 10 < 10 := by omega
  have ones : r % 10 < 10 := Nat.mod_lt _ (by decide)
  refine ⟨.char (Nat.digitChar (r / 10)), .char (Nat.digitChar (r % 10)), ?_, ?_, ?_, ?_⟩
  · simpa [CodePoint.isDigit, Nat.isDigit_digitChar] using tens
  · simpa [CodePoint.isDigit, Nat.isDigit_digitChar] using ones
  · have value := Numeral.value_digitChars [r / 10, r % 10] (by simp [tens, ones])
    simp only [List.map_cons, List.map_nil, List.foldl_cons, List.foldl_nil] at value
    rw [value, beyond]
    omega
  · simp only [dollarsText, whole, rest, beyond, few, if_true, Int.toNat_natCast, sign,
      List.append_assoc]
    rfl

theorem isWritable_dollars {n : Int} (few : Numeral.isWritable n = true) :
    Numeral.isWritable (n / 100) = true := by
  rw [Numeral.isWritable, decide_eq_true_eq] at few ⊢
  have less : (n / 100).natAbs ≤ n.natAbs := by omega
  exact Nat.le_trans (Numeral.length_digits_mono less) few

theorem isBlank_of_whole {s ds : Text} (h : Whole s ds) : ∀ c ∈ s, Text.isBlank c = false := by
  intro c mem
  rcases h.mem_cases c mem with digit | rfl
  · exact CodePoint.isBlank_of_isDigit digit
  · decide

/-- What is shown of an amount that is not negative is read as the amount. -/
theorem parse_dollarsText {n : Nat} (few : (Numeral.digits n).length ≤ Numeral.digitLimit) :
    ∃ shown, dollarsText ⟨n⟩ = .ok shown ∧ parse shown = .ok ⟨n⟩ := by
  have short : Numeral.isWritable (n : Int) = true := by simpa [Numeral.isWritable] using few
  obtain ⟨x, y, hx, hy, beyond, shown⟩ := exists_dollarsText_eq (isWritable_dollars short)
  change (Numeral.value [x, y] : Int) = n % 100 at beyond
  have written := Numeral.whole_grouped (n / 100)
  have natural : ¬ (n : Int) < 0 := by omega
  have dollars : ((n : Int) / 100).natAbs = n / 100 := by omega
  simp only [natural, if_false, List.nil_append, dollars] at shown
  refine ⟨_, shown, ?_⟩
  have stripped : Text.strip (Numeral.grouped (n / 100) ++ [.char '.', x, y]) =
      Numeral.grouped (n / 100) ++ [.char '.', x, y] := by
    apply Text.strip_of_not_blank
    intro c mem
    simp only [List.mem_append, List.mem_cons, List.not_mem_nil, or_false] at mem
    rcases mem with inside | rfl | rfl | rfl
    · exact isBlank_of_whole written c inside
    · decide
    · exact CodePoint.isBlank_of_isDigit hx
    · exact CodePoint.isBlank_of_isDigit hy
  have fewer := Nat.le_trans (Numeral.length_digits_mono (Nat.div_le_self n 100)) few
  have parts := written.splitCents?_append hx hy
  rw [← stripped] at parts
  rw [parse_of_parts written parts fewer, Numeral.value_digits]
  congr 2
  omega

/-- A text is read exactly as the amount that it means by the shape of its dollars and cents, unless
it has too many digits in its dollars, and a text that means no amount is refused. What is shown of
an amount that is not negative is read as this very amount. -/
theorem amounts_read_as_shown :
    (∀ raw : Text, (∀ a, parse raw = .ok a ↔ Denotes raw a ∧ ¬ IsOverlong raw) ∧
      ((∀ a, ¬ Denotes raw a) → parse raw = .error (.malformedCurrency raw))) ∧
    ∀ n : Nat, (Numeral.digits n).length ≤ Numeral.digitLimit →
      ∃ shown, dollarsText ⟨n⟩ = .ok shown ∧ parse shown = .ok ⟨n⟩ := by
  constructor
  · intro raw
    exact ⟨fun a => parse_eq_ok_iff, parse_of_not_denotes⟩
  · intro n few
    exact parse_dollarsText few

def income : Text := "\t1,234,567.05 "

/-- The income is read as what is shown of it, and a comma in a wrong place is refused. -/
theorem income_read_as_shown :
    (Denotes income ⟨123456705⟩ ∧ ¬ IsOverlong income ∧ parse income = .ok ⟨123456705⟩) ∧
    ((∀ a, ¬ Denotes "12,34.00" a) ∧ parse "12,34.00" = .error (.malformedCurrency "12,34.00")) ∧
    (Numeral.digits 123456705).length ≤ Numeral.digitLimit ∧
      ∃ shown, dollarsText ⟨123456705⟩ = .ok shown ∧ parse shown = .ok ⟨123456705⟩ := by
  obtain ⟨texts, numbers⟩ := amounts_read_as_shown
  have whole : Whole "1,234,567" "1234567" :=
    @Whole.grouped "1" ["234", "567"] ⟨by decide, by decide⟩ (by decide)
      (by simp [IsDigits, Text.ofString, Text.ofChars, CodePoint.isDigit])
  have means : Denotes income ⟨123456705⟩ := @Denotes.cents _ _ _ '0' '5' whole rfl rfl rfl
  have short : ¬ IsOverlong income := fun long => absurd long.length (by decide)
  have misplaced : ∀ a, ¬ Denotes "12,34.00" a := by
    intro a means
    have read := ((texts _).1 a).2 ⟨means, fun long => absurd long.length (by decide)⟩
    cases read
  have few : (Numeral.digits 123456705).length ≤ Numeral.digitLimit := by decide
  exact ⟨⟨means, short, ((texts _).1 _).2 ⟨means, short⟩⟩, ⟨misplaced, (texts _).2 misplaced⟩, few,
    numbers _ few⟩

/-! ## Shown amounts as numbers -/

/-- What a text says as a number with at most one sign and two decimals, in hundredths. -/
def Hundredths (t : Text) (n : Int) : Prop :=
  ∃ sign negative ds x y, Numeral.Sign sign negative ∧ IsDigits ds ∧ x.isDigit = true ∧
    y.isDigit = true ∧ t = sign ++ (ds ++ [.char '.', x, y]) ∧
    n = Numeral.signed negative (100 * Numeral.value ds + Numeral.value [x, y])

theorem Hundredths.unique {t : Text} {m n : Int} (hm : Hundredths t m) (hn : Hundredths t n) :
    m = n := by
  obtain ⟨_, _, ds, x, y, signed, digits, _, _, rfl, rfl⟩ := hm
  obtain ⟨_, _, ds', x', y', signed', digits', _, _, same, rfl⟩ := hn
  have split := signed.splitSign_append_append digits [.char '.', x, y]
  rw [same, signed'.splitSign_append_append digits'] at split
  obtain ⟨rfl, rest⟩ := Prod.mk.inj split
  obtain ⟨rfl, decimals⟩ := List.append_inj' rest rfl
  cases decimals
  rfl

def withoutCommas (t : Text) : Text := t.filter (· ≠ .char ',')

theorem withoutCommas_append (s t : Text) :
    withoutCommas (s ++ t) = withoutCommas s ++ withoutCommas t :=
  List.filter_append _ _

theorem withoutCommas_grouped (n : Nat) : withoutCommas (Numeral.grouped n) = Numeral.digits n :=
  (Numeral.whole_grouped n).eq_filter.symm

/-- Of a debt the cents are shown as if they made it larger. -/
theorem hundredths_dollarsText {a : Currency} {shown : Text} (h : a.dollarsText = .ok shown) :
    Hundredths (withoutCommas shown)
      (a.cents - if a.cents < 0 then 2 * (a.cents % 100) else 0) := by
  have few : Numeral.isWritable (a.cents / 100) = true := by
    by_contra long
    have failed := dollarsText_eq_error_iff.2 ⟨rfl, eq_false_of_ne_true long⟩
    rw [h] at failed
    cases failed
  obtain ⟨x, y, hx, hy, beyond, written⟩ := exists_dollarsText_eq few
  cases h.symm.trans written
  have digits := Numeral.isDigits_digits (a.cents / 100).natAbs
  have decimals : withoutCommas [.char '.', x, y] = [.char '.', x, y] := by
    apply List.filter_eq_self.2
    intro c mem
    apply decide_eq_true
    rintro rfl
    simp only [List.mem_cons, List.not_mem_nil, or_false] at mem
    rcases mem with point | rfl | rfl
    · cases point
    · cases hx
    · cases hy
  rw [withoutCommas_append, withoutCommas_append, withoutCommas_grouped, decimals]
  split
  · refine ⟨"-", true, _, x, y, .minus, digits, hx, hy, rfl, ?_⟩
    rw [Numeral.value_digits, Numeral.signed, if_pos rfl]
    omega
  · refine ⟨[], false, _, x, y, .none, digits, hx, hy, rfl, ?_⟩
    rw [Numeral.value_digits, Numeral.signed, if_neg Bool.false_ne_true]
    omega

/-- What is shown of an amount is one number with two decimals. It is the amount itself exactly if
the amount is no debt or is made of whole dollars. For any other debt it is twice the cents that are
beyond the rounded dollars too low. Every amount that can be written is shown, and one that is not
shown has too many digits in its dollars. -/
theorem shown_exactly_iff (a : Currency) :
    (Numeral.isWritable a.cents = true → ∃ shown, a.dollarsText = .ok shown) ∧
    (∀ shown, a.dollarsText = .ok shown →
      (∀ n, Hundredths (withoutCommas shown) n ↔
        n = a.cents - if a.cents < 0 then 2 * (a.cents % 100) else 0) ∧
      (Hundredths (withoutCommas shown) a.cents ↔ 0 ≤ a.cents ∨ 100 ∣ a.cents)) ∧
    ∀ e, a.dollarsText = .error e ↔
      e = .numeralTooLong ∧ Numeral.isWritable (a.cents / 100) = false := by
  refine ⟨?_, ?_, fun e => dollarsText_eq_error_iff⟩
  · intro few
    obtain ⟨_, _, _, _, _, shown⟩ := exists_dollarsText_eq (isWritable_dollars few)
    exact ⟨_, shown⟩
  · intro shown h
    have number := hundredths_dollarsText h
    have only : ∀ n, Hundredths (withoutCommas shown) n ↔
        n = a.cents - if a.cents < 0 then 2 * (a.cents % 100) else 0 := by
      intro n
      constructor
      · exact fun other => other.unique number
      · rintro rfl
        exact number
    refine ⟨only, ?_⟩
    rw [only]
    split <;> omega

/-- A debt of whole dollars is shown as it is. -/
theorem whole_debt_shown : Numeral.isWritable (-123400) = true ∧
    dollarsText ⟨-123400⟩ = .ok "-1,234.00" ∧
    Hundredths (withoutCommas "-1,234.00") (-123400) := by
  obtain ⟨writable, numbers, _⟩ := shown_exactly_iff ⟨-123400⟩
  have few : Numeral.isWritable (-123400) = true := by decide
  have shown : dollarsText ⟨-123400⟩ = .ok "-1,234.00" := rfl
  obtain ⟨_, again⟩ := writable few
  cases shown.symm.trans again
  exact ⟨few, shown, (numbers _ shown).2.2 (.inr (by decide))⟩

def balance : Path := Profile.applicant.field "balance"

/-- One dollar and a half of debt is stored and read, but two and a half are shown. -/
theorem debt_shown_too_large :
    ∃ d, (Edit.putLong balance (.text "-150")).run Answers.empty = .ok () d ∧
      d.readCurrency balance = some ⟨-150⟩ ∧ dollarsText ⟨-150⟩ = .ok "-2.50" ∧
      ¬ Hundredths (withoutCommas "-2.50") (-150) := by
  have shown : dollarsText ⟨-150⟩ = .ok "-2.50" := rfl
  refine ⟨_, rfl, rfl, shown, ?_⟩
  intro exact'
  exact absurd (exact'.unique (hundredths_dollarsText shown)) (by decide)

end Currency
end Intake
