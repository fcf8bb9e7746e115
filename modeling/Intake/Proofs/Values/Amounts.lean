import Intake.Currency
import Intake.Long

set_option autoImplicit false

/-!
# Texts of whole numbers and of money

What a text means as a 64-bit integer or as an amount of money is said by the shape of the text,
and is at most one number. What is read from a text is what it means.
-/

namespace Intake

/-- A text of one or more decimal digits. -/
def IsDigits (ds : Text) : Prop := ds ≠ [] ∧ ∀ c ∈ ds, c.isDigit = true

theorem IsDigits.not_mem {ds : Text} (h : IsDigits ds) {c : CodePoint} (hc : c.isDigit = false) :
    c ∉ ds := by
  intro mem
  rw [h.2 c mem] at hc
  cases hc

theorem IsDigits.ne_of_mem {ds : Text} (h : IsDigits ds) {c d : CodePoint} (hc : c.isDigit = false)
    (mem : d ∈ ds) : d ≠ c := by
  rintro rfl
  exact h.not_mem hc mem

/-! ## Whole numbers -/

namespace Numeral

theorem isDigits_digits (n : Nat) : IsDigits (digits n) :=
  ⟨digits_ne_nil n, fun _ => isDigit_of_mem_digits⟩

/-- What may stand before the digits of a number, and whether it makes the number negative. -/
inductive Sign : Text → Bool → Prop where
  | none : Sign [] false
  | plus : Sign [.char '+'] false
  | minus : Sign [.char '-'] true

theorem eq_value_of_value? {ds : Text} {n : Nat} (h : value? ds = some n) : n = value ds := by
  unfold value? at h
  split at h <;> cases h
  rfl

theorem exists_sign (s : Text) :
    ∃ sign, Sign sign (splitSign s).1 ∧ s = sign ++ (splitSign s).2 := by
  unfold splitSign
  split
  · exact ⟨_, .minus, rfl⟩
  · exact ⟨_, .plus, rfl⟩
  · exact ⟨_, .none, rfl⟩

/-- Behind a sign stands what begins with digits. -/
theorem Sign.splitSign_append_append {sign ds : Text} {negative : Bool} (h : Sign sign negative)
    (digits : IsDigits ds) (rest : Text) :
    splitSign (sign ++ (ds ++ rest)) = (negative, ds ++ rest) := by
  cases h with
  | plus => rfl
  | minus => rfl
  | none =>
    obtain ⟨c, cs, rfl⟩ := List.exists_cons_of_ne_nil digits.1
    rw [List.nil_append, List.cons_append]
    unfold splitSign
    split
    · next same => exact absurd (List.cons.inj same).1 (digits.ne_of_mem rfl List.mem_cons_self)
    · next same => exact absurd (List.cons.inj same).1 (digits.ne_of_mem rfl List.mem_cons_self)
    · rfl

theorem Sign.splitSign_append {sign ds : Text} {negative : Bool} (h : Sign sign negative)
    (digits : IsDigits ds) : splitSign (sign ++ ds) = (negative, ds) := by
  have split := h.splitSign_append_append digits []
  rwa [List.append_nil] at split

end Numeral

namespace Long

/-- What a text means as a 64-bit integer: the number of its digits, behind at most one sign. -/
def Denotes (raw : Text) (n : Int) : Prop :=
  ∃ sign negative ds, Numeral.Sign sign negative ∧ IsDigits ds ∧ raw = sign ++ ds ∧
    n = Numeral.signed negative (Numeral.value ds) ∧ min ≤ n ∧ n ≤ max

theorem Denotes.unique {raw : Text} {m n : Int} (hm : Denotes raw m) (hn : Denotes raw n) :
    m = n := by
  obtain ⟨_, _, _, signed, digits, rfl, rfl, _⟩ := hm
  obtain ⟨_, _, _, signed', digits', same, rfl, _⟩ := hn
  have split := signed.splitSign_append digits
  rw [same, signed'.splitSign_append digits'] at split
  cases split
  rfl

theorem denotes_of_parse {raw : Text} {n : Int} (h : parse raw = .ok n) : Denotes raw n := by
  obtain ⟨sign, signed, shape⟩ := Numeral.exists_sign raw
  unfold parse at h
  dsimp only at h
  split at h
  · cases h
  · next digits =>
    have digits : IsDigits (Numeral.splitSign raw).2 := by
      simpa [not_or, IsDigits] using digits
    split at h
    · cases h
    · next hv =>
      cases Numeral.eq_value_of_value? hv
      split at h <;> cases h
      next range =>
      obtain ⟨lower, upper⟩ := not_or.1 range
      exact ⟨sign, _, _, signed, digits, shape, rfl, Int.not_lt.1 lower, Int.not_lt.1 upper⟩

end Long

/-! ## Money -/

namespace Currency

/-- Dollars as they may be written, and their digits: all in one run, or at most three of them
before groups of three. -/
inductive Whole : Text → Text → Prop where
  | plain {ds : Text} : IsDigits ds → Whole ds ds
  | grouped {lead : Text} {groups : List Text} : IsDigits lead → lead.length ≤ 3 →
      (∀ g ∈ groups, IsDigits g ∧ g.length = 3) →
      Whole (lead ++ groups.flatMap (.char ',' :: ·)) (lead ++ groups.flatten)

/-- What a text means as an amount of money: its dollars, and perhaps two more digits behind a
point. Blanks around it mean nothing. -/
inductive Denotes (raw : Text) : Currency → Prop where
  | dollars {whole ds : Text} : Whole whole ds → Text.strip raw = whole →
      Denotes raw ⟨100 * Numeral.value ds⟩
  | cents {whole ds : Text} {a b : CodePoint} : Whole whole ds → a.isDigit = true →
      b.isDigit = true → Text.strip raw = whole ++ [.char '.', a, b] →
      Denotes raw ⟨100 * Numeral.value ds + Numeral.value [a, b]⟩

theorem exists_groups {s : Text} (h : isGroups s = true) : ∃ groups : List Text,
    (∀ g ∈ groups, IsDigits g ∧ g.length = 3) ∧ s = groups.flatMap (.char ',' :: ·) := by
  fun_induction isGroups s with
  | case1 => exact ⟨[], nofun, rfl⟩
  | case2 a b c rest ih =>
    simp only [Bool.and_eq_true] at h
    obtain ⟨⟨⟨ha, hb⟩, hc⟩, more⟩ := h
    obtain ⟨groups, digits, rfl⟩ := ih more
    refine ⟨[a, b, c] :: groups, List.forall_mem_cons.2 ⟨⟨⟨nofun, ?_⟩, rfl⟩, digits⟩, rfl⟩
    simp [ha, hb, hc]
  | case3 => cases h

theorem filter_digits {ds : Text} (h : ∀ c ∈ ds, c.isDigit = true) :
    ds.filter (· ≠ .char ',') = ds := by
  refine List.filter_eq_self.2 fun c mem => decide_eq_true ?_
  rintro rfl
  cases h _ mem

theorem filter_groups {groups : List Text} (h : ∀ g ∈ groups, IsDigits g ∧ g.length = 3) :
    (groups.flatMap (.char ',' :: ·)).filter (· ≠ .char ',') = groups.flatten := by
  induction groups with
  | nil => rfl
  | cons g groups ih =>
    obtain ⟨⟨digits, _⟩, later⟩ := List.forall_mem_cons.1 h
    have first : (.char ',' :: g : Text).filter (· ≠ .char ',') = g :=
      (List.filter_cons_of_neg (by decide)).trans (filter_digits digits.2)
    rw [List.flatMap_cons, List.filter_append, first, ih later, List.flatten_cons]

theorem Whole.eq_filter {s ds : Text} (h : Whole s ds) : ds = s.filter (· ≠ .char ',') := by
  cases h with
  | plain digits => rw [filter_digits digits.2]
  | grouped digits _ groups => rw [List.filter_append, filter_digits digits.2, filter_groups groups]

/-- Dollars are written with digits and commas. -/
theorem Whole.mem_cases {s ds : Text} (h : Whole s ds) :
    ∀ c ∈ s, c.isDigit = true ∨ c = .char ',' := by
  cases h with
  | plain digits => exact fun c mem => .inl (digits.2 c mem)
  | grouped digits _ groups =>
    intro c mem
    rcases List.mem_append.1 mem with lead | behind
    · exact .inl (digits.2 c lead)
    · obtain ⟨g, hg, within⟩ := List.mem_flatMap.1 behind
      rcases List.mem_cons.1 within with comma | hc
      · exact .inr comma
      · exact .inl ((groups g hg).1.2 c hc)

theorem Whole.ne_point {s ds : Text} (h : Whole s ds) :
    ∀ c ∈ s, decide (c ≠ .char '.') = true := by
  intro c mem
  apply decide_eq_true
  rintro rfl
  rcases h.mem_cases _ mem with digit | comma
  · cases digit
  · cases comma

theorem whole_of_isWhole {s : Text} (h : isWhole s = true) :
    Whole s (s.filter (· ≠ .char ',')) := by
  have shape := List.takeWhile_append_dropWhile (p := CodePoint.isDigit) (l := s)
  simp only [isWhole, Bool.and_eq_true, Bool.or_eq_true, Bool.not_eq_true', List.isEmpty_iff,
    List.isEmpty_eq_false_iff, decide_eq_true_eq] at h
  obtain ⟨some, behind⟩ := h
  have digits : IsDigits (s.takeWhile CodePoint.isDigit) :=
    ⟨some, List.all_eq_true.1 List.all_takeWhile⟩
  obtain ⟨ds, whole⟩ : ∃ ds, Whole s ds := by
    rcases behind with none | ⟨few, groups⟩
    · rw [none, List.append_nil] at shape
      exact ⟨_, .plain (shape ▸ digits)⟩
    · obtain ⟨groups, each, eq⟩ := exists_groups groups
      rw [eq] at shape
      have whole := Whole.grouped digits few each
      rw [shape] at whole
      exact ⟨_, whole⟩
  exact whole.eq_filter ▸ whole

/-- The dollars of a text, and the two digits of its cents if a point comes behind them. -/
theorem splitCents?_eq_some {s whole fraction : Text} (h : splitCents? s = some (whole, fraction)) :
    (s = whole ∧ fraction = []) ∨ ∃ a b, a.isDigit = true ∧ b.isDigit = true ∧
      s = whole ++ [.char '.', a, b] ∧ fraction = [a, b] := by
  have shape := List.takeWhile_append_dropWhile (p := (· ≠ .char '.')) (l := s)
  simp only [splitCents?] at h
  split at h
  · next none =>
    cases h
    rw [none, List.append_nil] at shape
    exact .inl ⟨shape.symm, rfl⟩
  · next point a b behind =>
    split at h <;> cases h
    next digits =>
    obtain ⟨ha, hb⟩ := Bool.and_eq_true_iff.1 digits
    have first := List.head?_dropWhile_not (· ≠ .char '.') s
    rw [behind] at first shape
    have point : point = .char '.' := by simpa using first
    rw [point] at shape
    exact .inr ⟨a, b, ha, hb, shape.symm, rfl⟩
  · cases h

theorem denotes_of_parse {raw : Text} {a : Currency} (h : parse raw = .ok a) : Denotes raw a := by
  unfold parse at h
  split at h
  · cases h
  · next whole fraction parts =>
    split at h
    · next accepted =>
      split at h
      · cases h
      · next n hv =>
        cases Numeral.eq_value_of_value? hv
        cases h
        rcases splitCents?_eq_some parts with ⟨same, rfl⟩ | ⟨a, b, ha, hb, same, rfl⟩
        · exact .dollars (whole_of_isWhole accepted) same
        · exact .cents (whole_of_isWhole accepted) ha hb same
    · cases h

/-- The amount that a text can mean, computed from it. -/
theorem Denotes.eq {raw : Text} {a : Currency} (h : Denotes raw a) :
    a = ⟨100 * Numeral.value (((Text.strip raw).takeWhile (· ≠ .char '.')).filter (· ≠ .char ','))
      + Numeral.value (((Text.strip raw).dropWhile (· ≠ .char '.')).drop 1)⟩ := by
  cases h with
  | @dollars whole ds written shape =>
    rw [shape, ← List.append_nil whole, List.takeWhile_append_of_pos written.ne_point,
      List.dropWhile_append_of_pos written.ne_point, List.takeWhile_nil, List.append_nil,
      ← written.eq_filter]
    rfl
  | @cents whole ds a b written ha hb shape =>
    have point : decide (CodePoint.char '.' ≠ .char '.') = false := by decide
    rw [shape, List.takeWhile_append_of_pos written.ne_point,
      List.dropWhile_append_of_pos written.ne_point, List.takeWhile_cons, List.dropWhile_cons,
      point, if_neg Bool.false_ne_true, if_neg Bool.false_ne_true, List.append_nil,
      ← written.eq_filter]
    rfl

theorem Denotes.unique {raw : Text} {a b : Currency} (ha : Denotes raw a) (hb : Denotes raw b) :
    a = b := ha.eq.trans hb.eq.symm

end Currency
end Intake
