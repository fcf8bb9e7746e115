import Intake.CalendarDate
import Intake.Proofs.Values.Digits

set_option autoImplicit false

/-!
# Dates and their texts and numbers

A date is found again from its text and from the milliseconds to its midnight. Years and months
are both counted up until the next one has not begun, so `countUp` speaks of both.
-/

namespace Intake.CalendarDate

/-! ## Days -/

/-- Counting up ends at the last place that has begun, if `before` counts the days before each. -/
theorem countUp_eq (count : Nat → Nat → Nat) (before : Nat → Nat) {n last : Nat}
    (stop : ∀ m, count 0 m = m)
    (next : ∀ fuel m, count (fuel + 1) m = if before (m + 1) ≤ n then count fuel (m + 1) else m)
    (grows : ∀ m, m < last → before (m + 1) ≤ n) (ends : n < before (last + 1)) {fuel m : Nat}
    (begun : m ≤ last) (enough : last ≤ m + fuel) : count fuel m = last := by
  induction fuel generalizing m with
  | zero =>
    rw [stop]
    omega
  | succ fuel ih =>
    rw [next]
    rcases Nat.lt_or_eq_of_le begun with less | rfl
    · rw [if_pos (grows m less)]
      exact ih less (by omega)
    · rw [if_neg (Nat.not_le.2 ends)]

theorem daysBeforeMonth_mono (year : Nat) {m l : Nat} (h : m ≤ l) :
    daysBeforeMonth year m ≤ daysBeforeMonth year l := by
  induction h with
  | refl => exact Nat.le_refl _
  | step _ ih => exact Nat.le_trans ih (Nat.le_add_right _ _)

theorem daysBeforeMonth_succ (year : Nat) {month : Nat} (h : 1 ≤ month) :
    daysBeforeMonth year (month + 1) = daysBeforeMonth year month + daysInMonth year month := by
  have : month ≠ 0 := by omega
  rw [daysBeforeMonth, if_neg this]

theorem daysBeforeMonth_thirteen (year : Nat) :
    daysBeforeMonth year 13 = if isLeap year then 366 else 365 := by
  cases leap : isLeap year <;> simp [daysBeforeMonth, daysInMonth, leap]

theorem daysBeforeYear_succ {year : Nat} (h : 1 ≤ year) :
    daysBeforeYear (year + 1) = daysBeforeYear year + daysBeforeMonth year 13 := by
  obtain ⟨y, rfl⟩ := Nat.exists_eq_add_one.2 h
  have fewer : y / 100 ≤ y / 4 := Nat.div_le_div_left (by decide) (by decide)
  have leap : isLeap (y + 1) = decide (4 ∣ y + 1 ∧ (¬ 100 ∣ y + 1 ∨ 400 ∣ y + 1)) := by
    simp [isLeap, Nat.dvd_iff_mod_eq_zero, Bool.decide_and, Bool.decide_or]
  simp only [daysBeforeMonth_thirteen, leap, daysBeforeYear, Nat.add_sub_cancel, Nat.succ_div,
    decide_eq_true_eq]
  generalize y / 4 = a at fewer ⊢
  generalize y / 100 = b at fewer ⊢
  grind

theorem daysBeforeYear_mono {y z : Nat} (h : y ≤ z) : daysBeforeYear y ≤ daysBeforeYear z := by
  induction h with
  | refl => exact Nat.le_refl _
  | @step z _ ih =>
    refine Nat.le_trans ih ?_
    cases z with
    | zero => exact Nat.le_refl 0
    | succ z =>
      rw [daysBeforeYear_succ (Nat.succ_pos z)]
      exact Nat.le_add_right _ _

section Days

variable (d : CalendarDate)

/-- The days before a date in its month, in its year and in all are fewer than with the next. -/
theorem inMonth_lt : d.day - 1 < daysInMonth d.year d.month := by
  have := d.day_range
  omega

theorem inYear_lt :
    daysBeforeMonth d.year d.month + (d.day - 1) < daysBeforeMonth d.year (d.month + 1) := by
  rw [daysBeforeMonth_succ d.year d.month_range.1]
  exact Nat.add_lt_add_left d.inMonth_lt _

theorem dayNumber_lt : d.dayNumber < daysBeforeYear (d.year + 1) := by
  have within := d.inYear_lt
  have year : daysBeforeMonth d.year (d.month + 1) ≤ daysBeforeMonth d.year 13 :=
    daysBeforeMonth_mono d.year (Nat.add_le_add_right d.month_range.2 1)
  rw [dayNumber, daysBeforeYear_succ d.year_range.1]
  omega

theorem dayNumber_lt_dayCount : d.dayNumber < dayCount := by
  have last := daysBeforeYear_mono (Nat.add_le_add_right d.year_range.2 1)
  exact Nat.lt_of_lt_of_le d.dayNumber_lt last

theorem yearOf_dayNumber : yearOf d.dayNumber = d.year := by
  have upper := d.dayNumber_lt
  have lower : daysBeforeYear d.year ≤ d.dayNumber := by
    unfold dayNumber
    omega
  have range := d.year_range
  refine countUp_eq (fun fuel m => yearFrom fuel m d.dayNumber) daysBeforeYear (fun _ => rfl)
    (fun _ _ => rfl) ?_ upper ?_ ?_
  · intro m h
    exact Nat.le_trans (daysBeforeYear_mono h) lower
  · unfold daysBeforeYear at upper
    omega
  · unfold daysBeforeYear at lower
    omega

theorem monthOf_inYear :
    monthOf d.year (daysBeforeMonth d.year d.month + (d.day - 1)) = d.month := by
  refine countUp_eq (monthFrom d.year _) (daysBeforeMonth d.year) (fun _ => rfl) (fun _ _ => rfl)
    ?_ d.inYear_lt d.month_range.1 ?_
  · intro m h
    exact Nat.le_trans (daysBeforeMonth_mono d.year h) (Nat.le_add_right _ _)
  · have := d.month_range
    omega

theorem ofDayNumber?_dayNumber : ofDayNumber? d.dayNumber = some d := by
  have inYear : d.dayNumber - daysBeforeYear d.year =
      daysBeforeMonth d.year d.month + (d.day - 1) := by
    unfold dayNumber
    omega
  have inMonth : daysBeforeMonth d.year d.month + (d.day - 1) - daysBeforeMonth d.year d.month + 1
      = d.day := by
    have := d.day_range
    omega
  simp only [ofDayNumber?, yearOf_dayNumber, inYear, monthOf_inYear, inMonth]
  exact dif_pos ⟨d.year_range, d.month_range, d.day_range⟩

/-- A moment falls on the date whose midnight it has reached and whose next midnight it has not. -/
theorem ofEpochMillis_of_within {m : Int} (begun : d.epochMillis ≤ m)
    (lasts : m < d.epochMillis + millisPerDay) : ofEpochMillis m = .ok d := by
  have day : Int.fdiv m millisPerDay + epochDay = d.dayNumber := by
    rw [Int.fdiv_eq_ediv_of_nonneg _ (by decide)]
    unfold epochMillis millisPerDay at *
    omega
  have bound := d.dayNumber_lt_dayCount
  have inside : (0 : Int) ≤ d.dayNumber ∧ (d.dayNumber : Int) < dayCount := by omega
  simp only [ofEpochMillis, day, if_pos inside, Int.toNat_natCast, ofDayNumber?_dayNumber]

/-- A date is the one on which its own midnight falls. -/
theorem ofEpochMillis_epochMillis : ofEpochMillis d.epochMillis = .ok d :=
  d.ofEpochMillis_of_within (Int.le_refl _) (Int.lt_add_of_pos_right _ (by decide))

end Days

/-! ## Texts -/

theorem value_twoDigits {n : Nat} (h : n < 100) : Numeral.value (twoDigits n) = n := by
  have value := Numeral.value_digitChars [n / 10 % 10, n % 10] (by simp; omega)
  refine value.trans ?_
  simp only [List.foldl_cons, List.foldl_nil]
  omega

theorem value_fourDigits {n : Nat} (h : n < 10000) : Numeral.value (fourDigits n) = n := by
  have value := Numeral.value_digitChars [n / 1000 % 10, n / 100 % 10, n / 10 % 10, n % 10]
    (by simp; omega)
  refine value.trans ?_
  simp only [List.foldl_cons, List.foldl_nil]
  omega

theorem twoDigits_value {a b : CodePoint} (ha : a.isDigit = true) (hb : b.isDigit = true) :
    twoDigits (Numeral.value [a, b]) = [a, b] := by
  obtain ⟨m, hm, rfl⟩ := CodePoint.exists_eq_digitChar ha
  obtain ⟨n, hn, rfl⟩ := CodePoint.exists_eq_digitChar hb
  have value := Numeral.value_digitChars [m, n] (by simp; omega)
  simp only [List.map_cons, List.map_nil, List.foldl_cons, List.foldl_nil] at value
  have first : (10 * (10 * 0 + m) + n) / 10 % 10 = m := by omega
  have second : (10 * (10 * 0 + m) + n) % 10 = n := by omega
  rw [value, twoDigits, first, second]

theorem fourDigits_value {a b c d : CodePoint} (ha : a.isDigit = true) (hb : b.isDigit = true)
    (hc : c.isDigit = true) (hd : d.isDigit = true) :
    fourDigits (Numeral.value [a, b, c, d]) = [a, b, c, d] ∧ Numeral.value [a, b, c, d] ≤ 9999 := by
  obtain ⟨k, hk, rfl⟩ := CodePoint.exists_eq_digitChar ha
  obtain ⟨l, hl, rfl⟩ := CodePoint.exists_eq_digitChar hb
  obtain ⟨m, hm, rfl⟩ := CodePoint.exists_eq_digitChar hc
  obtain ⟨n, hn, rfl⟩ := CodePoint.exists_eq_digitChar hd
  have value := Numeral.value_digitChars [k, l, m, n] (by simp; omega)
  simp only [List.map_cons, List.map_nil, List.foldl_cons, List.foldl_nil] at value
  rw [value, fourDigits]
  generalize whole : 10 * (10 * (10 * (10 * 0 + k) + l) + m) + n = v
  have first : v / 1000 % 10 = k := by omega
  have second : v / 100 % 10 = l := by omega
  have third : v / 10 % 10 = m := by omega
  have fourth : v % 10 = n := by omega
  rw [first, second, third, fourth]
  exact ⟨rfl, by omega⟩

theorem ofParts_eq_ok_iff {year month day : Nat} {small : year ≤ 9999} {d : CalendarDate} :
    ofParts year month day small = .ok d ↔ d.year = year ∧ d.month = month ∧ d.day = day := by
  unfold ofParts
  constructor
  · intro h
    split at h
    · cases h
    · split at h
      · split at h <;> cases h
        exact ⟨rfl, rfl, rfl⟩
      · cases h
  · rintro ⟨rfl, rfl, rfl⟩
    have positive : d.year ≠ 0 := by
      have := d.year_range
      omega
    rw [dif_neg positive, dif_pos d.month_range, dif_pos d.day_range]

theorem eq_isoText_of_parse {raw : Text} {d : CalendarDate} (h : parse raw = .ok d) :
    raw = d.isoText := by
  unfold parse at h
  split at h
  · next y1 y2 y3 y4 m1 m2 d1 d2 =>
    split at h
    · next digits =>
      simp only [List.all_cons, List.all_nil, Bool.and_true, Bool.and_eq_true] at digits
      obtain ⟨hy1, hy2, hy3, hy4, hm1, hm2, hd1, hd2⟩ := digits
      obtain ⟨year, small⟩ := fourDigits_value hy1 hy2 hy3 hy4
      rw [dif_pos small] at h
      cases made : ofParts (Numeral.value [y1, y2, y3, y4]) (Numeral.value [m1, m2])
          (Numeral.value [d1, d2]) small with
      | error e =>
        rw [made] at h
        cases h
      | ok e =>
        rw [made] at h
        cases h
        obtain ⟨hy, hm, hd⟩ := ofParts_eq_ok_iff.1 made
        rw [isoText, hy, hm, hd, year, twoDigits_value hm1 hm2, twoDigits_value hd1 hd2]
        rfl
    · cases h
  · cases h

variable (d : CalendarDate)

theorem value_parts : Numeral.value (fourDigits d.year) = d.year ∧
    Numeral.value (twoDigits d.month) = d.month ∧ Numeral.value (twoDigits d.day) = d.day := by
  have most : daysInMonth d.year d.month ≤ 31 := by
    unfold daysInMonth
    split
    · split <;> decide
    · split <;> decide
  have year := d.year_range
  have month := d.month_range
  have day := d.day_range
  exact ⟨value_fourDigits (by omega), value_twoDigits (by omega), value_twoDigits (by omega)⟩

theorem parse_isoText : parse d.isoText = .ok d := by
  have digits : (fourDigits d.year ++ twoDigits d.month ++ twoDigits d.day).all
      CodePoint.isDigit = true := by
    simp [fourDigits, twoDigits, CodePoint.isDigit, Nat.isDigit_digitChar, Nat.mod_lt]
  obtain ⟨year, month, day⟩ := d.value_parts
  have small : Numeral.value (fourDigits d.year) ≤ 9999 := by
    rw [year]
    exact d.year_range.2
  have made : ofParts (Numeral.value (fourDigits d.year)) (Numeral.value (twoDigits d.month))
      (Numeral.value (twoDigits d.day)) small = .ok d :=
    ofParts_eq_ok_iff.2 ⟨year.symm, month.symm, day.symm⟩
  have read : parse d.isoText = (ofParts (Numeral.value (fourDigits d.year))
      (Numeral.value (twoDigits d.month)) (Numeral.value (twoDigits d.day)) small).mapError
      (.noSuchDate d.isoText) := (if_pos digits).trans (dif_pos small)
  rw [read, made]
  rfl

theorem isoText_injective {d e : CalendarDate} (h : d.isoText = e.isoText) : d = e := by
  have read := d.parse_isoText
  rw [h, e.parse_isoText] at read
  exact (Except.ok.inj read).symm

end Intake.CalendarDate
