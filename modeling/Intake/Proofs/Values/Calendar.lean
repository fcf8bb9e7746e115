import Intake.Answers.Read
import Intake.Answers.Write
import Intake.Proofs.Values.Dates
import Intake.Proofs.Values.Overlong

set_option autoImplicit false

/-!
# Walking through the calendar

Days are counted by going from each date to the next one, which `IsNext` says month by month and
year by year, without a formula. The number of a date counts the same steps (`later_iff`), so that
the milliseconds to a midnight are those of the days from 1970-01-01, and every moment of the years
1 to 9999 falls on one date (`dates_count_days`).
-/

namespace Intake.CalendarDate

/-! ## One day after another -/

/-- The day after a date: one more in its month, or the first day of the next month, or the first
day of the next year. -/
inductive IsNext (d e : CalendarDate) : Prop where
  | inMonth : e.year = d.year → e.month = d.month → e.day = d.day + 1 → IsNext d e
  | nextMonth : d.day = daysInMonth d.year d.month → e.year = d.year → e.month = d.month + 1 →
      e.day = 1 → IsNext d e
  | nextYear : d.month = 12 → d.day = 31 → e.year = d.year + 1 → e.month = 1 → e.day = 1 →
      IsNext d e

/-- One date is so many days later than another. -/
inductive Later : Nat → CalendarDate → CalendarDate → Prop where
  | same (d : CalendarDate) : Later 0 d d
  | next {n : Nat} {d e f : CalendarDate} : IsNext d e → Later n e f → Later (n + 1) d f

/-- The days from one date to another, which are counted negative if the other one is earlier. -/
inductive DaysFrom (start d : CalendarDate) : Int → Prop where
  | after {n : Nat} : Later n start d → DaysFrom start d n
  | before {n : Nat} : Later n d start → DaysFrom start d (-n)

/-- The last day of a year stands right before the next one. -/
theorem dayNumber_of_yearEnd {d : CalendarDate} (december : d.month = 12) (last : d.day = 31) :
    d.dayNumber + 1 = daysBeforeYear (d.year + 1) := by
  have all : daysBeforeMonth d.year 13 = daysBeforeMonth d.year 12 + 31 :=
    daysBeforeMonth_succ d.year (by decide)
  rw [dayNumber, daysBeforeYear_succ d.year_range.1, december, last, all]
  omega

theorem dayNumber_of_isNext {d e : CalendarDate} (h : IsNext d e) :
    e.dayNumber = d.dayNumber + 1 := by
  have first := d.day_range.1
  cases h with
  | inMonth year month day =>
    rw [dayNumber, dayNumber, year, month, day]
    omega
  | nextMonth last year month day =>
    rw [dayNumber, dayNumber, year, month, day, daysBeforeMonth_succ _ d.month_range.1]
    omega
  | nextYear december last year month day =>
    have none : daysBeforeMonth (d.year + 1) 1 = 0 := rfl
    rw [dayNumber_of_yearEnd december last, dayNumber, year, month, day, none]
    rfl

theorem daysInMonth_pos (year month : Nat) : 0 < daysInMonth year month := by
  unfold daysInMonth
  split
  · split <;> decide
  · split <;> decide

/-- Every date but the last one has a next one. -/
theorem exists_isNext {d : CalendarDate} (h : d.dayNumber + 1 < dayCount) : ∃ e, IsNext d e := by
  rcases Nat.lt_or_eq_of_le d.day_range.2 with within | last
  · exact ⟨⟨d.year, d.month, d.day + 1, d.year_range, d.month_range, Nat.le_add_left _ _, within⟩,
      .inMonth rfl rfl rfl⟩
  rcases Nat.lt_or_eq_of_le d.month_range.2 with earlier | december
  · have first : 1 ≤ 1 ∧ 1 ≤ daysInMonth d.year (d.month + 1) :=
      ⟨Nat.le_refl 1, daysInMonth_pos _ _⟩
    exact ⟨⟨d.year, d.month + 1, 1, d.year_range, ⟨Nat.le_add_left _ _, earlier⟩, first⟩,
      .nextMonth last rfl rfl rfl⟩
  rw [december] at last
  rcases Nat.lt_or_eq_of_le d.year_range.2 with earlier | final
  · have first : 1 ≤ 1 ∧ 1 ≤ daysInMonth (d.year + 1) 1 := ⟨Nat.le_refl 1, daysInMonth_pos _ _⟩
    exact ⟨⟨d.year + 1, 1, 1, ⟨Nat.le_add_left _ _, earlier⟩, by decide, first⟩,
      .nextYear december last rfl rfl rfl⟩
  · rw [dayNumber_of_yearEnd december last, final] at h
    exact absurd h (Nat.lt_irrefl dayCount)

theorem dayNumber_injective {d e : CalendarDate} (h : d.dayNumber = e.dayNumber) : d = e := by
  have found := d.ofDayNumber?_dayNumber
  rw [h, e.ofDayNumber?_dayNumber] at found
  exact (Option.some.inj found).symm

/-- The number of a date counts the days up to it. -/
theorem later_iff {n : Nat} {d e : CalendarDate} : Later n d e ↔ e.dayNumber = d.dayNumber + n := by
  constructor
  · intro h
    induction h with
    | same => rfl
    | next step _ ih =>
      have := dayNumber_of_isNext step
      omega
  · intro h
    induction n generalizing d with
    | zero =>
      rw [dayNumber_injective h]
      exact .same d
    | succ n ih =>
      have bound := e.dayNumber_lt_dayCount
      obtain ⟨f, step⟩ := exists_isNext (d := d) (by omega)
      have after := dayNumber_of_isNext step
      exact .next step (ih (by omega))

theorem daysFrom_iff {start d : CalendarDate} {k : Int} :
    DaysFrom start d k ↔ k = (d.dayNumber : Int) - start.dayNumber := by
  constructor
  · intro h
    cases h with
    | after later =>
      have := later_iff.1 later
      omega
    | before later =>
      have := later_iff.1 later
      omega
  · intro h
    rcases Nat.le_total start.dayNumber d.dayNumber with order | order
    · obtain ⟨n, eq⟩ := Nat.exists_eq_add_of_le order
      have count : k = n := by omega
      exact count ▸ .after (later_iff.2 eq)
    · obtain ⟨n, eq⟩ := Nat.exists_eq_add_of_le order
      have count : k = -n := by omega
      exact count ▸ .before (later_iff.2 eq)

/-- Every number of a day belongs to a date. -/
theorem exists_dayNumber_eq {n : Nat} (h : n < dayCount) : ∃ d : CalendarDate, d.dayNumber = n := by
  induction n with
  | zero => exact ⟨⟨1, 1, 1, by decide, by decide, by decide⟩, rfl⟩
  | succ n ih =>
    obtain ⟨d, number⟩ := ih (Nat.lt_of_succ_lt h)
    obtain ⟨e, step⟩ := exists_isNext (d := d) (number ▸ h)
    exact ⟨e, number ▸ dayNumber_of_isNext step⟩

/-! ## Earlier and later dates -/

/-- Dates are compared by year, in a year by month, and in a month by day. -/
def Before (d e : CalendarDate) : Prop :=
  d.year < e.year ∨ d.year = e.year ∧ (d.month < e.month ∨ d.month = e.month ∧ d.day < e.day)

theorem before_cases (d e : CalendarDate) : Before d e ∨ d = e ∨ Before e d := by
  rcases Nat.lt_trichotomy d.year e.year with less | year | more
  · exact .inl (.inl less)
  · rcases Nat.lt_trichotomy d.month e.month with less | month | more
    · exact .inl (.inr ⟨year, .inl less⟩)
    · rcases Nat.lt_trichotomy d.day e.day with less | day | more
      · exact .inl (.inr ⟨year, .inr ⟨month, less⟩⟩)
      · cases d
        cases e
        cases year
        cases month
        cases day
        exact .inr (.inl rfl)
      · exact .inr (.inr (.inr ⟨year.symm, .inr ⟨month.symm, more⟩⟩))
    · exact .inr (.inr (.inr ⟨year.symm, .inl more⟩))
  · exact .inr (.inr (.inl more))

theorem dayNumber_lt_of_before {d e : CalendarDate} (h : Before d e) :
    d.dayNumber < e.dayNumber := by
  rcases h with less | ⟨year, less | ⟨month, less⟩⟩
  · calc d.dayNumber < daysBeforeYear (d.year + 1) := d.dayNumber_lt
      _ ≤ daysBeforeYear e.year := daysBeforeYear_mono less
      _ ≤ e.dayNumber := by
        unfold dayNumber
        omega
  · have within := d.inYear_lt
    have later : daysBeforeMonth d.year (d.month + 1) ≤ daysBeforeMonth d.year e.month :=
      daysBeforeMonth_mono d.year less
    unfold dayNumber
    rw [← year]
    omega
  · have first := d.day_range.1
    unfold dayNumber
    rw [← year, ← month]
    omega

theorem before_iff {d e : CalendarDate} : Before d e ↔ d.dayNumber < e.dayNumber := by
  constructor
  · exact dayNumber_lt_of_before
  · intro less
    rcases before_cases d e with before | rfl | after
    · exact before
    · exact absurd less (Nat.lt_irrefl _)
    · exact absurd (dayNumber_lt_of_before after) (Nat.lt_asymm less)

theorem before_iff_epochMillis_lt {d e : CalendarDate} :
    Before d e ↔ d.epochMillis < e.epochMillis := by
  rw [before_iff, epochMillis, epochMillis, millisPerDay]
  omega

/-! ## Moments -/

def epoch : CalendarDate := ⟨1970, 1, 1, by decide, by decide, by decide⟩

theorem epochMillis_of_daysFrom {d : CalendarDate} {k : Int} (h : DaysFrom epoch d k) :
    d.epochMillis = k * 86400000 := by
  have start : epoch.dayNumber = epochDay := rfl
  rw [daysFrom_iff.1 h, start, epochMillis, millisPerDay]

/-- A date lasts from its midnight up to the next one. -/
def Lasts (d : CalendarDate) (m : Int) : Prop :=
  d.epochMillis ≤ m ∧ m < d.epochMillis + 86400000

/-- Each moment of the years 1 to 9999 is in one date. -/
theorem exists_lasts {m : Int} (h : -62135596800000 ≤ m ∧ m ≤ 253402300799999) :
    ∃ d : CalendarDate, Lasts d m := by
  obtain ⟨n, day⟩ : ∃ n : Nat, m / 86400000 + 719162 = n := Int.eq_ofNat_of_zero_le (by omega)
  obtain ⟨d, number⟩ := exists_dayNumber_eq (n := n) (by unfold dayCount; omega)
  refine ⟨d, ?_⟩
  simp only [Lasts, epochMillis, number, epochDay, millisPerDay]
  omega

theorem ofEpochMillis_of_lasts {d : CalendarDate} {m : Int} (h : Lasts d m) :
    ofEpochMillis m = .ok d :=
  d.ofEpochMillis_of_within h.1 h.2

theorem ofEpochMillis_of_outside {m : Int}
    (h : ¬ (-62135596800000 ≤ m ∧ m ≤ 253402300799999)) :
    ofEpochMillis m = .error (outOfRange m) := by
  have outside : ¬ (0 ≤ Int.fdiv m millisPerDay + epochDay ∧
      Int.fdiv m millisPerDay + epochDay < dayCount) := by
    rw [Int.fdiv_eq_ediv_of_nonneg _ (by decide)]
    unfold millisPerDay epochDay dayCount
    omega
  exact if_neg outside

section Stored

variable {a : Answers} {p : Path} {m : Int}

theorem readDate_of_lasts {d : CalendarDate} (stored : a.get? p = some (.atom (.int m)))
    (h : Lasts d m) : a.readDate p = .ok (some d) := by
  simp [Answers.readDate, Answers.readLong, stored, Json.int?, ofEpochMillis_of_lasts h]

theorem readDate_of_outside (stored : a.get? p = some (.atom (.int m)))
    (h : ¬ (-62135596800000 ≤ m ∧ m ≤ 253402300799999)) :
    a.readDate p = if Numeral.isWritable m then .ok none else .error .numeralTooLong := by
  have refused := ofEpochMillis_of_outside h
  cases writable : Numeral.isWritable m <;>
    simp [Answers.readDate, Answers.readLong, stored, Json.int?, refused, outOfRange, writable,
      Fault.category]

end Stored

/-! ## Texts -/

theorem parseMillis_isoText (d : CalendarDate) : parseMillis d.isoText = .ok d.epochMillis := by
  rw [parseMillis, parse_isoText]
  rfl

/-- What is not the text of a date is refused. -/
theorem parse_of_ne_isoText {text : Text} (h : ∀ d : CalendarDate, text ≠ d.isoText) :
    ∃ e, parse text = .error e ∧ e.category = .value := by
  rcases refusesAs text with ⟨absurd, _⟩ | ⟨_, ⟨d, read⟩ | refused⟩
  · exact absurd.elim
  · exact absurd (eq_isoText_of_parse read) (h d)
  · exact refused

/-- Dates are kept as days. The text of a date is read as the date and as the milliseconds of the
days to it from 1970-01-01, which are fewer exactly for an earlier date, and from which the date is
found again. A moment of the years 1 to 9999 is taken for the one date that has begun at it and has
not ended, also where it is read from answers, and any other moment for none. Only a number that is
too long to be written cannot even be refused as a moment. What is not the text of a date is
refused. -/
theorem dates_count_days :
    (∀ d : CalendarDate, (∃ k, (∀ j, DaysFrom epoch d j ↔ j = k) ∧ d.epochMillis = k * 86400000) ∧
      parse d.isoText = .ok d ∧ parseMillis d.isoText = .ok d.epochMillis ∧
      ofEpochMillis d.epochMillis = .ok d) ∧
    (∀ d e : CalendarDate, Before d e ↔ d.epochMillis < e.epochMillis) ∧
    (∀ m : Int,
      (-62135596800000 ≤ m ∧ m ≤ 253402300799999 →
        ∃ d, ofEpochMillis m = .ok d ∧ (∀ e, Lasts e m ↔ e = d) ∧
          ∀ (a : Answers) (p : Path), a.get? p = some (.atom (.int m)) →
            a.readDate p = .ok (some d)) ∧
      (¬ (-62135596800000 ≤ m ∧ m ≤ 253402300799999) →
        (Numeral.isWritable m →
          ofEpochMillis m = .error (.millisOutOfRange m) ∧
            ∀ (a : Answers) (p : Path), a.get? p = some (.atom (.int m)) →
              a.readDate p = .ok none) ∧
        (¬ Numeral.isWritable m →
          ofEpochMillis m = .error .numeralTooLong ∧
            ∀ (a : Answers) (p : Path), a.get? p = some (.atom (.int m)) →
              a.readDate p = .error .numeralTooLong))) ∧
    ∀ text : Text, (∀ d : CalendarDate, text ≠ d.isoText) →
      ∃ e, parse text = .error e ∧ parseMillis text = .error e ∧ e.category = .value := by
  refine ⟨fun d => ⟨?_, d.parse_isoText, d.parseMillis_isoText, d.ofEpochMillis_epochMillis⟩,
    fun d e => before_iff_epochMillis_lt, fun m => ⟨?_, ?_⟩, ?_⟩
  · exact ⟨_, fun j => daysFrom_iff, epochMillis_of_daysFrom (daysFrom_iff.2 rfl)⟩
  · intro inside
    obtain ⟨d, lasts⟩ := exists_lasts inside
    have found := ofEpochMillis_of_lasts lasts
    refine ⟨d, found, fun e => ⟨?_, ?_⟩, ?_⟩
    · intro other
      rw [ofEpochMillis_of_lasts other] at found
      exact Except.ok.inj found
    · rintro rfl
      exact lasts
    · intro a p stored
      exact readDate_of_lasts stored lasts
  · intro outside
    refine ⟨fun writable => ⟨?_, fun a p stored => ?_⟩, fun long => ⟨?_, fun a p stored => ?_⟩⟩
    · rw [ofEpochMillis_of_outside outside, outOfRange, if_pos writable]
    · rw [readDate_of_outside stored outside, if_pos writable]
    · rw [ofEpochMillis_of_outside outside, outOfRange, if_neg long]
    · rw [readDate_of_outside stored outside, if_neg long]
  · intro text other
    obtain ⟨e, refused, value⟩ := parse_of_ne_isoText other
    refine ⟨e, refused, ?_, value⟩
    rw [parseMillis, refused]
    rfl

def newYearsEve : CalendarDate := ⟨1969, 12, 31, by decide, by decide, by decide⟩

def birthField : Path := Profile.applicant.field "birth"

/-- The last moment before 1970 is in 1969, the year 9999 is the last one, and there is no year 0.
-/
theorem newYearsEve_holds_last_moment :
    (∃ a, (Edit.putLong birthField (.int (-1))).run Answers.empty = .ok () a ∧
      a.readDate birthField = .ok (some newYearsEve)) ∧
    ofEpochMillis 253402300800000 = .error (.millisOutOfRange 253402300800000) ∧
    (∀ d : CalendarDate, ("0000-01-01" : Text) ≠ d.isoText) ∧
    ∃ e, parse "0000-01-01" = .error e ∧ e.category = .value := by
  obtain ⟨_, _, moments, texts⟩ := dates_count_days
  obtain ⟨a, run, stored⟩ : ∃ a,
      (Edit.putLong birthField (.int (-1))).run Answers.empty = .ok () a ∧
        a.get? birthField = some (.atom (.int (-1))) := ⟨_, rfl, rfl⟩
  obtain ⟨d, _, only, reads⟩ := (moments (-1)).1 (by decide)
  have eve : newYearsEve = d := (only newYearsEve).1 ⟨by decide, by decide⟩
  have yearless : ∀ d : CalendarDate, ("0000-01-01" : Text) ≠ d.isoText := by
    intro d same
    have read := d.parse_isoText
    rw [← same] at read
    cases read
  obtain ⟨e, refused, _, value⟩ := texts _ yearless
  have refusedMoment := ((moments 253402300800000).2 (by decide)).1 (by decide)
  refine ⟨⟨a, run, ?_⟩, refusedMoment.1, yearless, e, refused, value⟩
  rw [reads a birthField stored, eve]

end Intake.CalendarDate
