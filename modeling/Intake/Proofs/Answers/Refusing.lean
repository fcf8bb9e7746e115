import Intake.Answers.Basic
import Intake.Proofs.Json.Overlong

set_option autoImplicit false

/-!
# Texts from outside

Addresses, numbers, amounts, dates and documents come from outside as texts. Each is read by a
reader with a category of faults of its own, and only a run of more digits than are ever converted
makes one fail in another way.
-/

namespace Intake

theorem Answers.create_refusesAs (s : Text) :
    RefusesAs .document (Json.Stumbles .value) (fun s => create (some s) none) s := by
  have same : (fun s => create (some s) none) = ofText := by
    funext s
    unfold create
    simp only [Option.elim_some]
    cases ofText s <;> rfl
  rw [same]
  refine .of_error (fun {e} h => ?_) fun h => ⟨h.length, ?_⟩
  · unfold ofText at h
    split at h
    · cases h
      exact .inl rfl
    · next long =>
      cases h
      exact .inr ⟨rfl, Json.read_eq_error_iff.1 long⟩
    · cases h
    · cases h
      exact .inl rfl
  · have stumbles := Json.read_eq_error_iff.2 h
    unfold ofText
    split <;> simp_all

/-- Each reader of a text from outside gives a value or a fault of its own category, except that
digits beyond the limit make four of them fail with a fault that is no category of the store. -/
theorem texts_refused_unless_overlong (s : Text) :
    RefusesAs .path Path.IsOverlong Path.parse s ∧
      RefusesAs .value Long.IsOverlong Long.parse s ∧
      RefusesAs .value Currency.IsOverlong Currency.parse s ∧
      RefusesAs .value (fun _ => False) CalendarDate.parse s ∧
      RefusesAs .document (Json.Stumbles .value) (fun s => Answers.create (some s) none) s :=
  ⟨Path.refusesAs s, Long.refusesAs s, Currency.refusesAs s, CalendarDate.refusesAs s,
    Answers.create_refusesAs s⟩

/-- One digit more than are ever converted. -/
def tooManyNines : Text := List.replicate 4301 (.char '9')

/-- Such a number is neither read nor refused as a value. -/
theorem nines_are_not_refused : Long.parse tooManyNines = .error .numeralTooLong ∧
    ¬ ((∃ n, Long.parse tooManyNines = .ok n) ∨
      ∃ e, Long.parse tooManyNines = .error e ∧ e.category = .value) := by
  have long : IsOverlong tooManyNines := isOverlong_replicate rfl (by decide)
  have stumbles : Long.parse tooManyNines = .error .numeralTooLong :=
    Long.parse_of_isOverlong ⟨[], false, tooManyNines, .none, long, rfl⟩
  refine ⟨stumbles, ?_⟩
  rintro (⟨n, read⟩ | ⟨e, refused, own⟩)
  · rw [stumbles] at read
    cases read
  · rw [stumbles] at refused
    cases refused
    cases own

end Intake
