import Intake.Answers.Read
import Intake.Proofs.Answers.Clearing
import Intake.Proofs.Values.Amounts
import Intake.Proofs.Values.Dates

set_option autoImplicit false

/-!
# Typed input and what is read back

An input of a single value is stored as one atom, and that atom is read as the value which the input
means (`reads_stored`). Empty input clears its path.
-/

namespace Intake

/-- What a text means as a value of a type. A text of several numbers is no single value. -/
inductive Storage.Denotes : Storage → Text → Value → Prop where
  | text (s : Text) : Denotes .string s (.text s)
  | long {raw : Text} {n : Int} : Long.Denotes raw n → Denotes .long raw (.long n)
  | date (d : CalendarDate) : Denotes .date d.isoText (.date d)
  | currency {raw : Text} {a : Currency} : Currency.Denotes raw a →
      Denotes .currencyCents raw (.currency a)

theorem Storage.Denotes.unique {type : Storage} {raw : Text} {v w : Value}
    (hv : type.Denotes raw v) (hw : type.Denotes raw w) : v = w := by
  cases hv with
  | text =>
    cases hw
    rfl
  | long hn =>
    cases hw with
    | long hm => rw [hn.unique hm]
  | date d =>
    generalize same : d.isoText = raw at hw
    cases hw with
    | date e => rw [CalendarDate.isoText_injective same]
  | currency ha =>
    cases hw with
    | currency hb => rw [ha.unique hb]

/-- The input of a text as a single value. -/
def Storage.input? (type : Storage) (raw : Text) : Option FormInput :=
  match type with
  | .string => some (.text raw)
  | .long => some (.long (.text raw))
  | .date => some (.date raw)
  | .currencyCents => some (.dollars raw)
  | .listOfLongs => none

namespace FormInput

variable {type : Storage} {raw : Text} {e : FormInput}

theorem putScalar_eq_run (h : type.input? raw = some e) (p : Path) :
    Edit.putScalar p type raw = e.run p := by
  cases type <;> cases h <;> rfl

theorem read_empty (h : type.input? [] = some e) : e.read = .ok none := by
  cases type <;> cases h <;> rfl

theorem of_readText {α : Type} (parse : Text → Except Fault α) {atom : α → Atom}
    {stored : Option Atom} (written : raw ≠ [])
    (h : readText (fun s => (parse s).map atom) raw = .ok stored) :
    ∃ a, parse raw = .ok a ∧ stored = some (atom a) := by
  have parsed : ((parse raw).map atom).map some = .ok stored := (if_neg written).symm.trans h
  cases result : parse raw with
  | error f =>
    rw [result] at parsed
    cases parsed
  | ok a =>
    rw [result] at parsed
    cases parsed
    exact ⟨a, rfl, rfl⟩

theorem readLong_of_get? {d : Answers} {p : Path} {n : Int} (h : d.get? p = some (.atom (.int n))) :
    d.readLong p = some n := by
  rw [Answers.readLong, h]
  rfl

/-- Input that is not empty is stored as an atom that is read as what the input means. -/
theorem reads_stored (h : type.input? raw = some e) (written : raw ≠ []) {stored : Option Atom}
    (read : e.read = .ok stored) : ∃ a v, stored = some a ∧ type.Denotes raw v ∧
      ∀ (d : Answers) (p : Path), d.get? p = some (.atom a) →
        d.readScalar p type = .ok (some v) := by
  cases type with
  | listOfLongs => cases h
  | string =>
    cases h
    obtain ⟨s, made, rfl⟩ := of_readText .ok written read
    cases made
    refine ⟨_, _, rfl, .text raw, fun d p here => ?_⟩
    rw [Answers.readScalar, Answers.readText, here]
    rfl
  | long =>
    cases h
    obtain ⟨n, made, rfl⟩ := of_readText Long.parse written read
    refine ⟨_, _, rfl, .long (Long.denotes_of_parse made), fun d p here => ?_⟩
    rw [Answers.readScalar, readLong_of_get? here]
    rfl
  | date =>
    cases h
    obtain ⟨millis, made, rfl⟩ := of_readText CalendarDate.parseMillis written read
    cases parsed : CalendarDate.parse raw with
    | error f =>
      rw [CalendarDate.parseMillis, parsed] at made
      cases made
    | ok date =>
      rw [CalendarDate.parseMillis, parsed] at made
      cases made
      cases CalendarDate.eq_isoText_of_parse parsed
      refine ⟨_, _, rfl, .date date, fun d p here => ?_⟩
      simp only [Answers.readScalar, Answers.readDate, readLong_of_get? here,
        CalendarDate.ofEpochMillis_epochMillis]
      rfl
  | currencyCents =>
    cases h
    obtain ⟨amount, made, rfl⟩ := of_readText Currency.parse written read
    refine ⟨_, _, rfl, .currency (Currency.denotes_of_parse made), fun d p here => ?_⟩
    rw [Answers.readScalar, Answers.readCurrency, readLong_of_get? here]
    rfl

end FormInput

/-- Typed input that is accepted is read back. If the input is not empty, a typed read afterwards
gives the one value that the input means. Empty input is always accepted. It leaves everything as it
was if the path points to an element or to nothing, and otherwise removes what is at the path or
below it and nothing else. -/
theorem typed_input_reads_back (d : Answers) (p : Path) (type : Storage)
    (unlocked : d.locked = false) (inside : p.isRoot = false) (single : type ≠ .listOfLongs) :
    (∀ raw new, raw ≠ [] → (Edit.putScalar p type raw).run d = .ok () new →
      ∃ v, type.Denotes raw v ∧ (∀ w, type.Denotes raw w → w = v) ∧
        new.readScalar p type = .ok (some v)) ∧
    ∃ new, (Edit.putScalar p type []).run d = .ok () new ∧
      new.locked = d.locked ∧ new.locale = d.locale ∧
      (p.isElement = true ∨ d.get? p = none → new = d) ∧
      (p.isElement = false → (∀ below, new.tree.get? (p.steps ++ below) = none) ∧
        ∀ q, Json.Independent p.steps q → new.tree.get? q = d.tree.get? q) := by
  obtain ⟨input, isInput⟩ : ∃ input : Text → FormInput,
      ∀ raw, type.input? raw = some (input raw) := by
    cases type with
    | listOfLongs => exact absurd rfl single
    | _ => exact ⟨_, fun _ => rfl⟩
  constructor
  · intro raw new written h
    rw [FormInput.putScalar_eq_run (isInput raw), FormInput.run_eq_write] at h
    cases read : (input raw).read with
    | error f =>
      rw [read] at h
      cases h
    | ok stored =>
      obtain ⟨a, v, rfl, denoted, reads⟩ := FormInput.reads_stored (isInput raw) written read
      rw [read] at h
      have here := Json.get?_put_self (Edit.written_of_put_ok h).tree
      exact ⟨v, denoted, fun w hw => hw.unique denoted, reads new p here⟩
  · rw [FormInput.putScalar_eq_run (isInput []), FormInput.run_eq_write,
      FormInput.read_empty (isInput [])]
    have run := Edit.clear_ok unlocked inside
    refine ⟨_, run, ?_⟩
    cases element : p.isElement with
    | true => exact ⟨rfl, rfl, fun _ => rfl, nofun⟩
    | false =>
      obtain ⟨locked, locale⟩ := d.state_erase p
      obtain ⟨parent, k, rfl⟩ := Path.exists_eq_field inside element
      refine ⟨locked, locale, ?_, fun _ => ⟨fun below => ?_, fun q free => ?_⟩⟩
      · rintro (absurd | absent)
        · cases absurd
        · exact Answers.erase_of_absent absent
      · simp only [Bool.false_eq_true, if_false, Answers.tree_erase, Path.steps_field,
          List.append_assoc]
        exact Json.get?_erase_below parent.steps k below d.tree
      · simp only [Bool.false_eq_true, if_false, Answers.tree_erase, Path.steps_field] at free ⊢
        exact Json.get?_erase_of_independent free d.tree

/-- The second of the gifts, of which none is stored yet. -/
def secondGift : Path := (Profile.applicant.field "gifts").element 1

theorem gift_reads_back :
    Answers.empty.locked = false ∧ secondGift.isRoot = false ∧
      (∃ new, (Edit.putScalar secondGift .currencyCents " 1,234.50").run Answers.empty =
        .ok () new ∧ new.readScalar secondGift .currencyCents = .ok (some (.currency ⟨123450⟩))) ∧
      (Edit.putScalar secondGift .currencyCents []).run Answers.empty = .ok () Answers.empty := by
  obtain ⟨reads, after, cleared, _, _, same, _⟩ :=
    typed_input_reads_back Answers.empty secondGift .currencyCents rfl rfl nofun
  have meant : Storage.Denotes .currencyCents " 1,234.50" (.currency ⟨123450⟩) :=
    .currency (Currency.denotes_of_parse rfl)
  obtain ⟨new, run⟩ : ∃ new, (Edit.putScalar secondGift .currencyCents " 1,234.50").run
      Answers.empty = .ok () new := ⟨_, rfl⟩
  obtain ⟨v, _, only, read⟩ := reads " 1,234.50" new nofun run
  refine ⟨rfl, rfl, ⟨new, run, ?_⟩, ?_⟩
  · rw [only _ meant, read]
  · rw [cleared, same (.inl rfl)]

end Intake
