import Intake.CommandLine.Run

set_option autoImplicit false

/-!
# Faults that are not the store's

A message or a value that cannot be shown, and settings that cannot be read, are no faults of the
store: the spelling of a color, a tag, a text of settings. So a run that breaks off at one of them
does not break off at a fault that it should have reported.
-/

namespace Intake

/-! ## Outputs -/

theorem Output.foreign_check [Host] (o : Output) : Foreign o.check := by
  cases o with
  | json v => exact .ok ()
  | plain v => exact .ok ()
  | panel title v => exact Display.foreign_panel title _
  | table title names => exact Display.foreign_table title names

/-! ## Values -/

theorem CalendarDate.eq_outOfRange {m : Int} {e : Fault} (h : ofEpochMillis m = .error e) :
    e = outOfRange m := by
  unfold ofEpochMillis at h
  extract_lets n at h
  split at h
  · split at h <;> cases h
    rfl
  · cases h
    rfl

namespace Answers

/-- A number that is no date's is read as nothing, and one that is too long is no fault of the
store. -/
theorem foreign_readDate (d : Answers) (p : Path) : Foreign (d.readDate p) := by
  unfold readDate
  split
  · exact .ok none
  · next millis _ =>
    split
    · exact .ok _
    · next e failed =>
      cases CalendarDate.eq_outOfRange failed
      unfold CalendarDate.outOfRange
      split
      · exact .ok none
      · exact .error rfl

theorem foreign_readScalar (d : Answers) (p : Path) (type : Storage) :
    Foreign (d.readScalar p type) := by
  cases type with
  | date => exact (d.foreign_readDate p).map _
  | string | long | currencyCents | listOfLongs => exact .ok _

end Answers

theorem Currency.foreign_dollarsText (a : Currency) : Foreign a.dollarsText := by
  unfold dollarsText
  extract_lets
  split
  · exact .ok _
  · exact .error rfl

theorem Value.foreign_toJson (v : Value) : Foreign v.toJson := by
  cases v with
  | text _ | long _ | date _ | longs _ => exact .ok _
  | currency a => exact a.foreign_dollarsText.map _

/-! ## Settings -/

theorem Yaml.Fault.isReported_toFault (e : Yaml.Fault) : e.toFault.isReported = false := by
  cases e <;> rfl

theorem Settings.foreign_ofText? [SettingsReader] (text : Text) : Foreign (ofText? text) := by
  unfold ofText?
  cases SettingsReader.read text with
  | error e => exact .error e.isReported_toFault
  | ok d =>
    show Foreign (ofDocument? d)
    unfold ofDocument?
    split
    · exact .ok none
    · split
      · exact .ok _
      all_goals exact .error rfl
    · exact .error rfl

theorem CommandLine.foreign_readSettings [Host] (notes : Notes) (f : FileName) (text : Text) :
    Foreign (readSettings notes f text) := by
  refine (Settings.foreign_ofText? text).bind fun s => ?_
  dsimp only
  split
  · exact (Display.foreign_note _).bind fun _ => .ok _
  · exact .ok _

end Intake
