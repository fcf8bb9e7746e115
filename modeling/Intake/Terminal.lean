import Intake.CommandLine.Host
import Intake.CommandLine.Index
import Intake.CommandLine.Scan
import Intake.Proofs.CommandLine.Terminal
import Intake.Settings.Yaml.Assembly
import Intake.Settings.Yaml.Report

set_option autoImplicit false

/-!
The host of a program that is started on a terminal, in a directory of files.
-/

namespace Intake

/-- Some files beside those of the directory are no texts. -/
@[reducible] def terminal (undecodable : List (Text × Text)) : Host where
  entry := Directory.lookUp undecodable
  lookup_of_entry := Directory.lookup_of_lookUp
  words? := Words.scan?
  int? := Index.parse?
  message := Screen.message
  note s := (Markup.render s).map fun _ => ()
  panel := Screen.panel
  table := Screen.table
  message_untagged := Screen.message_untagged
  note_untagged h := by
    obtain ⟨t, rendered⟩ := Markup.render_untagged h
    rw [rendered]
    rfl
  foreign_message := Screen.foreign_message
  foreign_note s := (Markup.foreign_render s).map _
  foreign_panel := Screen.foreign_panel
  foreign_table := Screen.foreign_table
  read := Yaml.Document.read
  refusal := SettingRefusal.reportAll
  root_of_read_nil h := by
    cases h
    rfl

instance : Host := terminal []

end Intake
