import Intake.Merge.Report
import Intake.Merge.Walk

set_option autoImplicit false

/-!
Carrying answers from one version of a program to the next. Snapshots are merged in order into
empty answers, so that earlier ones keep their values.
-/

namespace Intake.Answers

/-- The chosen locale of the first snapshot that has one. -/
def firstLocale (snapshots : List Answers) : Option Locale := snapshots.findSome? Answers.locale

/-- Merges snapshots one after the other. A merge that fails ends it all. -/
def mergeEach (d : Answers) : Nat → List Answers → Except Fault (Answers × List VersionConflicts)
  | _, [] => .ok (d, [])
  | i, s :: rest =>
    match (Edit.merge s).run d with
    | .error e _ => .error e
    | .ok conflicts new =>
      (mergeEach new (i + 1) rest).map fun r => (r.1, ⟨i, conflicts.map Path.text⟩ :: r.2)

def ofVersions (snapshots : List Answers) : Except Fault (Answers × ConflictReport) :=
  (mergeEach { empty with locale := firstLocale snapshots } 0 snapshots).map fun r => (r.1, ⟨r.2⟩)

end Intake.Answers
