import Intake.Json.Shown
import Intake.Merge.Versions

set_option autoImplicit false

/-!
Merges as a log shows them: a note for each conflict, with the value that stays and the one that is
left out.
-/

namespace Intake.Answers

def shownAt (d : Answers) (p : Path) : Text := (d.get? p).elim [] Json.shown

/-- A note on a conflict between merged answers and a snapshot. -/
def conflictNote (merged snapshot : Answers) (p : Path) : Text :=
  "Merge conflict at " ++ p.text ++ ": keeping " ++ merged.shownAt p ++ " over "
    ++ snapshot.shownAt p

def mergeNotes (d : Answers) : List Answers → List Text
  | [] => []
  | s :: rest =>
    match (Edit.merge s).run d with
    | .error _ _ => []
    | .ok conflicts new => conflicts.map (conflictNote new s) ++ mergeNotes new rest

/-- Notes on the merge of several snapshots, in the order in which they are merged. -/
def versionNotes (snapshots : List Answers) : List Text := mergeNotes empty snapshots

end Intake.Answers
