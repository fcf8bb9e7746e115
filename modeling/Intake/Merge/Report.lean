import Intake.Fault
import Intake.Json.Basic

set_option autoImplicit false

/-!
What a merge of several versions could not copy, version by version.
-/

namespace Intake

structure VersionConflicts where
  version : Nat
  conflicts : List Text
  deriving DecidableEq

namespace VersionConflicts

def ofIndex (version : Int) (conflicts : List Text) : Except Fault VersionConflicts :=
  if version < 0 then .error .invalidRecord else .ok ⟨version.toNat, conflicts⟩

def toJson (v : VersionConflicts) : Json :=
  .object [("version_index", .int v.version), ("conflicts", .array (v.conflicts.map .text))]

end VersionConflicts

structure ConflictReport where
  versions : List VersionConflicts
  deriving DecidableEq

namespace ConflictReport

def conflicts (r : ConflictReport) : List Text := r.versions.flatMap VersionConflicts.conflicts

def total (r : ConflictReport) : Nat := r.versions.foldr (fun v n => v.conflicts.length + n) 0

def hasConflicts (r : ConflictReport) : Bool := 0 < r.total

/-- Each path once, where it comes up first. -/
def conflictedPaths (r : ConflictReport) : List Text := r.conflicts.eraseDups

def toJson (r : ConflictReport) : Json :=
  .object [("versions", .array (r.versions.map VersionConflicts.toJson))]

end ConflictReport
end Intake
