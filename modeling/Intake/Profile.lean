import Intake.Path
import Intake.Scalar

set_option autoImplicit false

/-!
The places where a profile keeps who the applicant is.
-/

namespace Intake.Profile

def applicantKey : Text := "applicant"

def applicant : Path := Path.root.field applicantKey
def name : Path := applicant.field "name"
def firstName : Path := name.field Scalar.firstName.name
def middleName : Path := name.field Scalar.middleName.name
def lastName : Path := name.field Scalar.lastName.name

end Intake.Profile
