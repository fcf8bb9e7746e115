import Intake.CommandLine.Directory
import Intake.CommandLine.Display
import Intake.CommandLine.Options
import Intake.Settings.Refusal

set_option autoImplicit false

/-!
What a program leaves to the system that it runs on and to the libraries that it is built from.
-/

namespace Intake

class Host extends FileSystem, OptionReader, Display, SettingsReader

end Intake
