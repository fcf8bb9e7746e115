import Intake.Text.CodePoint

set_option autoImplicit false

/-!
Options on a command line, and the words beside them. How they are told apart is left to a library,
and so is how a number is read.
-/

namespace Intake

structure OptionSpec where
  long : Text
  short : Option CodePoint
  takesValue : Bool

/-- An option that was given, under its long name, with its value. -/
structure Given where
  long : Text
  value : Option Text
  deriving DecidableEq

/-- The options and the other words. -/
structure Words where
  options : List Given
  others : List Text

namespace Words

def has (w : Words) (spec : OptionSpec) : Bool := w.options.any fun g => g.long = spec.long

/-- Of an option that is given more than once the last value counts. -/
def valueOf? (w : Words) (spec : OptionSpec) : Option Text :=
  (w.options.filter fun g => g.long = spec.long).getLast?.bind Given.value

def add (g : List Given) (w : Words) : Words := { w with options := g ++ w.options }

end Words

def OptionSpec.help : OptionSpec := ⟨"--help", none, false⟩

class OptionReader where
  /-- The options and the other words, unless they are misused. Where the two are mixed, options may
  stand behind other words. -/
  words? : (specs : List OptionSpec) → (mixed : Bool) → List Text → Option Words
  int? : Text → Option Int

end Intake
