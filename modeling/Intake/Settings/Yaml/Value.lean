import Intake.Decimal.Double
import Intake.Settings.Yaml.Moment

set_option autoImplicit false

/-!
The values of a settings file. A collection is known by the number of its node, for it may hold
itself.
-/

namespace Intake.Yaml

inductive Value where
  | null
  | truth (b : Bool)
  | int (n : Int)
  | double (x : Double)
  | moment (m : Moment)
  | bytes (bs : List UInt8)
  | text (s : Text)
  | collection (node : Nat)
  deriving DecidableEq

/-- What a collection holds. -/
inductive Contents where
  | sequence (items : List Value)
  | mapping (pairs : List (Value × Value))
  | set (items : List Value)
  | pairs (pairs : List (Value × Value))

/-- A settings file: its root and what its collections hold. -/
structure Document where
  root : Value
  contents : Array (Option Contents)

def Document.contentsOf? (d : Document) : Value → Option Contents
  | .collection n => d.contents[n]?.join
  | _ => none

end Intake.Yaml
