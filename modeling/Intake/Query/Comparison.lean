import Intake.Fault
import Intake.Query.Basic

set_option autoImplicit false

/-!
Comparing a stored value with a literal. Truth values count as the numbers 0 and 1. Values of
different sorts are unequal and have no order: asking for one is a fault of its own.
-/

namespace Intake.Query

inductive MatchFault where
  /-- A value has neither elements to count nor an order to compare by. -/
  | incomparable
  | zeroStride
  /-- Nothing is known of what two routes have in common. -/
  | common
  /-- The report of a skipped operand could not be shown. -/
  | unreported (cause : Fault)
  deriving DecidableEq

/-- What can be put in order. -/
inductive Sortable where
  | number (place : Option Double.Place)
  | text (s : Text)

def placeOfInt (n : Int) : Option Double.Place := some (.point (Double.unitsOfInt n))

def placeOfBool (b : Bool) : Option Double.Place := placeOfInt (if b then 1 else 0)

def sortable? : Json → Option Sortable
  | .atom (.bool b) => some (.number (placeOfBool b))
  | .atom (.int n) => some (.number (placeOfInt n))
  | .atom (.double x) => some (.number x.place?)
  | .atom (.text s) => some (.text s)
  | _ => none

def Literal.sortable : Literal → Sortable
  | .name s => .text s
  | .int n => .number (placeOfInt n)
  | .double x => .number x.place?
  | .bool b => .number (placeOfBool b)

namespace Sortable

/-- Nothing equals NaN, which has no place. -/
def eq : Sortable → Sortable → Bool
  | .number (some a), .number (some b) => a = b
  | .text a, .text b => a = b
  | _, _ => false

def lt : Sortable → Sortable → Except MatchFault Bool
  | .number (some a), .number (some b) => .ok (a.before b)
  | .number _, .number _ => .ok false
  | .text a, .text b => .ok (a < b)
  | _, _ => .error .incomparable

end Sortable

def ordered (op : Comparator) (a b : Sortable) : Except MatchFault Bool :=
  match op with
  | .eq | .twoEq => .ok (a.eq b)
  | .ne => .ok (!a.eq b)
  | .lt => a.lt b
  | .gt => b.lt a
  | .le => (a.lt b).map (· || a.eq b)
  | .ge => (b.lt a).map (· || a.eq b)

def compareWith (op : Comparator) (v : Json) (l : Literal) : Except MatchFault Bool :=
  match sortable? v with
  | some a => ordered op a l.sortable
  | none =>
    match op with
    | .eq | .twoEq => .ok false
    | .ne => .ok true
    | _ => .error .incomparable

/-- A text that is compared with an integer counts as the integer it shows, if it shows one. -/
def converted? (l : Literal) (v : Json) : Option Json :=
  match l, v with
  | .int _, .atom (.text s) => (Numeral.loose? s).map Json.int
  | _, v => some v

def holdsFor (op : Comparator) (l : Literal) (v : Json) : Except MatchFault Bool :=
  match converted? l v with
  | some w => compareWith op w l
  | none => .ok false

/-- Whether any value compares true. All of them are compared, and none may be incomparable. -/
def anyHolds (op : Comparator) (l : Literal) : List Json → Except MatchFault Bool
  | [] => .ok false
  | v :: vs => do
    let first ← holdsFor op l v
    let others ← anyHolds op l vs
    return first || others

end Intake.Query
