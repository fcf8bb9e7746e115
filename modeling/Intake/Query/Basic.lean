import Intake.Json.Basic

set_option autoImplicit false

/-!
Queries over a document. A route leads from one value to any number of values: from the value itself
by selectors, one after the other, and by descents, which try a route at a value and at everything
below it.
-/

namespace Intake.Query

inductive Comparator where
  | eq
  /-- The same, written with two signs. -/
  | twoEq
  | ne
  | lt
  | le
  | gt
  | ge
  deriving DecidableEq

def Comparator.symbol : Comparator → Text
  | .eq => "="
  | .twoEq => "=="
  | .ne => "!="
  | .lt => "<"
  | .le => "<="
  | .gt => ">"
  | .ge => ">="

inductive Literal where
  | name (s : Text)
  | int (n : Int)
  | double (x : Double)
  | bool (b : Bool)
  deriving DecidableEq

mutual

inductive Selector where
  /-- Members of an object by name; the name `*` stands for all of them. -/
  | fields (names : List Text)
  | indices (is : List Int)
  /-- All elements of an array. -/
  | each
  | slice (start stop stride : Option Int)
  | filter (c : Condition)

inductive Condition where
  | matched (r : Route)
  | unmatched (r : Route)
  | compare (r : Route) (op : Comparator) (literal : Literal)
  | both (a b : Condition)
  /-- An operand that may ask for something incomparable. It is not written but comes in when a
  query is made ready. -/
  | guarded (c : Condition)

inductive Route where
  /-- The value at which the route starts, as the root of the document. -/
  | root
  /-- The value at which the route starts. -/
  | this
  | select (s : Selector)
  | child (left right : Route)
  | descend (left right : Route)
  /-- What two routes have in common. It can be written but not asked for. -/
  | common (left right : Route)

end

namespace Route

/-- What stands between two routes. -/
inductive Joint where
  | dot
  | descent
  | both
  deriving DecidableEq

/-- A route that may go on. The sign for both binds more tightly than a dot, and a dot more tightly
than a descent, so that a descent takes the dotted routes behind it along. -/
structure Open where
  descents : Option Route
  steps : Option Route
  last : Route

namespace Open

def ofRoute (r : Route) : Open := ⟨none, none, r⟩

def stepped (o : Open) : Route := o.steps.elim o.last fun r => .child r o.last

def route (o : Open) : Route := o.descents.elim o.stepped fun r => .descend r o.stepped

def add (o : Open) (joint : Joint) (r : Route) : Open :=
  match joint with
  | .both => { o with last := .common o.last r }
  | .dot => { o with steps := some o.stepped, last := r }
  | .descent => ⟨some o.route, none, r⟩

/-- Brackets start from all that a route has led to so far. -/
def bracket (o : Open) (s : Selector) : Open := .ofRoute (.child o.route (.select s))

end Open
end Route
end Intake.Query
