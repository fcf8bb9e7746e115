import Intake.Json.Shown
import Intake.Query.Basic

set_option autoImplicit false

/-!
Queries as they are shown in a log: as they are written, with the conditions of filters spelt out
part by part. Guards are not shown.
-/

namespace Intake.Query

def between (separator : Text) (items : List Text) : Text := List.intercalate separator items

section Spelt

def boundSpelt (bound : Option Int) : Text := bound.elim "None" Numeral.ofInt

/-- Numbers in parentheses, with a comma behind a single one. -/
def rowSpelt (is : List Int) : Text :=
  "(" ++ between ", " (is.map Numeral.ofInt) ++ (if is.length = 1 then ",)" else ")")

def Literal.spelt : Literal → Text
  | .name s => Text.quoted s
  | .int n => Numeral.ofInt n
  | .double x => x.written shownLayout
  | .bool b => (Atom.bool b).shown

/-- The sign of a comparator between quotes. -/
def Comparator.spelt (op : Comparator) : Text := Text.quoted op.symbol

mutual

def Selector.spelt : Selector → Text
  | .fields names => "Fields(" ++ between "," (names.map Text.quoted) ++ ")"
  | .indices is => "Index(indices=" ++ rowSpelt is ++ ")"
  | .each => "Slice(start=None,end=None,step=None)"
  | .slice start stop stride =>
    "Slice(start=" ++ boundSpelt start ++ ",end=" ++ boundSpelt stop ++ ",step=" ++
      boundSpelt stride ++ ")"
  | .filter c => "Filter([" ++ c.spelt ++ "])"

/-- The operands of a condition. -/
def Condition.spelt : Condition → Text
  | .matched r => "Expression(" ++ r.spelt ++ ")"
  | .unmatched r => "Expression(" ++ r.spelt ++ " '!' None)"
  | .compare r op literal =>
    "Expression(" ++ r.spelt ++ " " ++ op.spelt ++ " " ++ literal.spelt ++ ")"
  | .both a b => a.spelt ++ ", " ++ b.spelt
  | .guarded c => c.spelt

def Route.spelt : Route → Text
  | .root => "Root()"
  | .this => "This()"
  | .select s => s.spelt
  | .child left right => "Child(" ++ left.spelt ++ ", " ++ right.spelt ++ ")"
  | .descend left right => "Descendants(" ++ left.spelt ++ ", " ++ right.spelt ++ ")"
  | .common left right => "Intersect(" ++ left.spelt ++ ", " ++ right.spelt ++ ")"

end

end Spelt

section Shown

/-- Signs that a name may hold only between quotes. -/
def nameSigns : Text := "*.[]()$,:|&~"

def nameShown (s : Text) : Text := if s.any nameSigns.contains then Text.quoted s else s

def Literal.shown : Literal → Text
  | .name s => s
  | l => l.spelt

/-- A bound of zero is left out. -/
def boundShown (bound : Option Int) : Text :=
  match bound with
  | some i => if i = 0 then [] else Numeral.ofInt i
  | none => []

/-- A bound behind its colon. -/
def colonShown (bound : Option Int) : Text :=
  match boundShown bound with
  | [] => []
  | s => ":" ++ s

def Selector.shown : Selector → Text
  | .fields names => between "," (names.map nameShown)
  | .indices is => "[" ++ between "," (is.map Numeral.ofInt) ++ "]"
  | .each | .slice none none none => "[*]"
  | .slice start stop stride =>
    "[" ++ boundShown start ++ colonShown stop ++ colonShown stride ++ "]"
  | .filter c => "[?[" ++ c.spelt ++ "]]"

def Route.shown : Route → Text
  | .root => "$"
  | .this => "\x60this\x60"
  | .select s => s.shown
  | .child left right => left.shown ++ "." ++ right.shown
  | .descend left right => left.shown ++ ".." ++ right.shown
  | .common left right => left.shown ++ "&" ++ right.shown

def Condition.shown : Condition → Text
  | .matched r => r.shown
  | .unmatched r => r.shown ++ " ! None"
  | .compare r op literal => r.shown ++ " " ++ op.symbol ++ " " ++ literal.shown
  | .both a b => a.shown ++ ", " ++ b.shown
  | .guarded c => c.shown

end Shown

/-- What a log says of an operand that was skipped. -/
def Condition.skipNote (c : Condition) : Text :=
  "Filter " ++ c.shown ++ " skipped incomparable value"

end Intake.Query
