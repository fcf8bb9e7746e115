import Intake.Query.Comparison
import Intake.Query.Grammar

set_option autoImplicit false

/-!
The values that a route leads to, in order. A query is made ready by guarding the operands of its
filters: what is guarded and asks for something incomparable only counts as false for the value at
hand.
-/

namespace Intake.Query

abbrev Matches := Except MatchFault (List Json)

/-- The matches from each value, one after the other. -/
def flatMapM (f : Json → Matches) : List Json → Matches
  | [] => .ok []
  | v :: vs => do
    let first ← f v
    let others ← flatMapM f vs
    return first ++ others

def member (ms : Members) (name : Text) : List Json := (Members.get? name ms).toList

/-- Only objects have fields. -/
def fields (names : List Text) : Json → List Json
  | .object ms => if names.contains "*" then ms.map Prod.snd else names.flatMap (member ms)
  | _ => []

/-- Negative indices count from the end. -/
def itemAt (xs : List Json) (i : Int) : List Json :=
  let position := if i < 0 then i + xs.length else i
  if position < 0 then [] else xs[position.toNat]?.toList

def characters (s : Text) : List Json := s.map fun c => .text [c]

/-- Texts have their characters. Zeros and `false` have nothing; other numbers and `true` cannot be
asked. -/
def indices (is : List Int) : Json → Matches
  | .array xs => .ok (is.flatMap (itemAt xs))
  | .object _ => .ok []
  | .atom (.text s) => .ok (is.flatMap (itemAt (characters s)))
  | .atom .null => .ok []
  | .atom (.bool b) => if b then .error .incomparable else .ok []
  | .atom (.int n) => if n = 0 then .ok [] else .error .incomparable
  | .atom (.double x) => if x.same (.finite false 0) then .ok [] else .error .incomparable

/-- A value other than an array counts as an array of itself alone, null as an empty one. -/
def asItems : Json → List Json
  | .array xs => xs
  | .atom .null => []
  | v => [v]

/-- A bound of a slice, between the ends that its direction has. -/
def clampBound (length low high : Int) (i : Int) : Int :=
  let position := if i < 0 then i + length else i
  if position < low then low else if high < position then high else position

/-- The positions from `start` in strides of `stride` that come before `stop`. -/
def positions (start stop stride : Int) : List Int :=
  let distance := if 0 < stride then stop - start else start - stop
  let count := (distance + stride.natAbs - 1) / stride.natAbs
  (List.range count.toNat).map fun (k : Nat) => start + k * stride

def sliced (start stop stride : Option Int) (xs : List Json) : Matches :=
  let length : Int := xs.length
  let pace := stride.getD 1
  if pace = 0 then .error .zeroStride
  else
    let (low, high) := if 0 < pace then (0, length) else (-1, length - 1)
    let first := start.elim (if 0 < pace then low else high) (clampBound length low high)
    let last := stop.elim (if 0 < pace then high else low) (clampBound length low high)
    .ok ((positions first last pace).flatMap fun i => xs[i.toNat]?.toList)

def slice (start stop stride : Option Int) (v : Json) : Matches :=
  if v.isNull then .ok [] else sliced start stop stride (asItems v)

/-- What a filter chooses from. -/
def candidates : Json → List Json
  | .array xs => xs
  | .object ms => ms.map Prod.snd
  | .atom _ => []

mutual

/-- First the matches at a value, then those below each of its members or elements. -/
def descend (f : Json → Matches) : Json → Matches
  | .atom a => f (.atom a)
  | .array xs => do
    let here ← f (.array xs)
    let below ← descendItems f xs
    return here ++ below
  | .object ms => do
    let here ← f (.object ms)
    let below ← descendMembers f ms
    return here ++ below

def descendItems (f : Json → Matches) : List Json → Matches
  | [] => .ok []
  | v :: vs => do
    let first ← descend f v
    let others ← descendItems f vs
    return first ++ others

def descendMembers (f : Json → Matches) : List (Text × Json) → Matches
  | [] => .ok []
  | (_, v) :: ms => do
    let first ← descend f v
    let others ← descendMembers f ms
    return first ++ others

end

/-- What becomes of an operand that asks for something incomparable. -/
abbrev Skipping := Condition → Except MatchFault Bool

/-- It counts as false. -/
def skipQuietly : Skipping := fun _ => .ok false

/-- Only what cannot be compared is skipped. -/
def orSkip (skip : Except MatchFault Bool) : Except MatchFault Bool → Except MatchFault Bool
  | .error .incomparable => skip
  | x => x

def selectM (f : Json → Except MatchFault Bool) : List Json → Matches
  | [] => .ok []
  | v :: vs => do
    let chosen ← f v
    let others ← selectM f vs
    return if chosen then v :: others else others

mutual

def Selector.run (skip : Skipping) (v : Json) : Selector → Matches
  | .fields names => .ok (fields names v)
  | .indices is => indices is v
  | .each => .ok (asItems v)
  | .slice start stop stride => Query.slice start stop stride v
  | .filter c => selectM (fun w => c.run skip w) (candidates v)

/-- Operands are tried from the left until one does not hold. -/
def Condition.run (skip : Skipping) (v : Json) : Condition → Except MatchFault Bool
  | .matched r => (r.run skip v).map fun ws => !ws.isEmpty
  | .unmatched r => (r.run skip v).map List.isEmpty
  | .compare r op l => (r.run skip v).bind (anyHolds op l)
  | .both a b => do if ← a.run skip v then b.run skip v else return false
  | .guarded c => orSkip (skip c) (c.run skip v)

/-- All that the left part leads to is found before the right part starts from any of it. -/
def Route.run (skip : Skipping) (v : Json) : Route → Matches
  | .root => .ok [v]
  | .this => .ok [v]
  | .select s => s.run skip v
  | .child left right => do
    let found ← left.run skip v
    flatMapM (fun w => right.run skip w) found
  | .descend left right => do
    let found ← left.run skip v
    flatMapM (descend fun w => right.run skip w) found
  | .common _ _ => .error .common

end

mutual

def Selector.guard : Selector → Selector
  | .fields names => .fields names
  | .indices is => .indices is
  | .each => .each
  | .slice start stop stride => .slice start stop stride
  | .filter c => .filter c.guard

/-- Each operand gets a guard, unless it has one. -/
def Condition.guard : Condition → Condition
  | .matched r => .guarded (.matched r.guard)
  | .unmatched r => .guarded (.unmatched r.guard)
  | .compare r op l => .guarded (.compare r.guard op l)
  | .both a b => .both a.guard b.guard
  | .guarded c => c.guard

/-- A route with the operands of its filters guarded, those in operands of other filters too. -/
def Route.guard : Route → Route
  | .root => .root
  | .this => .this
  | .select s => .select s.guard
  | .child left right => .child left.guard right.guard
  | .descend left right => .descend left.guard right.guard
  | .common left right => .common left.guard right.guard

end

/-- The values to which a route leads once it is guarded. -/
def Route.follow (skip : Skipping) (v : Json) (r : Route) : Matches := r.guard.run skip v

def MatchFault.toFault : MatchFault → Fault
  | .incomparable => .incomparable
  | .zeroStride => .zeroStride
  | .common => .commonRoute
  | .unreported cause => cause

def findWith (skip : Skipping) (query : Text) (document : Json) : Except Fault (List Json) := do
  let r ← parse query
  (r.follow skip document).mapError MatchFault.toFault

def find (query : Text) (document : Json) : Except Fault (List Json) :=
  findWith skipQuietly query document

end Intake.Query
