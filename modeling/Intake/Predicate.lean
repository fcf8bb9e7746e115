import Intake.Answers.Basic
import Intake.Query.Match

set_option autoImplicit false

/-!
Conditions on answers: queries that hold when they match anything, combined by "all" and "any". A
query is read only when it is evaluated.
-/

namespace Intake

def Answers.satisfies (d : Answers) (query : Text) : Except Fault Bool :=
  (Query.find query d.tree).map fun vs => !vs.isEmpty

/-- A query that starts at the root of the document. -/
structure RootedQuery where
  text : Text
  rooted : (Text.strip text).head? = some '$'
  deriving DecidableEq

namespace RootedQuery

def parse (s : Text) : Except Fault RootedQuery :=
  if h : (Text.strip s).head? = some '$' then .ok ⟨s, h⟩ else .error (.unrootedQuery s)

/-- Holds when anything is stored at a path. -/
def ofPath (p : Path) : Except Fault RootedQuery := parse p.query

end RootedQuery

/-- A tree of queries; an inner node has at least one child. -/
inductive Predicate where
  | leaf (q : RootedQuery)
  | all (first : Predicate) (more : List Predicate)
  | any (first : Predicate) (more : List Predicate)

namespace Predicate

inductive NodeType where
  | leaf
  | all
  | any
  deriving DecidableEq

namespace NodeType

def name : NodeType → Text
  | leaf => "leaf"
  | all => "and"
  | any => "or"

def parse (s : Text) : Except Fault NodeType :=
  match [leaf, all, any].find? fun t => t.name = s with
  | some t => .ok t
  | none => .error (.unknownName s "PredicateExpressionNodeType")

end NodeType

/-- A leaf holds one query and nothing else, an inner node children and no query. -/
def ofParts (type : NodeType) (query : Option RootedQuery) (children : List Predicate) :
    Except Fault Predicate :=
  match type, query, children with
  | .leaf, some q, [] => .ok (leaf q)
  | .leaf, _, _ => .error .leafShape
  | .all, none, c :: cs => .ok (all c cs)
  | .any, none, c :: cs => .ok (any c cs)
  | t, _, _ => .error (.branchShape t.name)

mutual

/-- The queries of a tree from left to right. -/
def leaves : Predicate → List RootedQuery
  | leaf q => [q]
  | all first more => leaves first ++ leavesOf more
  | any first more => leaves first ++ leavesOf more

def leavesOf : List Predicate → List RootedQuery
  | [] => []
  | p :: ps => leaves p ++ leavesOf ps

end

mutual

/-- Children are evaluated from the left until one decides. -/
def holds (d : Answers) : Predicate → Except Fault Bool
  | leaf q => d.satisfies q.text
  | all first more => do if ← holds d first then holdsAll d more else return false
  | any first more => do if ← holds d first then return true else holdsAny d more

def holdsAll (d : Answers) : List Predicate → Except Fault Bool
  | [] => .ok true
  | p :: ps => do if ← holds d p then holdsAll d ps else return false

def holdsAny (d : Answers) : List Predicate → Except Fault Bool
  | [] => .ok false
  | p :: ps => do if ← holds d p then return true else holdsAny d ps

end

/-- A tree as it is written down, before its parts have been checked. -/
inductive Draft where
  | query (text : Text)
  | atPath (text : Text)
  | node (type : Text) (query : Option Text) (children : List Draft)

mutual

/-- A node's type is checked first, then its query, then its children from the left. -/
def Draft.build : Draft → Except Fault Predicate
  | .query text => (RootedQuery.parse text).map leaf
  | .atPath text => do return leaf (← RootedQuery.ofPath (← Path.parse text))
  | .node type query children => do
    let nodeType ← NodeType.parse type
    let rooted ← match query with
      | none => pure none
      | some text => (RootedQuery.parse text).map some
    ofParts nodeType rooted (← buildEach children)

def buildEach : List Draft → Except Fault (List Predicate)
  | [] => .ok []
  | c :: cs => do
    let first ← c.build
    let others ← buildEach cs
    return first :: others

end

end Predicate
end Intake
