import Intake.Settings.Yaml.Binary
import Intake.Settings.Yaml.Node
import Intake.Settings.Yaml.Number
import Intake.Settings.Yaml.Value
import Intake.Text.Quoted

set_option autoImplicit false

/-!
How nodes turn into values: from the root on, those of one depth before those below them, so that of
two faults the one nearer to the root counts.
-/

namespace Intake.Yaml

namespace Value

def place? : Value → Option Double.Place
  | truth b => some (.point (Double.unitsOfInt (if b then 1 else 0)))
  | int n => some (.point (Double.unitsOfInt n))
  | double x => x.place?
  | _ => none

/-- Whether two values are one key. Numbers are the same whatever their kind. -/
def sameKey (v w : Value) : Bool := v = w || (v.place?.isSome && v.place? = w.place?)

def isCollection : Value → Bool
  | collection _ => true
  | _ => false

end Value

/-- A value under a key takes the place of an earlier one. -/
def putPair (k v : Value) : List (Value × Value) → List (Value × Value)
  | [] => [(k, v)]
  | (l, w) :: rest => if l.sameKey k then (l, v) :: rest else (l, w) :: putPair k v rest

structure Assembly where
  nodes : Array Node
  values : Array (Option Value)
  contents : Array (Option Contents)
  /-- Collections that are still to be filled, the next one first. -/
  waiting : List Nat

abbrev Assemble (α : Type) := StateT Assembly (Except Fault) α

namespace Assemble

def refuse {α : Type} : Assemble α := throw (.malformedSettings [])

def nodeAt (n : Nat) : Assemble Node := do
  return ((← get).nodes[n]?).getD (.scalar .null [])

def setNode (n : Nat) (v : Node) : Assemble Unit :=
  modify fun a => { a with nodes := a.nodes.setIfInBounds n v }

def setContents (n : Nat) (c : Contents) : Assemble Unit :=
  modify fun a => { a with contents := a.contents.setIfInBounds n (some c) }

def tagAt (n : Nat) : Assemble Tag := do return (← nodeAt n).tag

/-- The text of a scalar. A mapping has the text of its default value. -/
def scalarText : Nat → Nat → Assemble Text
  | 0, _ => throw .endlessValue
  | fuel + 1, n => do
    match ← nodeAt n with
    | .scalar _ s => return s
    | .sequence _ _ => refuse
    | .mapping _ pairs =>
      match ← pairs.findM? fun p => return (← tagAt p.1) = .value with
      | some (_, v) => scalarText fuel v
      | none => refuse

def truth (s : Text) : Except Fault Bool :=
  let word := s.map CodePoint.toLower
  if word = "yes" || word = "true" || word = "on" then .ok true
  else if word = "no" || word = "false" || word = "off" then .ok false
  else .error .unknownTruthWord

def moment (s : Text) : Except Fault Moment :=
  match SpeltMoment.parse? (if s.getLast? = some '\n' then s.dropLast else s) with
  | none => .error .unreadableMoment
  | some m => m.read

/-- The date of a node. It cannot be a mapping's default value. -/
def momentAt (n : Nat) (s : Text) : Assemble Value := do
  match ← nodeAt n with
  | .mapping _ _ => throw .incomparable
  | _ => return .moment (← moment s)

/-- Puts off what a collection holds. -/
def collection (n : Nat) : Assemble Value := do
  modify fun a => { a with waiting := a.waiting ++ [n] }
  return .collection n

def newValue (n : Nat) : Assemble Value := do
  let text := scalarText ((← get).nodes.size + 1) n
  match ← tagAt n with
  | .null => do
    let _ ← text
    return .null
  | .truth => return .truth (← truth (← text))
  | .int => return .int (← readInt (← text))
  | .double => return .double (← readDouble (← text))
  | .moment => momentAt n (← text)
  | .binary => return .bytes (← readBytes (← text))
  | .text => return .text (← text)
  | .sequence | .mapping | .set | .orderedMapping | .pairs => collection n
  | t => throw (.malformedSettings
      ("could not determine a constructor for the tag " ++ Text.quoted t.name))

/-- Each node has one value. -/
def value (n : Nat) : Assemble Value := do
  match (← get).values[n]?.join with
  | some v => return v
  | none =>
    let v ← newValue n
    modify fun a => { a with values := a.values.setIfInBounds n (some v) }
    return v

def pairsAt (n : Nat) : Assemble (List (Nat × Nat)) := do
  match ← nodeAt n with
  | .mapping _ pairs => return pairs
  | _ => refuse

def setPairs (n : Nat) (pairs : List (Nat × Nat)) : Assemble Unit := do
  setNode n (.mapping (← tagAt n) pairs)

/-- The mappings that a merge mark names, the one that counts most last. -/
def mergeSources (n : Nat) : Assemble (List Nat) := do
  match ← nodeAt n with
  | .mapping _ _ => return [n]
  | .sequence _ items => return items
  | .scalar _ _ => refuse

mutual

/-- Replaces merge marks from a pair on by the pairs of the mappings they name, which come before
the mapping's own. A mark of a default value becomes a text. There is no more than a number of merge
marks in all, and of other pairs before the next one. -/
def flatten (marks steps n i : Nat) (merged : List (Nat × Nat)) : Assemble Unit := do
  let pairs ← pairsAt n
  match pairs[i]? with
  | none => if merged = [] then pure () else setPairs n (merged ++ pairs)
  | some (k, v) =>
    let tag ← tagAt k
    if tag = .merge then
      match marks with
      | 0 => throw .endlessValue
      | marks + 1 =>
        setPairs n (pairs.eraseIdx i)
        let more ← flattenEach marks (← mergeSources v)
        flatten marks (← pairsAt n).length n i (merged ++ more.reverse.flatten)
    else
      if tag = .value then setNode k ((← nodeAt k).withTag .text)
      match steps with
      | 0 => throw .endlessValue
      | steps + 1 => flatten marks steps n (i + 1) merged
termination_by (marks, 0, steps)

/-- The pairs of mappings without merge marks. -/
def flattenEach (marks : Nat) : List Nat → Assemble (List (List (Nat × Nat)))
  | [] => return []
  | n :: rest => do
    flatten marks (← pairsAt n).length n 0 []
    let pairs ← pairsAt n
    return pairs :: (← flattenEach marks rest)
termination_by ns => (marks, 1, ns.length)

end

/-- The values of pairs. A collection is no key. -/
def pairValues : List (Nat × Nat) → List (Value × Value) → Assemble (List (Value × Value))
  | [], done => return done
  | (k, v) :: rest, done => do
    let key ← value k
    if key.isCollection then refuse
    else pairValues rest (putPair key (← value v) done)

def mappingPairs (n : Nat) : Assemble (List (Value × Value)) := do
  let marks := (← get).nodes.toList.foldr (fun node n => node.size + n) 0
  flatten marks (← pairsAt n).length n 0 []
  pairValues (← pairsAt n) []

def itemsAt (n : Nat) : Assemble (List Nat) := do
  match ← nodeAt n with
  | .sequence _ items => return items
  | _ => refuse

/-- An item that is a mapping of one pair. -/
def singlePair (n : Nat) : Assemble (Value × Value) := do
  match ← pairsAt n with
  | [(k, v)] => return (← value k, ← value v)
  | _ => refuse

def fill (n : Nat) : Assemble Unit := do
  match ← tagAt n with
  | .mapping => setContents n (.mapping (← mappingPairs n))
  | .set => setContents n (.set ((← mappingPairs n).map Prod.fst))
  | .orderedMapping | .pairs =>
    setContents n (.pairs (← (← itemsAt n).mapM singlePair))
  | _ => setContents n (.sequence (← (← itemsAt n).mapM value))

/-- Fills what waits. Each node waits at most once. -/
def fillAll : Nat → Assemble Unit
  | 0 => pure ()
  | fuel + 1 => do
    match (← get).waiting with
    | [] => pure ()
    | n :: rest =>
      modify fun a => { a with waiting := rest }
      fill n
      fillAll fuel

end Assemble

namespace Document

/-- Characters that may not stand in a file at all. -/
def isForbidden (c : CodePoint) : Bool :=
  let n := c.toNat
  !(n = 0x9 || n = 0xA || n = 0xD || (0x20 ≤ n && n ≤ 0x7E) || n = 0x85
    || (0xA0 ≤ n && n ≤ 0xD7FF) || (0xE000 ≤ n && n ≤ 0xFFFD) || 0x10000 ≤ n)

def ofGraph (g : Graph) : Except Fault Document :=
  match g.root with
  | none => .ok ⟨.null, #[]⟩
  | some root =>
    let start : Assembly := ⟨g.nodes, g.nodes.map fun _ => none, g.nodes.map fun _ => none, []⟩
    let build : Assemble Value := do
      let v ← Assemble.value root
      Assemble.fillAll (g.nodes.size + 1)
      return v
    (build.run start).map fun r => ⟨r.1, r.2.contents⟩

/-- A carriage return ends a line, alone or with a line feed behind it. -/
def withLineFeeds : Text → Text
  | '\r' :: '\n' :: rest => '\n' :: withLineFeeds rest
  | '\r' :: rest => '\n' :: withLineFeeds rest
  | c :: rest => c :: withLineFeeds rest
  | [] => []

def read (s : Text) : Except Fault Document :=
  if s.any isForbidden then malformed
  else do ofGraph (← Graph.parse (withLineFeeds s))

end Document
end Intake.Yaml
