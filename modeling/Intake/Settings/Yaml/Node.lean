import Intake.Settings.Yaml.Tag
import Intake.Settings.Yaml.Token

set_option autoImplicit false

/-!
The nodes of a settings file, numbered as they begin. A collection lists the numbers of what it
holds, so that an alias is the number of the node it stands for, which may even be one around it.
-/

namespace Intake.Yaml

inductive Node where
  | scalar (tag : Tag) (text : Text)
  | sequence (tag : Tag) (items : List Nat)
  | mapping (tag : Tag) (pairs : List (Nat × Nat))

namespace Node

def tag : Node → Tag
  | scalar t _ => t
  | sequence t _ => t
  | mapping t _ => t

def withTag (t : Tag) : Node → Node
  | scalar _ s => scalar t s
  | sequence _ items => sequence t items
  | mapping _ pairs => mapping t pairs

/-- The number of nodes that a node lists, and one for itself. -/
def size : Node → Nat
  | scalar _ _ => 1
  | sequence _ items => items.length + 1
  | mapping _ pairs => 2 * pairs.length + 1

end Node

/-- Why no more nodes are read: a token stands where it cannot, or there are no more tokens. -/
inductive Stop where
  | misplaced
  | cut
  deriving DecidableEq

structure Draft where
  tokens : List Token
  nodes : Array Node
  anchors : List (Text × Nat)
  handles : List (Text × Text)

abbrev Build (α : Type) := StateT Draft (Except Stop) α

/-- Where a node stands: on indented lines, on those behind a key, or inside brackets. Behind a key
the items of a sequence need not be indented further. -/
inductive Surroundings where
  | block
  | blockValue
  | flow
  deriving DecidableEq

/-- The tag and the anchor in front of a node. -/
structure Properties where
  anchor : Option Text
  tag : Option Text

namespace Build

def misplaced {α : Type} : Build α := throw .misplaced

def peek : Build Token := do
  match (← get).tokens with
  | t :: _ => return t
  | [] => throw .cut

def advance : Build Unit := modify fun d => { d with tokens := d.tokens.drop 1 }

/-- Adds a node, whose content may follow later. -/
def add (v : Node) : Build Nat := do
  let n := (← get).nodes.size
  modify fun d => { d with nodes := d.nodes.push v }
  return n

def put (n : Nat) (v : Node) : Build Unit :=
  modify fun d => { d with nodes := d.nodes.setIfInBounds n v }

/-- What is left out counts as an empty plain scalar. -/
def empty : Build Nat := add (.scalar .null [])

/-- The full name of a tag. -/
def tagName (handle : Option Text) (suffix : Text) : Build Text := do
  match handle with
  | none => return suffix
  | some h =>
    match (← get).handles.lookup h with
    | some start => return start ++ suffix
    | none => misplaced

def tag? : Build (Option Text) := do
  match ← peek with
  | .tag h s =>
    advance
    return some (← tagName h s)
  | _ => return none

def anchor? : Build (Option Text) := do
  match ← peek with
  | .anchor a =>
    advance
    return some a
  | _ => return none

/-- A tag and an anchor come in either order. -/
def properties : Build Properties := do
  match ← anchor? with
  | some a => return ⟨some a, ← tag?⟩
  | none =>
    let t ← tag?
    return ⟨← (if t.isSome then anchor? else pure none), t⟩

/-- An anchor names one node only. -/
def announce (anchor : Option Text) (n : Nat) : Build Unit := do
  match anchor with
  | none => pure ()
  | some a =>
    if (← get).anchors.any fun b => b.1 = a then misplaced
    else modify fun d => { d with anchors := (a, n) :: d.anchors }

def resolve (a : Text) : Build Nat := do
  match (← get).anchors.lookup a with
  | some n => return n
  | none => misplaced

/-- The tag of an exclamation mark alone leaves it to the spelling. -/
def scalarTag (tag : Option Text) (plain : Bool) (s : Text) : Tag :=
  match tag with
  | none => if plain then .ofPlain s else .text
  | some t => if t = "!" then .ofPlain s else .ofName t

def collectionTag (tag : Option Text) (own : Tag) : Tag :=
  match tag with
  | none => own
  | some t => if t = "!" then own else .ofName t

mutual

def node : Nat → Surroundings → Build Nat
  | 0, _ => misplaced
  | fuel + 1, place => do
    match ← peek with
    | .alias a =>
      advance
      resolve a
    | _ =>
      let p ← properties
      let n ← empty
      announce p.anchor n
      content fuel place p n
      return n

/-- Reads what the node with a number is. -/
def content : Nat → Surroundings → Properties → Nat → Build Unit
  | 0, _, _, _ => misplaced
  | fuel + 1, place, p, n => do
    let t ← peek
    match t, place with
    | .item, .blockValue =>
      put n (.sequence (collectionTag p.tag .sequence) (← looseItems fuel))
    | .scalar s plain, _ =>
      advance
      put n (.scalar (scalarTag p.tag plain s) s)
    | .openBracket, _ =>
      advance
      put n (.sequence (collectionTag p.tag .sequence) (← flowItems fuel true))
    | .openBrace, _ =>
      advance
      put n (.mapping (collectionTag p.tag .mapping) (← flowPairs fuel true))
    | .sequenceStart, .flow => misplaced
    | .sequenceStart, _ =>
      advance
      put n (.sequence (collectionTag p.tag .sequence) (← items fuel))
    | .mappingStart, .flow => misplaced
    | .mappingStart, _ =>
      advance
      put n (.mapping (collectionTag p.tag .mapping) (← pairs fuel))
    | _, _ =>
      if p.anchor.isSome || p.tag.isSome then put n (.scalar (scalarTag p.tag true []) [])
      else misplaced

/-- A node, unless one of some tokens follows. -/
def optional : Nat → Surroundings → List Token → Build Nat
  | 0, _, _ => misplaced
  | fuel + 1, place, closers => do
    if closers.contains (← peek) then empty else node fuel place

/-- The items of an indented sequence. -/
def items : Nat → Build (List Nat)
  | 0 => misplaced
  | fuel + 1 => do
    match ← peek with
    | .item =>
      advance
      let first ← optional fuel .block [.item, .blockEnd]
      return first :: (← items fuel)
    | .blockEnd =>
      advance
      return []
    | _ => misplaced

/-- Items that stand in the column of the key before them. -/
def looseItems : Nat → Build (List Nat)
  | 0 => misplaced
  | fuel + 1 => do
    match ← peek with
    | .item =>
      advance
      let first ← optional fuel .block [.item, .key, .value, .blockEnd]
      return first :: (← looseItems fuel)
    | _ => return []

/-- What follows a key: a value, if its mark does. -/
def mapped : Nat → Surroundings → List Token → Build Nat
  | 0, _, _ => misplaced
  | fuel + 1, place, closers => do
    match ← peek with
    | .value =>
      advance
      optional fuel place closers
    | _ => empty

def pairs : Nat → Build (List (Nat × Nat))
  | 0 => misplaced
  | fuel + 1 => do
    match ← peek with
    | .key =>
      advance
      let k ← optional fuel .blockValue [.key, .value, .blockEnd]
      let v ← mapped fuel .blockValue [.key, .value, .blockEnd]
      return (k, v) :: (← pairs fuel)
    | .blockEnd =>
      advance
      return []
    | _ => misplaced

/-- Items up to the closing bracket. A key among them starts a mapping of one pair. -/
def flowItems : Nat → Bool → Build (List Nat)
  | 0, _ => misplaced
  | fuel + 1, first => do
    if (← peek) = .closeBracket then
      advance
      return []
    if !first then
      if (← peek) = .comma then advance else misplaced
    match ← peek with
    | .closeBracket =>
      advance
      return []
    | .key =>
      advance
      let n ← empty
      let k ← optional fuel .flow [.value, .comma, .closeBracket]
      let v ← mapped fuel .flow [.comma, .closeBracket]
      put n (.mapping .mapping [(k, v)])
      return n :: (← flowItems fuel false)
    | _ =>
      let n ← node fuel .flow
      return n :: (← flowItems fuel false)

/-- Pairs up to the closing brace. What is no key has an empty value. -/
def flowPairs : Nat → Bool → Build (List (Nat × Nat))
  | 0, _ => misplaced
  | fuel + 1, first => do
    if (← peek) = .closeBrace then
      advance
      return []
    if !first then
      if (← peek) = .comma then advance else misplaced
    match ← peek with
    | .closeBrace =>
      advance
      return []
    | .key =>
      advance
      let k ← optional fuel .flow [.value, .comma, .closeBrace]
      let v ← mapped fuel .flow [.comma, .closeBrace]
      return (k, v) :: (← flowPairs fuel false)
    | _ =>
      let k ← node fuel .flow
      let v ← empty
      return (k, v) :: (← flowPairs fuel false)

end

/-- Directives up to the start of the document. The first version has to be 1, and neither it nor
a handle may be given twice. -/
def directives : Nat → Bool → Build Unit
  | 0, _ => misplaced
  | fuel + 1, versioned => do
    let t ← peek
    advance
    match t with
    | .version major => if versioned || major ≠ 1 then misplaced else directives fuel true
    | .handle h start =>
      if (← get).handles.any fun b => b.1 = h then misplaced
      else
        modify fun d => { d with handles := (h, start) :: d.handles }
        directives fuel versioned
    | .otherDirective => directives fuel versioned
    | .documentStart => pure ()
    | _ => misplaced

def defaultHandles : List (Text × Text) := [("!", "!"), ("!!", coreHandle)]

def isDirective : Token → Bool
  | .version _ | .handle _ _ | .otherDirective => true
  | _ => false

/-- Ends of documents, and then the end of all. -/
def close : Nat → Build Unit
  | 0 => misplaced
  | fuel + 1 => do
    match ← peek with
    | .documentEnd =>
      advance
      close fuel
    | .streamEnd => pure ()
    | _ => misplaced

/-- The number of the root of the only document, if there is one. -/
def document (fuel : Nat) : Build (Option Nat) := do
  let t ← peek
  if t = .streamEnd then return none
  let explicit := isDirective t || t = .documentStart
  if explicit then directives fuel false
  modify fun d => { d with handles := d.handles ++ defaultHandles }
  let t ← peek
  let n ← if explicit && (isDirective t || [.documentStart, .documentEnd, .streamEnd].contains t)
    then empty else node fuel .block
  close fuel
  return some n

end Build

/-- All nodes, and the number of the root. -/
structure Graph where
  nodes : Array Node
  root : Option Nat

/-- A fault of the tokens counts from where they end. -/
def Graph.parse (s : Text) : Except Fault Graph :=
  let (tokens, fault) := tokens s
  match (Build.document (8 * tokens.length + 8)).run ⟨tokens, #[], [], []⟩ with
  | .ok (root, d) => .ok ⟨d.nodes, root⟩
  | .error .misplaced => malformed
  | .error .cut => .error (fault.getD (.malformedSettings []))

end Intake.Yaml
