import Intake.Argument.Token

set_option autoImplicit false

/-!
What makes sense as an argument: constants, numbers with a sign, sums of a real and an imaginary
number, and rows, sets and tables of arguments. Elements of sets and keys of tables have to be of a
kind that never changes.
-/

namespace Intake.Argument

/-- What a group of tokens stands for, as far as it matters for what may stand around it. -/
inductive Form where
  | number (imaginary : Bool)
  | signed (imaginary : Bool)
  /-- Any other value that never changes. -/
  | fixed
  /-- A set, a table, or a row that holds one. -/
  | changing
  /-- The word that makes a set, which is no value itself. -/
  | setWord
  deriving DecidableEq

namespace Form

def isFixed : Form → Bool
  | .number _ | .signed _ | .fixed => true
  | .changing | .setWord => false

def isValue (f : Form) : Bool := f ≠ .setWord

/-- A row is fixed if all its elements are. -/
def ofRow (elements : List Form) : Form := if elements.all isFixed then .fixed else .changing

/-- A sum starts with a real number and goes on with an imaginary one without a sign. -/
def plus? (left right : Form) : Option Form :=
  match left, right with
  | .number false, .number true | .signed false, .number true => some .fixed
  | _, _ => none

end Form

/-- Texts behind a text belong to it, and are of the same kind. -/
def moreTexts (bytes : Bool) : List Token → Option (Form × List Token)
  | .text other :: rest => if other = bytes then moreTexts bytes rest else none
  | ts => some (.fixed, ts)

def expect (t : Token) : List Token → Option (Unit × List Token)
  | u :: rest => if u = t then some ((), rest) else none
  | [] => none

def value? (f : Form) : Option Form := if f.isValue then some f else none

mutual

def element : Nat → List Token → Option (Form × List Token)
  | 0, _ => none
  | _, .number imaginary :: rest => some (.number imaginary, rest)
  | _, .text bytes :: rest => moreTexts bytes rest
  | _, .constant :: rest => some (.fixed, rest)
  | _, .setWord :: rest => some (.setWord, rest)
  | _, .openParen :: .closeParen :: rest => some (.fixed, rest)
  | fuel + 1, .openParen :: rest => do
    match ← sum fuel rest with
    | (f, .closeParen :: behind) => some (f, behind)
    | (f, behind) =>
      let (others, behind) ← moreElements fuel .closeParen behind
      some (.ofRow ((← value? f) :: others), behind)
  | _, .openBrace :: .closeBrace :: rest => some (.changing, rest)
  | fuel + 1, .openBrace :: rest => do
    match ← sum fuel rest with
    | (key, .colon :: behind) =>
      let (v, behind) ← sum fuel behind
      let (keys, behind) ← moreEntries fuel behind
      if (key :: keys).all Form.isFixed && v.isValue then some (.changing, behind) else none
    | (f, behind) =>
      let (others, behind) ← moreElements fuel .closeBrace behind
      if (f :: others).all Form.isFixed then some (.changing, behind) else none
  | _, _ => none

/-- An element, or a set made by its word. -/
def made : Nat → List Token → Option (Form × List Token)
  | 0, _ => none
  | fuel + 1, ts => do
    match ← element fuel ts with
    | (.setWord, .openParen :: .closeParen :: rest) => some (.changing, rest)
    | r => some r

def term : Nat → List Token → Option (Form × List Token)
  | 0, _ => none
  | fuel + 1, ts => do
    if ts.head? = some .plus || ts.head? = some .minus then
      match ← made fuel (ts.drop 1) with
      | (.number imaginary, rest) => some (.signed imaginary, rest)
      | _ => none
    else made fuel ts

def sum : Nat → List Token → Option (Form × List Token)
  | 0, _ => none
  | fuel + 1, ts => do
    let (left, rest) ← term fuel ts
    if rest.head? = some .plus || rest.head? = some .minus then
      let (right, behind) ← made fuel (rest.drop 1)
      some (← left.plus? right, behind)
    else some (left, rest)

/-- Further elements, each behind a comma, up to the closing sign. A comma may stand behind the
last of them. -/
def moreElements : Nat → Token → List Token → Option (List Form × List Token)
  | 0, _, _ => none
  | fuel + 1, closing, .comma :: rest =>
    if rest.head? = some closing then some ([], rest.drop 1)
    else do
      let (f, behind) ← sum fuel rest
      let (others, behind) ← moreElements fuel closing behind
      some ((← value? f) :: others, behind)
  | _, closing, ts => (expect closing ts).map fun r => ([], r.2)

/-- The keys of the further entries of a table. -/
def moreEntries : Nat → List Token → Option (List Form × List Token)
  | 0, _ => none
  | _, .closeBrace :: rest => some ([], rest)
  | _, .comma :: .closeBrace :: rest => some ([], rest)
  | fuel + 1, .comma :: rest => do
    let (key, behind) ← sum fuel rest
    let (_, behind) ← expect .colon behind
    let (v, behind) ← sum fuel behind
    let (keys, behind) ← moreEntries fuel behind
    if v.isValue then some (key :: keys, behind) else none
  | _, _ => none

end

/-- An argument without brackets around it may be a row of several. The end of a line closes it. -/
def isWhole (ts : List Token) : Bool :=
  let fuel := 5 * ts.length + 5
  let closed := if ts.getLast? = some .lineEnd then ts else ts ++ [.lineEnd]
  match sum fuel closed with
  | some (f, [.lineEnd]) => f.isValue
  | some (f, behind) =>
    (moreElements fuel .lineEnd behind).any fun r => f.isValue && r.2 = []
  | none => false

/-- Whether a text is an argument. -/
def isArgument (s : Text) : Bool := (scan s).any isWhole

end Intake.Argument
