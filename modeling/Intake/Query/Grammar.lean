import Intake.Fault
import Intake.Query.Lexeme

set_option autoImplicit false

/-!
The grammar of queries, read from tokens with one token of look-ahead.
-/

namespace Intake.Query

inductive SyntaxFault where
  /-- As many tokens are left, the first of which cannot come. -/
  | unexpected (left : Nat)
  | numeralTooLong
  deriving DecidableEq

/-- What has been read, and the tokens behind it. -/
abbrev Parsed (α : Type) := Except SyntaxFault (α × List Token)

/-- The fault of a text whose next token cannot come here. -/
def unexpected {α : Type} (ts : List Token) : Parsed α :=
  match ts with
  | .tooLong :: _ => .error .numeralTooLong
  | _ => .error (.unexpected ts.length)

def expect (t : Token) (ts : List Token) : Parsed Unit :=
  match ts with
  | u :: rest => if u = t then .ok ((), rest) else unexpected ts
  | [] => unexpected ts

/-- Further names, each behind a comma, up to the closing bracket. -/
def moreNames : List Token → Parsed (List Text)
  | .closeBracket :: rest => .ok ([], rest)
  | .comma :: .name s :: rest => (moreNames rest).map fun r => (s :: r.1, r.2)
  | .comma :: rest => unexpected rest
  | ts => unexpected ts

def moreIndices : List Token → Parsed (List Int)
  | .closeBracket :: rest => .ok ([], rest)
  | .comma :: .int n :: rest => (moreIndices rest).map fun r => (n :: r.1, r.2)
  | .comma :: rest => unexpected rest
  | ts => unexpected ts

def optionalInt : List Token → Option Int × List Token
  | .int n :: rest => (some n, rest)
  | ts => (none, ts)

/-- A slice whose start and first colon have been read. -/
def sliceFrom (start : Option Int) (ts : List Token) : Parsed Selector :=
  let (stop, afterStop) := optionalInt ts
  match afterStop with
  | .closeBracket :: rest => .ok (.slice start stop none, rest)
  | .colon :: more =>
    let (stride, afterStride) := optionalInt more
    (expect .closeBracket afterStride).map fun r => (.slice start stop stride, r.2)
  | _ => unexpected afterStop

/-- What brackets other than a filter's hold, after the opening one. -/
def plainBracket : List Token → Parsed Selector
  | .star :: rest => (expect .closeBracket rest).map fun r => (.each, r.2)
  | .name s :: rest => (moreNames rest).map fun r => (.fields (s :: r.1), r.2)
  | .int n :: .colon :: rest => sliceFrom (some n) rest
  | .int n :: rest => (moreIndices rest).map fun r => (.indices (n :: r.1), r.2)
  | .colon :: rest => sliceFrom none rest
  | ts => unexpected ts

/-- What follows a dot or a descent. -/
def afterDot : List Token → Parsed Selector
  | .name s :: rest => .ok (.fields [s], rest)
  | .star :: rest => .ok (.fields ["*"], rest)
  | .int n :: rest => .ok (.fields [Numeral.ofInt n], rest)
  | .openBracket :: rest => plainBracket rest
  | ts => unexpected ts

def comparison? : List Token → Option (Comparator × List Token)
  | .comparator op :: rest => some (op, rest)
  | _ => none

def literal : List Token → Parsed Literal
  | .name s :: rest => .ok (.name s, rest)
  | .int n :: rest => .ok (.int n, rest)
  | .double x :: rest => .ok (.double x, rest)
  | .bool b :: rest => .ok (.bool b, rest)
  | ts => unexpected ts

/-- A route is compared with the literal behind a comparator. -/
def tested (r : Route) (ts : List Token) : Parsed Condition :=
  match comparison? ts with
  | none => .ok (.matched r, ts)
  | some (op, after) => (literal after).map fun l => (.compare r op l.1, l.2)

/-- Where a route begins: at the value itself, or at a member of it. -/
def plainStart : List Token → Parsed Route
  | .root :: rest => .ok (.root, rest)
  | .current :: rest => .ok (.this, rest)
  | .name s :: rest => .ok (.select (.fields [s]), rest)
  | .star :: rest => .ok (.select (.fields ["*"]), rest)
  | ts => unexpected ts

mutual

def route : Nat → List Token → Parsed Route
  | 0, ts => unexpected ts
  | fuel + 1, ts =>
    match routeStart fuel ts with
    | .error e => .error e
    | .ok (start, rest) => routeFrom fuel (.ofRoute start) rest

/-- Parentheses may stand around the start of a route. -/
def routeStart : Nat → List Token → Parsed Route
  | 0, ts => unexpected ts
  | fuel + 1, .openParen :: rest =>
    match route fuel rest with
    | .error e => .error e
    | .ok (r, after) => (expect .closeParen after).map fun c => (r, c.2)
  | _ + 1, ts => plainStart ts

/-- A route with as much as follows. -/
def routeFrom : Nat → Route.Open → List Token → Parsed Route
  | 0, _, ts => unexpected ts
  | fuel + 1, o, ts =>
    let next : Option (Parsed Route.Open) := match ts with
      | .dot :: rest => some ((afterDot rest).map fun r => (o.add .dot (.select r.1), r.2))
      | .descent :: rest => some ((afterDot rest).map fun r => (o.add .descent (.select r.1), r.2))
      | .both :: rest => some ((routeStart fuel rest).map fun r => (o.add .both r.1, r.2))
      | .openBracket :: .filter :: rest =>
        some ((filterFrom fuel rest).map fun r => (o.bracket r.1, r.2))
      | .openBracket :: rest => some ((plainBracket rest).map fun r => (o.bracket r.1, r.2))
      | _ => none
    match next with
    | none => .ok (o.route, ts)
    | some (.error e) => .error e
    | some (.ok (more, rest)) => routeFrom fuel more rest

/-- A filter whose question mark has been read. -/
def filterFrom : Nat → List Token → Parsed Selector
  | 0, ts => unexpected ts
  | fuel + 1, ts =>
    match condition fuel ts with
    | .error e => .error e
    | .ok (c, rest) => (expect .closeBracket rest).map fun r => (.filter c, r.2)

def condition : Nat → List Token → Parsed Condition
  | 0, ts => unexpected ts
  | fuel + 1, ts =>
    match operand fuel ts with
    | .error e => .error e
    | .ok (a, .both :: rest) => (condition fuel rest).map fun r => (.both a r.1, r.2)
    | .ok (a, rest) => .ok (a, rest)

/-- A route in parentheses may go on behind them. -/
def operand : Nat → List Token → Parsed Condition
  | 0, ts => unexpected ts
  | fuel + 1, .openParen :: rest =>
    match condition fuel rest with
    | .error e => .error e
    | .ok (c, after) =>
      match expect .closeParen after, c with
      | .error e, _ => .error e
      | .ok (_, behind), .matched r => (routeFrom fuel (.ofRoute r) behind).bind fun r =>
        tested r.1 r.2
      | .ok (_, behind), c => .ok (c, behind)
  | fuel + 1, .bang :: rest => (route fuel rest).map fun r => (.unmatched r.1, r.2)
  | fuel + 1, ts => (route fuel ts).bind fun r => tested r.1 r.2

end

/-- Nesting takes at most six calls a token. -/
def ofTokens (ts : List Token) : Except SyntaxFault Route :=
  match route (6 * ts.length + 6) ts with
  | .error e => .error e
  | .ok (r, []) => .ok r
  | .ok (_, rest) => (unexpected rest).map Prod.fst

def parse (s : Text) : Except Fault Route :=
  let found := Lexeme.scan s
  match ofTokens (found.map Lexeme.token) with
  | .ok r => .ok r
  | .error .numeralTooLong => .error .numeralTooLong
  | .error (.unexpected left) =>
    .error (.malformedQuery s (Lexeme.report (found.drop (found.length - left))))

end Intake.Query
