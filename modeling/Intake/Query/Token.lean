import Intake.Json.Shown
import Intake.Query.Basic

set_option autoImplicit false

/-!
The tokens of a query. The longest token wins. A text that goes on with no token ends in
`unreadable`, one that goes on with too long a numeral in `tooLong`.
-/

namespace Intake.Query

/-- Why a text goes on with no token. -/
inductive Illegible where
  | character (c : CodePoint)
  /-- A character inside of quotes. -/
  | quoted (quote c : CodePoint)
  | unclosed
  deriving DecidableEq

inductive Token where
  | name (s : Text)
  | bool (b : Bool)
  | int (n : Int)
  | double (x : Double)
  | comparator (op : Comparator)
  | descent
  | dot
  | star
  | openBracket
  | closeBracket
  | openParen
  | closeParen
  | root
  | current
  | comma
  | colon
  | both
  | filter
  | bang
  /-- A word or a sign that has no place in queries. -/
  | other (sort text : Text)
  | unreadable (cause : Illegible)
  | tooLong
  deriving DecidableEq

namespace Token

/-- A token as a report shows it, with its sort behind it in parentheses. -/
def shown (t : Token) : Text :=
  let sign (s : Text) : Text := s ++ " (" ++ s ++ ")"
  match t with
  | name s => s ++ " (ID)"
  | bool b => (Atom.bool b).shown ++ " (BOOL)"
  | int n => Numeral.ofInt n ++ " (NUMBER)"
  | double x => x.written shownLayout ++ " (FLOAT)"
  | comparator op => op.symbol ++ " (FILTER_OP)"
  | descent => ".. (DOUBLEDOT)"
  | dot => sign "."
  | star => sign "*"
  | openBracket => sign "["
  | closeBracket => sign "]"
  | openParen => sign "("
  | closeParen => sign ")"
  | root => sign "$"
  | current => sign "@"
  | comma => sign ","
  | colon => sign ":"
  | both => sign "&"
  | filter => sign "?"
  | bang => sign "!"
  | other sort text => text ++ " (" ++ sort ++ ")"
  | unreadable _ | tooLong => []

def isNameStart (c : CodePoint) : Bool := c.isAlpha || c = '_'

def isNameChar (c : CodePoint) : Bool := c.isAlphanum || c = '_' || c = '@' || c = '-'

def ofWord (word : Text) : Token :=
  if word = "true" then .bool true
  else if word = "false" then .bool false
  else if word = "where" then .other "WHERE" word
  else if word = "wherenot" then .other "WHERENOT" word
  else .name word

/-- The name between quotes and what follows the closing one; a backslash quotes the next
character, which is no line feed. What cannot be read comes with what it is in front of. -/
def quotedName (quote : CodePoint) : Text → Except (Illegible × Text) (Text × Text)
  | [] => .error (.unclosed, [])
  | '\\' :: c :: cs =>
    if c = '\n' then .error (.quoted quote '\\', '\\' :: c :: cs)
    else (quotedName quote cs).map fun r => (c :: r.1, r.2)
  | c :: cs =>
    if c = quote then .ok ([], cs)
    else if c = '\\' then .error (.quoted quote c, c :: cs)
    else (quotedName quote cs).map fun r => (c :: r.1, r.2)

/-- The token of a quoted name, and what follows it. -/
def ofQuoted (quote : CodePoint) (ofName : Text → Token) (cs : Text) : Token × Text :=
  match quotedName quote cs with
  | .ok (s, rest) => (ofName s, rest)
  | .error (e, rest) => (.unreadable e, rest)

def digitValues (cs : Text) : List Nat :=
  (cs.takeWhile fun c => (Text.digitValue? c).isSome).filterMap Text.digitValue?

def dropDigits (cs : Text) : Text :=
  cs.dropWhile fun c => (Text.digitValue? c).isSome

def numberOf (ds : List Nat) : Nat := ds.foldl (fun n d => 10 * n + d) 0

/-- An integer, or a double where a point and a digit follow; `none` if there is no digit. -/
def number? (negative : Bool) (cs : Text) : Option (Token × Text) :=
  let whole := digitValues cs
  let rest := dropDigits cs
  if whole = [] then none
  else
    let fraction := match rest with
      | '.' :: more => digitValues more
      | _ => []
    if fraction = [] then
      if whole.length ≤ Numeral.digitLimit then
        some (.int (Numeral.signed negative (numberOf whole)), rest)
      else
        some (.tooLong, rest)
    else
      some (.double (Double.ofDecimal negative (numberOf (whole ++ fraction)) (-fraction.length)),
        dropDigits (rest.drop 1))

/-- A slash, with blanks and perhaps a comma in front of it, would order what is found. -/
def order? (cs : Text) : Option (Token × Text) :=
  match (if cs.head? = some ',' then cs.drop 1 else cs).dropWhile Text.isBlank with
  | '/' :: rest => some (.other "SORT_DIRECTION" "/", rest)
  | '\\' :: rest => some (.other "SORT_DIRECTION" "\\", rest)
  | _ => none

/-- The token at the head of a text that starts with no separator and no slash. -/
def ofText : Text → Token × Text
  | '.' :: '.' :: cs => (.descent, cs)
  | '=' :: '~' :: cs => (.other "FILTER_OP" "=~", cs)
  | '=' :: '=' :: cs => (.comparator .twoEq, cs)
  | '=' :: cs => (.comparator .eq, cs)
  | '>' :: '=' :: cs => (.comparator .ge, cs)
  | '<' :: '=' :: cs => (.comparator .le, cs)
  | '!' :: '=' :: cs => (.comparator .ne, cs)
  | '<' :: cs => (.comparator .lt, cs)
  | '>' :: cs => (.comparator .gt, cs)
  | '*' :: cs => (.star, cs)
  | '.' :: cs => (.dot, cs)
  | '[' :: cs => (.openBracket, cs)
  | ']' :: cs => (.closeBracket, cs)
  | '(' :: cs => (.openParen, cs)
  | ')' :: cs => (.closeParen, cs)
  | '$' :: cs => (.root, cs)
  | ',' :: cs => (.comma, cs)
  | ':' :: cs => (.colon, cs)
  | '&' :: cs => (.both, cs)
  | '?' :: cs => (.filter, cs)
  | '!' :: cs => (.bang, cs)
  | '-' :: cs => (number? true cs).getD (.other "-" "-", cs)
  | '+' :: cs => (.other "+" "+", cs)
  | '|' :: cs => (.other "|" "|", cs)
  | '~' :: cs => (.other "~" "~", cs)
  | '\'' :: cs => ofQuoted '\'' .name cs
  | '"' :: cs => ofQuoted '"' .name cs
  | '\x60' :: cs => ofQuoted '\x60' (.other "NAMED_OPERATOR") cs
  | '@' :: c :: cs =>
    if isNameStart c then
      (ofWord ('@' :: c :: cs.takeWhile isNameChar), cs.dropWhile isNameChar)
    else
      (.current, c :: cs)
  | '@' :: [] => (.current, [])
  | c :: cs =>
    if isNameStart c then (ofWord (c :: cs.takeWhile isNameChar), cs.dropWhile isNameChar)
    else (number? false (c :: cs)).getD (.unreadable (.character c), c :: cs)
  | [] => (.unreadable .unclosed, [])

def next (cs : Text) : Token × Text := (order? cs).getD (ofText cs)

end Token
end Intake.Query
