import Intake.Decimal.Numeral
import Intake.Text.Hex

set_option autoImplicit false

/-!
The tokens of arguments: numbers, texts, constants and the signs between them. Between brackets a
line break is blank, outside of them it ends the argument. A sharp sign starts a comment.
-/

namespace Intake.Argument

inductive Token where
  | number (imaginary : Bool)
  /-- A text between quotes, or one of bytes. -/
  | text (bytes : Bool)
  /-- A value that stands for itself. -/
  | constant
  /-- The word that makes an empty set when it is called. -/
  | setWord
  | plus
  | minus
  | openParen
  | closeParen
  | openBrace
  | closeBrace
  | comma
  | colon
  | lineEnd
  deriving DecidableEq

section Number

/-- Digits in which single underscores may stand. At least one comes first. -/
def digitRun (isDigit : CodePoint → Bool) : Text → Option (Nat × Text)
  | '_' :: _ | [] => none
  | c :: rest => if isDigit c then more 1 rest else none
where
  more (count : Nat) : Text → Option (Nat × Text)
    | '_' :: d :: rest => if isDigit d then more (count + 1) rest else none
    | '_' :: [] => none
    | d :: rest => if isDigit d then more (count + 1) rest else some (count, d :: rest)
    | [] => some (count, [])

/-- Digits behind the mark of a base; an underscore may come first. -/
def based (isDigit : CodePoint → Bool) (s : Text) : Option (Token × Text) :=
  (digitRun isDigit (if s.head? = some '_' then s.drop 1 else s)).map fun r =>
    (.number false, r.2)

def isBinary (c : CodePoint) : Bool := c = '0' || c = '1'

def isOctal (c : CodePoint) : Bool := c.isDigit && c ≠ '8' && c ≠ '9'

def isHex (c : CodePoint) : Bool := (c.char?.bind Text.hexValue?).isSome

def startsDigit (s : Text) : Bool := s.head?.any CodePoint.isDigit

/-- The fraction of a number, if it has one, and whether it has. -/
def fraction : Text → Option (Bool × Text)
  | '.' :: rest =>
    if startsDigit rest then (digitRun CodePoint.isDigit rest).map fun r => (true, r.2)
    else some (true, rest)
  | s => some (false, s)

/-- The power of ten behind a number, if it has one, and whether it has. -/
def power (s : Text) : Option (Bool × Text) :=
  if s.head? = some 'e' || s.head? = some 'E' then
    let signed := s.drop 1
    let digits :=
      if signed.head? = some '+' || signed.head? = some '-' then signed.drop 1 else signed
    (digitRun CodePoint.isDigit digits).map fun r => (true, r.2)
  else some (false, s)

def isZero (digits : Text) : Bool := digits.all fun c => c = '0' || c = '_'

/-- A number in decimal. A whole one has no zeros in front of other digits, and not too many
digits. -/
def decimal (s : Text) : Option (Token × Text) := do
  let (count, behind) ← if startsDigit s then digitRun CodePoint.isDigit s else some (0, s)
  let whole := s.take (s.length - behind.length)
  let (broken, behind) ← fraction behind
  let (raised, behind) ← power behind
  if behind.head? = some 'j' || behind.head? = some 'J' then return (.number true, behind.drop 1)
  else if broken || raised || isZero whole then return (.number false, behind)
  else if whole.head? = some '0' || Numeral.digitLimit < count then none
  else return (.number false, behind)

/-- Letters of every script, or what might be one. -/
def isWordChar (c : CodePoint) : Bool := c.isAlphanum || c = '_' || 128 ≤ c.toNat

/-- No letter or digit follows a number. -/
def number (s : Text) : Option (Token × Text) := do
  let base := if s.head? = some '0' then s[1]?.map CodePoint.toLower else none
  let r ← if base = some 'x' then based isHex (s.drop 2)
    else if base = some 'o' then based isOctal (s.drop 2)
    else if base = some 'b' then based isBinary (s.drop 2)
    else decimal s
  if r.2.head?.any isWordChar then none else return r

end Number

section Quoted

/-- What stands up to the closing quotes, with backslashes as they are, and what is behind them. A
single pair of quotes does not go over lines. -/
def quoted (quote : CodePoint) (tripled : Bool) : Text → Option (Text × Text)
  | [] => none
  | '\\' :: c :: rest => (quoted quote tripled rest).map fun r => ('\\' :: c :: r.1, r.2)
  | c :: rest =>
    if c = quote && !tripled then some ([], rest)
    else if c = quote && rest.take 2 = [quote, quote] then some ([], rest.drop 2)
    else if c = '\n' && !tripled || c = '\\' then none
    else (quoted quote tripled rest).map fun r => (c :: r.1, r.2)

/-- The names of characters are taken on trust. -/
def isCharName (s : Text) : Bool :=
  s ≠ [] && s.all fun c => c.isAlphanum || c = ' ' || c = '-'

/-- What follows the escape behind a backslash, if that makes sense. -/
def dropEscape? (bytes : Bool) : Text → Option Text
  | 'x' :: rest => dropHex 2 rest
  | 'u' :: rest => if bytes then some rest else dropHex 4 rest
  | 'U' :: rest =>
    if bytes then some rest
    else if ((Text.ofHex? (rest.take 8)).any (· < 0x110000)) then dropHex 8 rest else none
  | 'N' :: '\x7b' :: rest =>
    let name := rest.takeWhile (· ≠ .char '\x7d')
    if bytes then some rest
    else if isCharName name && name.length < rest.length then some (rest.drop (name.length + 1))
    else none
  | 'N' :: rest => if bytes then some rest else none
  | rest => some (rest.drop 1)
where
  dropHex (width : Nat) (s : Text) : Option Text :=
    if (s.take width).length = width && (s.take width).all isHex then some (s.drop width) else none

/-- Whether each backslash of a text starts an escape. -/
def areEscapes (bytes : Bool) : Nat → Text → Bool
  | 0, _ => false
  | _, [] => true
  | fuel + 1, c :: rest =>
    if c = '\\' then (dropEscape? bytes rest).any (areEscapes bytes fuel)
    else areEscapes bytes fuel rest

/-- The kinds of texts by the letters in front of their quotes: whether they hold bytes, and whether
backslashes stand for themselves. -/
def kinds : List (Text × Bool × Bool) :=
  [("", false, false), ("u", false, false), ("r", false, true), ("b", true, false),
    ("br", true, true), ("rb", true, true)]

/-- Bytes are written as ASCII characters. -/
def text (start s : Text) : Option (Token × Text) := do
  let (bytes, raw) ← kinds.lookup (start.map CodePoint.toLower)
  let quote ← s.head?
  let tripled := s.take 3 = [quote, quote, quote]
  let (content, behind) ← quoted quote tripled (s.drop (if tripled then 3 else 1))
  if bytes && content.any (128 ≤ ·.toNat) then none
  else if raw || areEscapes bytes (content.length + 1) content then return (.text bytes, behind)
  else none

end Quoted

def isQuote (c : CodePoint) : Bool := c = '\'' || c = '"'

/-- A word, or the text whose quotes follow it. -/
def word (s : Text) : Option (Token × Text) :=
  let name := s.takeWhile isWordChar
  let behind := s.drop name.length
  if behind.head?.any isQuote then text name behind
  else if name = "None" || name = "True" || name = "False" then some (.constant, behind)
  else if name = "set" then some (.setWord, behind)
  else none

def signs : List (CodePoint × Token) :=
  [('+', .plus), ('-', .minus), ('(', .openParen), (')', .closeParen), ('\x7b', .openBrace),
    ('\x7d', .closeBrace), (',', .comma), (':', .colon)]

def isOpening (c : CodePoint) : Bool := c = '(' || c = '\x7b'

def isClosing (c : CodePoint) : Bool := c = ')' || c = '\x7d'

/-- The token at the head of a text. -/
def next (s : Text) : Option (Token × Text) :=
  match s with
  | [] => none
  | '.' :: '.' :: '.' :: rest => some (.constant, rest)
  | c :: rest =>
    if c.isDigit || (c = '.' && startsDigit rest) then number s
    else if isQuote c then text [] s
    else if isWordChar c then word s
    else (signs.lookup c).map fun t => (t, rest)

def dropComment (s : Text) : Text := s.dropWhile (· ≠ .char '\n')

/-- What follows empty lines and comments. Behind them nothing is indented, not even the end. -/
def dropEmptyLines : Nat → Bool → Text → Option Text
  | 0, _, _ => none
  | _, indented, [] => if indented then none else some []
  | fuel + 1, indented, c :: rest =>
    if c = ' ' || c = '\t' then dropEmptyLines fuel true rest
    else if c = '\n' || c = '\x0c' then dropEmptyLines fuel false rest
    else if c = '#' then dropEmptyLines fuel false (dropComment rest)
    else if c = '\\' then
      match rest with
      | '\n' :: d :: more => dropEmptyLines fuel indented (d :: more)
      | _ => none
    else if indented then none
    else some (c :: rest)

/-- How deep brackets may stand in one another. -/
def depthLimit : Nat := 200

def scanFrom : Nat → Nat → Text → Option (List Token)
  | 0, _, _ => none
  | _, _, [] => some []
  | fuel + 1, depth, c :: rest =>
    if c = ' ' || c = '\t' || c = '\x0c' then scanFrom fuel depth rest
    else if c = '#' then scanFrom fuel depth (dropComment rest)
    else if c = '\n' then
      if 0 < depth then scanFrom fuel depth rest
      else do
        let more ← dropEmptyLines (rest.length + 1) false rest
        return .lineEnd :: (← scanFrom fuel depth more)
    else if c = '\\' then
      match rest with
      | '\n' :: d :: more => scanFrom fuel depth (d :: more)
      | _ => none
    else do
      let (t, behind) ← next (c :: rest)
      let depth := if isOpening c then depth + 1 else if isClosing c then depth - 1 else depth
      if depthLimit < depth then none else return t :: (← scanFrom fuel depth behind)

/-- All kinds of line breaks count as line feeds. -/
def joinBreaks : Text → Text
  | '\r' :: '\n' :: rest => '\n' :: joinBreaks rest
  | '\r' :: rest => '\n' :: joinBreaks rest
  | c :: rest => c :: joinBreaks rest
  | [] => []

/-- A text that cannot be stored, or that holds a null character, has no tokens. -/
def scan (s : Text) : Option (List Token) := do
  if !s.isStorable || s.any (· = .char '\x00') then none
  else
    let s := joinBreaks s
    let first ← dropEmptyLines (s.length + 1) false (s.dropWhile fun c => c = ' ' || c = '\t')
    scanFrom (first.length + 1) 0 first

end Intake.Argument
