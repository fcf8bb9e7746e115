import Intake.Query.Token

set_option autoImplicit false

/-!
Tokens with their places in a query. Spaces, tabs and line feeds separate tokens. A report names the
first token that cannot come where it stands.
-/

namespace Intake.Query

/-- A place in a text: how many characters are in front of it, its line, and where the last line
feed is. -/
structure Place where
  offset : Nat
  line : Nat
  lineFeed : Nat

namespace Place

def start : Place := ⟨0, 1, 0⟩

def column (p : Place) : Nat := p.offset - p.lineFeed

def pastLineFeed (p : Place) : Place := ⟨p.offset + 1, p.line + 1, p.offset⟩

end Place

structure Lexeme where
  token : Token
  place : Place

namespace Lexeme

def isQuote (c : CodePoint) : Bool := c = '\'' || c = '"' || c = '\x60'

/-- A token between two offsets. What stands in quotes is where the closing quote is, or where it
cannot go on. -/
def between (p : Place) (first : CodePoint) (t : Token) (stop : Nat) : Lexeme :=
  let offset := match t with
    | .unreadable (.quoted _ _) => stop
    | _ => if isQuote first then stop - 1 else p.offset
  ⟨t, { p with offset }⟩

def endsScan : Token → Bool
  | .unreadable _ | .tooLong => true
  | _ => false

/-- Every token takes at least one character. -/
def scanFrom : Nat → Place → Text → List Lexeme
  | 0, _, _ => []
  | _, _, [] => []
  | fuel + 1, p, c :: cs =>
    if c = ' ' || c = '\t' then scanFrom fuel { p with offset := p.offset + 1 } cs
    else if c = '\n' && (Token.order? (c :: cs)).isNone then scanFrom fuel p.pastLineFeed cs
    else
      let (t, rest) := Token.next (c :: cs)
      let stop := p.offset + (cs.length + 1 - rest.length)
      between p c t stop ::
        if endsScan t then [] else scanFrom fuel { p with offset := stop } rest

def scan (s : Text) : List Lexeme := scanFrom s.length .start s

def quotedSort (quote : CodePoint) : Text :=
  if quote = '\'' then "singlequoted field"
  else if quote = '"' then "doublequoted field"
  else "backquoted operator"

def unexpectedAt (p : Place) : Text :=
  "line " ++ Numeral.digits p.line ++ ", col " ++ Numeral.digits p.column

/-- What is wrong with tokens of which the first cannot come. -/
def report : List Lexeme → Text
  | [] => "Parse error near the end of string!"
  | ⟨.unreadable .unclosed, _⟩ :: _ => "Unexpected EOF in string literal or identifier"
  | ⟨.unreadable (.character c), p⟩ :: _ =>
    "Error on " ++ unexpectedAt p ++ ": Unexpected character: " ++ [c, ' ']
  | ⟨.unreadable (.quoted quote c), p⟩ :: _ =>
    "Error on " ++ unexpectedAt p ++ " while lexing " ++ quotedSort quote ++
      ": Unexpected character: " ++ [c, ' ']
  | ⟨t, p⟩ :: _ =>
    "Parse error at " ++ Numeral.digits p.line ++ ":" ++ Numeral.digits p.column ++
      " near token " ++ t.shown

end Lexeme
end Intake.Query
