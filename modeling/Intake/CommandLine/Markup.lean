import Intake.Argument.Grammar
import Intake.CommandLine.Display
import Intake.CommandLine.Styled
import Intake.Text.WordChar

set_option autoImplicit false

/-!
The markup of messages. A tag in brackets opens a style, and one with a slash closes the last open
tag of the same style. Tags that stay open style all that follows, but what was never opened cannot
be closed.
-/

namespace Intake.Markup

/-- What stands in brackets before the first equals sign, and what stands behind it. -/
structure Tag where
  name : Text
  parameters : Option Text

namespace Tag

def ofContent (s : Text) : Tag :=
  let name := s.takeWhile (· ≠ .char '=')
  ⟨name, if name.length < s.length then some (s.drop (name.length + 1)) else none⟩

/-- A tag with an at sign stands for an action and has no style. -/
def isAction (t : Tag) : Bool := t.name.head? = some '@'

/-- Parameters are further words of a style. -/
def style (t : Tag) : Text :=
  match t.parameters with
  | none => t.name
  | some s => t.name ++ " " ++ s

end Tag

/-- The content of a tag from behind its opening bracket, and what follows the closing one. -/
def tagContent? (s : Text) : Option (Text × Text) :=
  match s with
  | [] => none
  | c :: rest =>
    let more := rest.takeWhile fun d : CodePoint => d ≠ ']' && d ≠ '['
    match rest.drop more.length with
    | ']' :: behind => if startsTag c then some (c :: more, behind) else none
    | _ => none

section Pieces

inductive Piece where
  | plain (s : Text)
  | tag (t : Tag)

/-- A backslash before a bracket that opens no tag is dropped. -/
def dropBackslashes : Text → Text
  | '\\' :: '[' :: rest => '[' :: dropBackslashes rest
  | c :: rest => c :: dropBackslashes rest
  | [] => []

/-- Controls that are not printed: bell, backspace, vertical tab, form feed and carriage return. -/
def isDropped (c : CodePoint) : Bool := [7, 8, 11, 12, 13].contains c.toNat

/-- Plain text, of which the reversed characters are given. -/
def plainPiece (read : Text) : Piece :=
  .plain ((dropBackslashes read.reverse).filter fun c => !isDropped c)

/-- The pieces of a text from one on that the plain text read so far and some backslashes stand
before. Two backslashes before a tag stand for one, and an odd one makes the tag plain text. -/
def piecesFrom : Nat → Text → Nat → Text → List Piece
  | 0, _, _, _ => []
  | _, read, slashes, [] => [plainPiece (List.replicate slashes (CodePoint.char '\\') ++ read)]
  | fuel + 1, read, slashes, c :: rest =>
    if c = '\\' then piecesFrom fuel read (slashes + 1) rest
    else match if c = '[' then tagContent? rest else none with
      | none => piecesFrom fuel (c :: (List.replicate slashes (CodePoint.char '\\') ++ read)) 0 rest
      | some (content, behind) =>
        let tag :=
          if slashes % 2 = 0 then .tag (Tag.ofContent content)
          else plainPiece (']' :: (content.reverse ++ [CodePoint.char '[']))
        plainPiece read :: .plain (List.replicate (slashes / 2) '\\') :: tag ::
          piecesFrom fuel [] 0 behind

def pieces (s : Text) : List Piece := piecesFrom (s.length + 1) [] 0 s

def Piece.text : Piece → Text
  | plain s => s
  | tag _ => []

end Pieces

section Action

def isHandlerChar (c : CodePoint) : Bool := Text.isWordChar c || c = '.'

/-- Arguments in brackets on one line. -/
def isArgumentList (s : Text) : Bool :=
  s.head? = some '(' && s.getLast? = some ')' && !s.contains '\n' && Argument.isArgument s

/-- What an action is given: the name of a handler, perhaps with arguments in brackets behind it, or
an argument alone. -/
def isParameters (s : Text) : Bool :=
  let rest := s.dropWhile isHandlerChar
  rest = [] || isArgumentList rest || Argument.isArgument s

/-- An action is looked at only when it is closed. -/
def isSound (t : Tag) : Bool :=
  !t.isAction || t.parameters.all fun s => isParameters (Text.strip s)

end Action

/-- A tag and the place from which on it holds. -/
structure Opened where
  place : Nat
  tag : Tag

namespace Opened

def span (o : Opened) (stop : Nat) : Span := ⟨o.place, stop, o.tag.style⟩

/-- Takes out the last open tag of a name, or the last one of all for an empty name. -/
def close? (name : Text) (opened : List Opened) : Option (Opened × List Opened) :=
  match if name = [] then opened.head? else opened.find? fun o => o.tag.name = name with
  | none => none
  | some o =>
    some (o, if name = [] then opened.drop 1 else opened.eraseP fun o => o.tag.name = name)

end Opened

/-- The styles of pieces that start at a place while some tags are open, the last one first. -/
def spansFrom : Nat → List Opened → List Piece → Except Fault (List Span)
  | place, opened, [] => .ok (opened.map fun o => o.span place)
  | place, opened, .plain s :: rest => spansFrom (place + s.length) opened rest
  | place, opened, .tag t :: rest => do
    match t.name with
    | '/' :: name =>
      let wanted ← if Text.strip name = [] then pure [] else Style.canonical (Text.strip name)
      match Opened.close? wanted opened with
      | none => throw .garbledMarkup
      | some (o, others) =>
        if !isSound o.tag then throw .garbledMarkup
        let spans ← spansFrom place others rest
        return if o.tag.isAction then spans else o.span place :: spans
    | _ => spansFrom place (⟨place, ← Style.canonical t.name, t.parameters⟩ :: opened) rest

def render (s : Text) : Except Fault Styled := do
  let all := pieces s
  return ⟨all.flatMap Piece.text, ← spansFrom 0 [] all⟩

end Intake.Markup
