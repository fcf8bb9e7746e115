import Intake.Text.CodePoint

set_option autoImplicit false

/-!
A place in a settings file: the text that is still to come, and where it starts. Line feeds,
U+0085, U+2028 and U+2029 end a line; byte order marks take no column.
-/

namespace Intake.Yaml

structure Cursor where
  rest : Text
  /-- The length of the whole text. -/
  size : Nat
  index : Nat
  line : Nat
  column : Nat

def isBreak (c : CodePoint) : Bool :=
  c = '\n' || c.toNat = 0x85 || c.toNat = 0x2028 || c.toNat = 0x2029

def isGap (c : CodePoint) : Bool := c = ' ' || c = '\t' || isBreak c

def isMark (c : CodePoint) : Bool := c.toNat = 0xFEFF

/-- Whether the text ends here, or goes on with what satisfies a test. -/
def endsOr (p : CodePoint → Bool) (s : Text) : Bool :=
  match s with
  | [] => true
  | c :: _ => p c

/-- Whether a text goes on with something that satisfies a test. -/
def goesOn (p : CodePoint → Bool) (s : Text) : Bool := s.head?.any p

/-- A line of three hyphens or three points divides documents. -/
def isDivider (s : Text) : Bool :=
  (s.take 3 = "---" || s.take 3 = "...") && endsOr isGap (s.drop 3)

namespace Cursor

def start (s : Text) : Cursor := ⟨s, s.length, 0, 0, 0⟩

def next (c : Cursor) : Cursor :=
  match c.rest with
  | [] => c
  | x :: rest =>
    if isBreak x then ⟨rest, c.size, c.index + 1, c.line + 1, 0⟩
    else ⟨rest, c.size, c.index + 1, c.line, if isMark x then c.column else c.column + 1⟩

def skip : Nat → Cursor → Cursor
  | 0, c => c
  | n + 1, c => skip n c.next

/-- The longest run of what satisfies a test, and the place behind it. -/
def span (p : CodePoint → Bool) (c : Cursor) : Text × Cursor :=
  let run := c.rest.takeWhile p
  (run, c.skip run.length)

def skipWhile (p : CodePoint → Bool) (c : Cursor) : Cursor := (c.span p).2

def skipSpaces (c : Cursor) : Cursor := c.skipWhile (· = .char ' ')

/-- The rest of a line from a number sign on is a comment. -/
def skipComment (c : Cursor) : Cursor :=
  if goesOn (· = .char '#') c.rest then c.skipWhile fun x => !isBreak x else c

/-- The end of a line as it counts inside scalars: U+2028 and U+2029 stand for themselves, the
others for a line feed. -/
def lineBreak? (c : Cursor) : Option (CodePoint × Cursor) :=
  match c.rest with
  | [] => none
  | x :: _ =>
    if isBreak x then some (if x.toNat = 0x85 then .char '\n' else x, c.next) else none

def dropBreak (c : Cursor) : Cursor := (c.lineBreak?.map Prod.snd).getD c

/-- Nothing but a comment is left of the line: the place behind it. -/
def lineEnd? (c : Cursor) : Option Cursor :=
  let d := c.skipSpaces.skipComment
  if endsOr isBreak d.rest then some d.dropBreak else none

end Cursor
end Intake.Yaml
