import Intake.Settings.Yaml.Fault
import Intake.Settings.Yaml.Cursor
import Intake.Text.Hex

set_option autoImplicit false

/-!
The texts of scalars: plain ones, quoted ones, and blocks of lines. A line break inside a scalar
counts as a space, and of several in a row the first one is dropped.
-/

namespace Intake.Yaml

/-- What has been read, and the place behind it. -/
abbrev Scanned (α : Type) := Except Fault (α × Cursor)

def malformed {α : Type} : Except Fault α := .error (.malformedSettings [])

/-- A line break and the breaks right behind it, joined to what stands for them. -/
def folded (first : CodePoint) (others : Text) : Text :=
  if first ≠ .char '\n' then first :: others else if others = [] then " " else others

section Quoted

/-- The empty lines at the start of a line, and the blanks of the next one. -/
def quotedBreaks : Nat → Cursor → Scanned Text
  | 0, _ => malformed
  | fuel + 1, c =>
    if isDivider c.rest then malformed
    else
      let d := c.skipWhile fun x => x = ' ' || x = '\t'
      match d.lineBreak? with
      | none => .ok ([], d)
      | some (b, e) => (quotedBreaks fuel e).map fun r => (b :: r.1, r.2)

def quotedGap (c : Cursor) : Scanned Text :=
  let (blanks, d) := c.span fun x => x = ' ' || x = '\t'
  match d.rest, d.lineBreak? with
  | [], _ => malformed
  | _, none => .ok (blanks, d)
  | _, some (b, e) => (quotedBreaks (e.size + 1) e).map fun r => (folded b r.1, r.2)

def replacement? : CodePoint → Option CodePoint
  | '0' => some (.char '\x00')
  | 'a' => some (.char '\x07')
  | 'b' => some (.char '\x08')
  | 't' => some (.char '\t')
  | '\t' => some (.char '\t')
  | 'n' => some (.char '\n')
  | 'v' => some (.char '\x0b')
  | 'f' => some (.char '\x0c')
  | 'r' => some (.char '\r')
  | 'e' => some (.char '\x1b')
  | ' ' => some (.char ' ')
  | '"' => some (.char '"')
  | '\\' => some (.char '\\')
  | '/' => some (.char '/')
  | 'N' => some (.ofNat 0x85)
  | '_' => some (.ofNat 0xA0)
  | 'L' => some (.ofNat 0x2028)
  | 'P' => some (.ofNat 0x2029)
  | _ => none

/-- How many hexadecimal digits follow the letter of an escape. -/
def codeWidth? : CodePoint → Option Nat
  | 'x' => some 2
  | 'u' => some 4
  | 'U' => some 8
  | _ => none

/-- Halves of surrogate pairs are code points too. Beyond U+10FFFF there are none. -/
def pointOf (code : Nat) : Except Fault CodePoint :=
  if code < 0x110000 then .ok (.ofNat code)
  else if code < 0x80000000 then .error (.noSuchValue [])
  else .error .tooLargeForDouble

/-- What an escape stands for, from behind its backslash. -/
def escape (c : Cursor) : Scanned Text :=
  match c.rest with
  | [] => malformed
  | x :: rest =>
    match replacement? x, codeWidth? x, c.lineBreak? with
    | some y, _, _ => .ok ([y], c.next)
    | none, some width, _ =>
      match (if width ≤ rest.length then Text.ofHex? (rest.take width) else none) with
      | none => malformed
      | some code => (pointOf code).map fun y => ([y], c.skip (width + 1))
    | none, none, some (_, d) => quotedBreaks (d.size + 1) d
    | none, none, none => malformed

def isQuotedPlainly (c : CodePoint) : Bool := !(isGap c || c = '\'' || c = '"' || c = '\\')

/-- Up to a blank or the closing quote. Two single quotes stand for one. -/
def quotedWord (double : Bool) : Nat → Cursor → Scanned Text
  | 0, _ => malformed
  | fuel + 1, c =>
    let (run, d) := c.span isQuotedPlainly
    let goOn (s : Text) (e : Cursor) : Scanned Text :=
      (quotedWord double fuel e).map fun r => (run ++ s ++ r.1, r.2)
    match double, d.rest with
    | false, '\'' :: '\'' :: _ => goOn "'" (d.skip 2)
    | false, '"' :: _ => goOn "\"" d.next
    | false, '\\' :: _ => goOn "\\" d.next
    | true, '\'' :: _ => goOn "'" d.next
    | true, '\\' :: _ =>
      match escape d.next with
      | .error e => .error e
      | .ok (s, e) => goOn s e
    | _, _ => .ok (run, d)

/-- Words and the gaps between them, up to the closing quote. -/
def quotedRest (double : Bool) : Nat → Cursor → Except Fault (Text × Cursor)
  | 0, _ => malformed
  | fuel + 1, c => do
    let (word, d) ← quotedWord double (c.size + 1) c
    if goesOn (· = .char (if double then '"' else '\'')) d.rest then return (word, d.next)
    else
      let (gap, e) ← quotedGap d
      let (others, f) ← quotedRest double fuel e
      return (word ++ gap ++ others, f)

/-- A scalar at whose opening quote the text stands. -/
def quoted (double : Bool) (c : Cursor) : Scanned Text :=
  quotedRest double (c.size + 1) c.next

end Quoted

section Plain

def isFlowMark (c : CodePoint) : Bool :=
  c = ',' || c = '[' || c = ']' || c = '\x7b' || c = '\x7d'

/-- The length of the word that a text starts with. A colon belongs to it unless a gap follows, or
a mark of a collection inside one. -/
def plainLength (inFlow : Bool) : Text → Nat
  | [] => 0
  | c :: rest =>
    if isGap c || (c = ':' && endsOr (fun d => isGap d || (inFlow && isFlowMark d)) rest)
        || (inFlow && (isFlowMark c || c = '?')) then 0
    else plainLength inFlow rest + 1

/-- Empty lines and the spaces at the start of a line. A line that divides documents ends the
scalar, which `none` says. -/
def plainBreaks : Nat → Cursor → Option Text × Cursor
  | 0, c => (some [], c)
  | fuel + 1, c =>
    if isDivider c.rest then (none, c)
    else
      let d := c.skipSpaces
      match d.lineBreak? with
      | none => (some [], d)
      | some (b, e) =>
        let (others, f) := plainBreaks fuel e
        (others.map (b :: ·), f)

structure PlainGap where
  /-- Nothing if the scalar ends here. -/
  text : Text
  /-- Whether a line ended. -/
  broken : Bool
  behind : Cursor

def plainGap (c : Cursor) : PlainGap :=
  let (spaces, d) := c.span (· = .char ' ')
  match d.lineBreak? with
  | none => ⟨spaces, false, d⟩
  | some (b, e) =>
    let (others, f) := plainBreaks (e.size + 1) e
    ⟨(others.map (folded b)).getD [], true, f⟩

/-- Words from `c` on, with the gap in front of them, and whether a line ended behind the last. -/
def plainWords (inFlow : Bool) (indent : Int) : Nat → Text → Bool → Cursor →
    (Text × Bool) × Cursor
  | 0, _, broken, c => (([], broken), c)
  | fuel + 1, gap, broken, c =>
    let n := plainLength inFlow c.rest
    if goesOn (· = .char '#') c.rest || n = 0 then (([], broken), c)
    else
      let g := plainGap (c.skip n)
      let word := gap ++ c.rest.take n
      if g.text = [] || (!inFlow && (g.behind.column : Int) < indent) then
        ((word, g.broken), g.behind)
      else
        let ((others, ended), d) := plainWords inFlow indent fuel g.text g.broken g.behind
        ((word ++ others, ended), d)

/-- A scalar without quotes, and whether a line ended behind it. Outside of collections its
further lines have to be indented. -/
def plain (inFlow : Bool) (indent : Int) (c : Cursor) : (Text × Bool) × Cursor :=
  plainWords inFlow indent (c.size + 1) [] false c

end Plain

section Block

/-- What becomes of the line breaks at the end of a block. -/
inductive Chomping where
  | strip
  | clip
  | keep
  deriving DecidableEq

def chomping? : CodePoint → Option Chomping
  | '+' => some .keep
  | '-' => some .strip
  | _ => none

def indentDigit? (c : CodePoint) : Option Nat :=
  if c.isDigit then some (c.toNat - 0x30) else none

/-- The marks behind the one that opens a block, in either order. An indentation of zero is
none. -/
def blockHeader (c : Cursor) : Scanned (Chomping × Option Nat) :=
  let (chomping, d) := match c.rest.head?.bind chomping? with
    | some x => (some x, c.next)
    | none => (none, c)
  let (digit, e) := match d.rest.head?.bind indentDigit? with
    | some n => (some n, d.next)
    | none => (none, d)
  let (late, f) := match chomping, digit, e.rest.head?.bind chomping? with
    | none, some _, some x => (some x, e.next)
    | _, _, _ => (none, e)
  if digit = some 0 || !endsOr (fun x => x = ' ' || isBreak x) f.rest then malformed
  else match f.lineEnd? with
    | none => malformed
    | some g => .ok (((chomping.or late).getD .clip, digit), g)

/-- Skips spaces, but not beyond a column. -/
def skipIndent : Nat → Nat → Cursor → Cursor
  | 0, _, c => c
  | fuel + 1, indent, c =>
    if c.column < indent && goesOn (· = .char ' ') c.rest then skipIndent fuel indent c.next else c

/-- Empty lines, as far as their indentation allows. -/
def blockBreaks (indent : Nat) : Nat → Cursor → Text × Cursor
  | 0, c => ([], c)
  | fuel + 1, c =>
    let d := skipIndent indent indent c
    match d.lineBreak? with
    | none => ([], d)
    | some (b, e) =>
      let (others, f) := blockBreaks indent fuel e
      (b :: others, f)

/-- The empty lines before the first line of a block, and the column of the deepest of them. -/
def leadingBreaks : Nat → Nat → Cursor → (Text × Nat) × Cursor
  | 0, deepest, c => (([], deepest), c)
  | fuel + 1, deepest, c =>
    let d := c.skipSpaces
    let deepest := max deepest d.column
    match d.lineBreak? with
    | none => (([], deepest), d)
    | some (b, e) =>
      let ((others, n), f) := leadingBreaks fuel deepest e
      ((b :: others, n), f)

def isIndented (s : Text) : Bool := goesOn (fun c => c = ' ' || c = '\t') s

/-- The lines of a block from one on that starts at its column, behind `breaks`. A folded line
break is dropped, or a space if no empty line follows, unless one of the lines goes on with a
blank. -/
def blockLines (folding : Bool) (chomping : Chomping) (indent : Nat) : Nat → Text → Cursor →
    Text × Cursor
  | 0, _, c => ([], c)
  | fuel + 1, breaks, c =>
    let (line, d) := c.span fun x => !isBreak x
    let (last, e) := match d.lineBreak? with
      | some (b, e) => (some b, e)
      | none => (none, d)
    let (others, f) := blockBreaks indent (e.size + 1) e
    if f.column = indent && !f.rest.isEmpty then
      let joint : Text :=
        if folding && last = some (.char '\n') && !isIndented c.rest && !isIndented f.rest then
          (if others = [] then [.char ' '] else [])
        else last.toList
      let (tail, g) := blockLines folding chomping indent fuel others f
      (breaks ++ line ++ joint ++ tail, g)
    else
      let ending := match chomping with
        | .strip => []
        | .clip => last.toList
        | .keep => last.toList ++ others
      (breaks ++ line ++ ending, f)

/-- A block at whose mark the text stands, inside a collection of some indentation. -/
def block (folding : Bool) (outer : Int) (c : Cursor) : Except Fault (Text × Cursor) := do
  let ((chomping, digit), d) ← blockHeader c.next
  let least := (max (outer + 1) 1).toNat
  let fuel := d.size + 1
  let ((breaks, indent), e) := match digit with
    | some n =>
      let (breaks, e) := blockBreaks (least + n - 1) fuel d
      ((breaks, least + n - 1), e)
    | none =>
      let ((breaks, deepest), e) := leadingBreaks fuel 0 d
      ((breaks, max least deepest), e)
  if e.column = indent && !e.rest.isEmpty then
    return blockLines folding chomping indent fuel breaks e
  else
    return (if chomping = .keep then breaks else [], e)

end Block

end Intake.Yaml
