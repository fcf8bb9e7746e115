import Intake.Decimal.Numeral
import Intake.Settings.Yaml.Scalar

set_option autoImplicit false

/-!
The tokens of a settings file. Indentation opens and closes collections, so that it has tokens of
its own. Whether a token is a key shows only at the colon behind it: until then the place where the
key's mark belongs is remembered, one place for each collection that is open. A key stands on one
line and takes at most 1024 code points.
-/

namespace Intake.Yaml

inductive Token where
  | version (major : Nat)
  /-- Tags with this handle start with this text. -/
  | handle (name uri : Text)
  | otherDirective
  | documentStart
  | documentEnd
  | streamEnd
  | sequenceStart
  | mappingStart
  /-- The indentation of a collection ends. -/
  | blockEnd
  | openBracket
  | closeBracket
  | openBrace
  | closeBrace
  | comma
  | item
  | key
  | value
  | alias (name : Text)
  | anchor (name : Text)
  | tag (handle : Option Text) (suffix : Text)
  | scalar (text : Text) (plain : Bool)
  deriving DecidableEq

def isSpaceOrBreak (c : CodePoint) : Bool := c = ' ' || isBreak c

def isNameChar (c : CodePoint) : Bool := c.isAlphanum || c = '-' || c = '_'

section Words

/-- A name behind the mark of an anchor or an alias. -/
def name (c : Cursor) : Scanned Text :=
  let (s, d) := c.span isNameChar
  let closes (x : CodePoint) : Bool := isGap x || ("?:,]\x7d%@\x60" : Text).contains x
  if s = [] || !endsOr closes d.rest then malformed else .ok (s, d)

def isUriChar (c : CodePoint) : Bool :=
  c.isAlphanum || ("-;/?:@&=+$,_.!~*'()[]" : Text).contains c

/-- The bytes of escapes that follow each other. -/
def uriBytes : Nat → Cursor → Except Fault (List UInt8 × Cursor)
  | 0, _ => malformed
  | fuel + 1, c =>
    match c.rest with
    | '%' :: a :: b :: _ =>
      match Text.ofHex? [a, b] with
      | none => malformed
      | some n => (uriBytes fuel (c.skip 3)).map fun r => (UInt8.ofNat n :: r.1, r.2)
    | '%' :: _ => malformed
    | _ => .ok ([], c)

def uriRest : Nat → Cursor → Except Fault (Text × Cursor)
  | 0, _ => malformed
  | fuel + 1, c => do
    let (run, d) := c.span isUriChar
    if goesOn (· = .char '%') d.rest then
      let (bytes, e) ← uriBytes (d.size + 1) d
      match String.fromUTF8? ⟨bytes.toArray⟩ with
      | none => malformed
      | some s =>
        let (others, f) ← uriRest fuel e
        return (run ++ Text.ofString s ++ others, f)
    else
      return (run, d)

def uri (c : Cursor) : Scanned Text :=
  if goesOn (fun x => isUriChar x || x = '%') c.rest then uriRest (c.size + 1) c
  else malformed

/-- A handle stands between exclamation marks, or is one of them before a space. -/
def tagHandle (c : Cursor) : Scanned Text :=
  match c.rest with
  | '!' :: ' ' :: _ => .ok ("!", c.next)
  | '!' :: rest =>
    let s := rest.takeWhile isNameChar
    if goesOn (· = .char '!') (rest.drop s.length) then
      .ok ("!" ++ s ++ "!", c.skip (s.length + 2))
    else malformed
  | _ => malformed

/-- A tag is written in full between angle brackets, or as a handle and the text behind it. -/
def tagParts (c : Cursor) : Except Fault (Token × Cursor) :=
  match c.rest with
  | '!' :: '<' :: _ => do
    let (s, d) ← uri (c.skip 2)
    if goesOn (· = .char '>') d.rest then return (.tag none s, d.next) else malformed
  | _ :: rest =>
    if endsOr isGap rest then .ok (.tag none "!", c.next)
    else do
      let (h, d) ← if (rest.takeWhile fun x => !isSpaceOrBreak x).contains (.char '!')
        then tagHandle c else .ok ("!", c.next)
      let (s, e) ← uri d
      return (.tag (some h) s, e)
  | [] => malformed

def tag (c : Cursor) : Except Fault (Token × Cursor) :=
  (tagParts c).bind fun r => if endsOr isSpaceOrBreak r.2.rest then .ok r else malformed

def directiveNumber (c : Cursor) : Scanned Nat :=
  let (ds, d) := c.span CodePoint.isDigit
  if ds = [] then malformed
  else match Numeral.value? ds with
    | none => .error (.noSuchValue ds)
    | some n => .ok (n, d)

def versionDirective (c : Cursor) : Except Fault (Token × Cursor) := do
  let (major, d) ← directiveNumber c.skipSpaces
  if goesOn (· = .char '.') d.rest then
    let (_, e) ← directiveNumber d.next
    if endsOr isSpaceOrBreak e.rest then return (.version major, e) else malformed
  else malformed

def handleDirective (c : Cursor) : Except Fault (Token × Cursor) := do
  let (h, d) ← tagHandle c.skipSpaces
  if goesOn (· = .char ' ') d.rest then
    let (s, e) ← uri d.skipSpaces
    if endsOr isSpaceOrBreak e.rest then return (.handle h s, e) else malformed
  else malformed

def directive (c : Cursor) : Except Fault (Token × Cursor) := do
  let (word, d) := c.next.span isNameChar
  if word = [] || !endsOr isSpaceOrBreak d.rest then malformed
  else
    let (t, e) ← if word = "YAML" then versionDirective d
      else if word = "TAG" then handleDirective d
      else .ok (.otherDirective, d.skipWhile fun x => !isBreak x)
    match e.lineEnd? with
    | none => malformed
    | some f => return (t, f)

end Words

/-- A token that a colon may still turn into a key. -/
structure Candidate where
  /-- How many tokens stand before it. -/
  position : Nat
  /-- Whether its line has to be a key. -/
  required : Bool
  line : Nat
  index : Nat
  column : Nat

structure Scan where
  cursor : Cursor
  tokens : Array Token
  indent : Int
  /-- The indentations around the current one. -/
  outer : List Int
  /-- One for each open bracket or brace, and one for the lines around them all. -/
  candidates : List (Option Candidate)
  keyAllowed : Bool

namespace Scan

def start (s : Text) : Scan := ⟨.start s, #[], -1, [], [none], true⟩

/-- Whether a bracket or a brace is open. -/
def inFlow (s : Scan) : Bool := 1 < s.candidates.length

def candidate? (s : Scan) : Option Candidate := s.candidates.head?.join

def push (t : Token) (s : Scan) : Scan := { s with tokens := s.tokens.push t }

def insert (position : Nat) (t : Token) (s : Scan) : Scan :=
  { s with tokens := (s.tokens.extract 0 position).push t ++ s.tokens.extract position }

def allowKey (b : Bool) (s : Scan) : Scan := { s with keyAllowed := b }

def setCandidate (k : Option Candidate) (s : Scan) : Scan :=
  { s with candidates := k :: s.candidates.drop 1 }

/-- A line that has to be a key may not pass without its colon. -/
def dropCandidate (s : Scan) : Except Fault Scan :=
  if s.candidate?.any Candidate.required then malformed else .ok (s.setCandidate none)

def isStale (c : Cursor) (k : Candidate) : Bool := k.line ≠ c.line || 1024 < c.index - k.index

def dropStale (s : Scan) : Except Fault Scan :=
  if s.candidates.any fun k => k.any fun k => isStale s.cursor k && k.required then malformed
  else .ok { s with candidates := s.candidates.map fun k => k.filter fun k => !isStale s.cursor k }

def saveCandidate (s : Scan) : Except Fault Scan :=
  if s.keyAllowed then
    s.dropCandidate.map fun s =>
      let c := s.cursor
      s.setCandidate (some ⟨s.tokens.size, !s.inFlow && s.indent = c.column, c.line, c.index,
        c.column⟩)
  else .ok s

def closeBlocks (column : Int) : List Int → Scan → Scan
  | [], s => s
  | i :: is, s =>
    if column < s.indent then
      closeBlocks column is { s.push .blockEnd with indent := i, outer := is }
    else s

/-- Closes the collections that are indented further than a column. -/
def unwind (column : Int) (s : Scan) : Scan :=
  if s.inFlow then s else closeBlocks column s.outer s

/-- Opens a collection at a column, unless it is already open. -/
def indentTo (column : Nat) (position : Nat) (t : Token) (s : Scan) : Scan :=
  if s.indent < column then
    { s.insert position t with indent := column, outer := s.indent :: s.outer }
  else s

/-- Passes over spaces, comments and the ends of lines. -/
def skipGaps : Nat → Scan → Scan
  | 0, s => s
  | fuel + 1, s =>
    let c := s.cursor.skipSpaces.skipComment
    match c.lineBreak? with
    | none => { s with cursor := c }
    | some (_, d) => skipGaps fuel { s with cursor := d, keyAllowed := s.keyAllowed || !s.inFlow }

/-- A token of one code point. -/
def punctuation (t : Token) (s : Scan) : Scan := { s.push t with cursor := s.cursor.next }

def openFlow (t : Token) (s : Scan) : Except Fault Scan :=
  s.saveCandidate.map fun s =>
    ({ s with candidates := none :: s.candidates }.allowKey true).punctuation t

def closeFlow (t : Token) (s : Scan) : Except Fault Scan :=
  if s.inFlow then
    s.dropCandidate.map fun s =>
      ({ s with candidates := s.candidates.drop 1 }.allowKey false).punctuation t
  else malformed

def comma (s : Scan) : Except Fault Scan :=
  s.dropCandidate.map fun s => (s.allowKey true).punctuation .comma

def item (s : Scan) : Except Fault Scan :=
  if !s.inFlow && !s.keyAllowed then malformed
  else
    let s := if s.inFlow then s else s.indentTo s.cursor.column s.tokens.size .sequenceStart
    (s.allowKey true).dropCandidate.map (punctuation .item)

def key (s : Scan) : Except Fault Scan :=
  if !s.inFlow && !s.keyAllowed then malformed
  else
    let s := if s.inFlow then s else s.indentTo s.cursor.column s.tokens.size .mappingStart
    (s.allowKey !s.inFlow).dropCandidate.map (punctuation .key)

/-- A colon turns the candidate in front of it into a key. -/
def value (s : Scan) : Except Fault Scan :=
  match s.candidate? with
  | some k =>
    let s := (s.setCandidate none).insert k.position .key
    let s := if s.inFlow then s else s.indentTo k.column k.position .mappingStart
    .ok ((s.allowKey false).punctuation .value)
  | none =>
    if !s.inFlow && !s.keyAllowed then malformed
    else
      let s := if s.inFlow then s else s.indentTo s.cursor.column s.tokens.size .mappingStart
      (s.allowKey !s.inFlow).dropCandidate.map (punctuation .value)

/-- A token that may turn out to be a key, or the start of one. -/
def word (x : Except Fault (Token × Cursor)) (s : Scan) : Except Fault Scan := do
  let s ← s.saveCandidate
  let (t, c) ← x
  return { (s.push t).allowKey false with cursor := c }

def plainScalar (s : Scan) : Except Fault Scan :=
  s.saveCandidate.map fun s =>
    let ((text, broken), c) := plain s.inFlow (s.indent + 1) s.cursor
    { (s.push (.scalar text true)).allowKey broken with cursor := c }

def blockScalar (folding : Bool) (s : Scan) : Except Fault Scan := do
  let s ← (s.allowKey true).dropCandidate
  let (text, c) ← block folding s.indent s.cursor
  return { s.push (.scalar text false) with cursor := c }

def quotedScalar (double : Bool) (s : Scan) : Except Fault Scan :=
  s.word ((quoted double s.cursor).map fun r => (.scalar r.1 false, r.2))

/-- What starts or ends a document closes all that is open. -/
def divide (x : Except Fault (Token × Cursor)) (s : Scan) : Except Fault Scan := do
  let s ← (s.unwind (-1)).dropCandidate
  let (t, c) ← x
  return { (s.push t).allowKey false with cursor := c }

/-- Marks that start no plain scalar. -/
def isIndicator (c : CodePoint) : Bool := ("-?:,[]\x7b\x7d#&*!|>'\"%@\x60" : Text).contains c

def startsPlain (inFlow : Bool) (c : CodePoint) (rest : Text) : Bool :=
  !(isGap c || isIndicator c)
    || (!endsOr isGap rest && (c = '-' || (!inFlow && (c = '?' || c = ':'))))

/-- Reads the token at the cursor. -/
def token (s : Scan) : Except Fault Scan :=
  let c := s.cursor
  match c.rest with
  | [] => s.divide (.ok (.streamEnd, c))
  | x :: rest =>
    if x = '%' && c.column = 0 then s.divide (directive c)
    else if x = '-' && c.column = 0 && isDivider c.rest then
      s.divide (.ok (.documentStart, c.skip 3))
    else if x = '.' && c.column = 0 && isDivider c.rest then s.divide (.ok (.documentEnd, c.skip 3))
    else if x = '[' then s.openFlow .openBracket
    else if x = '\x7b' then s.openFlow .openBrace
    else if x = ']' then s.closeFlow .closeBracket
    else if x = '\x7d' then s.closeFlow .closeBrace
    else if x = ',' then s.comma
    else if x = '-' && endsOr isGap rest then s.item
    else if x = '?' && (s.inFlow || endsOr isGap rest) then s.key
    else if x = ':' && (s.inFlow || endsOr isGap rest) then s.value
    else if x = '*' then s.word ((name c.next).map fun r => (.alias r.1, r.2))
    else if x = '&' then s.word ((name c.next).map fun r => (.anchor r.1, r.2))
    else if x = '!' then s.word (tag c)
    else if x = '|' && !s.inFlow then s.blockScalar false
    else if x = '>' && !s.inFlow then s.blockScalar true
    else if x = '\'' then s.quotedScalar false
    else if x = '"' then s.quotedScalar true
    else if startsPlain s.inFlow x rest then s.plainScalar
    else malformed

def step (s : Scan) : Except Fault Scan := do
  let s ← (s.skipGaps (s.cursor.size + 1)).dropStale
  (s.unwind s.cursor.column).token

/-- The tokens before the first that may still turn out to be a key. -/
def settled (s : Scan) : List Token :=
  let pending := s.candidates.filterMap fun k => k.filter fun k => !isStale s.cursor k
  s.tokens.toList.take (pending.foldl (fun n k => min n k.position) s.tokens.size)

/-- The tokens up to the end or up to a fault, and the fault. -/
def run : Nat → Scan → List Token × Option Fault
  | 0, s => (s.tokens.toList, none)
  | fuel + 1, s =>
    match s.step with
    | .error e => (s.settled, some e)
    | .ok new => if new.tokens.back? = some .streamEnd then (new.tokens.toList, none)
      else run fuel new

end Scan

/-- Every token but the last takes at least one code point. -/
def tokens (s : Text) : List Token × Option Fault :=
  let c := Cursor.start s
  let first := if goesOn isMark s then c.next else c
  Scan.run (s.length + 2) { Scan.start s with cursor := first }

end Intake.Yaml
