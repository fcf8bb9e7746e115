import Intake.CommandLine.Styled
import Intake.Text.CellWidth

set_option autoImplicit false

/-!
How a styled text is laid out in lines of so many cells: lines are broken between words, and words
that fit in no line inside or not at all. What is styled of blanks that fall off the end of a line,
and of what does not fit, is not shown.
-/

namespace Intake.Layout

/-- What becomes of a word that fits in no line. -/
inductive Overflow where
  /-- It is broken into rows. -/
  | fold
  /-- It is cut off, with three dots at its end. -/
  | ellipsis
  deriving DecidableEq

section Lines

/-- Where a character stands in a text. -/
def placesOf (c : CodePoint) (s : Text) : List Nat :=
  (s.zipIdx.filter fun d => d.1 = c).map Prod.snd

/-- The lines of a text. A text of one line stays as it is. -/
def lines (s : Styled) : List Styled :=
  match placesOf '\n' s.text with
  | [] => [s]
  | breaks => List.zipWith s.part (0 :: breaks.map (· + 1)) (breaks ++ [s.text.length])

def tabSize : Nat := 8

/-- A tab at the end of a part stands for blanks up to a multiple of the tab size, in the style of
the first of them. -/
def fillTab (s : Styled) : Styled :=
  if s.text.getLast? = some '\t' then
    let text : Text := s.text.dropLast ++ " "
    let missing := (tabSize - text.cells % tabSize) % tabSize
    ⟨text ++ List.replicate missing (.char ' '),
      s.spans.map fun p => if text.length ≤ p.stop then { p with stop := p.stop + missing } else p⟩
  else s

def expandTabs (s : Styled) : Styled :=
  match placesOf '\t' s.text with
  | [] => s
  | tabs => .concat ((s.divide (tabs.map (· + 1))).map fillTab)

end Lines

section Breaks

/-- The words of a line, each with the blanks behind it, and the first one also with those before
it. -/
def words (s : Text) : List Text :=
  match s.splitBy fun a b => !Text.isBlank a || Text.isBlank b with
  | [] => []
  | first :: rest =>
    if first.all Text.isBlank then rest.modifyHead (first ++ ·) else first :: rest

/-- The characters of a long word in rows, behind cells that are used in the first of them. -/
def rows (width : Nat) : Nat → Text → List Text
  | _, [] => [[]]
  | used, c :: rest =>
    if used + Text.cellsOf c ≤ width then
      (rows width (used + Text.cellsOf c) rest).modifyHead (c :: ·)
    else [] :: (rows width (Text.cellsOf c) rest).modifyHead (c :: ·)

/-- Where texts start that follow each other from a place on. -/
def starts : Nat → List Text → List Nat
  | _, [] => []
  | place, s :: rest => place :: starts (place + s.length) rest

/-- The cells of a word, without those of the blanks behind it. -/
def wordCells (word : Text) : Nat := Text.cells (word.reverse.dropWhile Text.isBlank)

/-- Where words that start at a place are broken off from those before them, or inside, when some
cells of the line are used. -/
def breaksFrom (o : Overflow) (width : Nat) : Nat → Nat → List Text → List Nat
  | _, _, [] => []
  | place, used, word :: rest =>
    if used + wordCells word ≤ width then
      breaksFrom o width (place + word.length) (used + word.cells) rest
    else
      let parts := if o = .fold ∧ width < wordCells word then rows width 0 word else [word]
      (starts place parts).filter (0 < ·) ++
        breaksFrom o width (place + word.length) (Text.cells (parts.getLast?.getD [])) rest

def breaks (o : Overflow) (width : Nat) (s : Text) : List Nat := breaksFrom o width 0 0 (words s)

end Breaks

section Fitting

/-- Blanks at the end are dropped from a text of more characters than a line has cells. -/
def dropBlanks (width : Nat) (s : Styled) : Styled :=
  let blanks := (s.text.reverse.takeWhile Text.isBlank).length
  let excess := s.text.length - width
  if blanks = 0 ∨ excess = 0 then s else s.crop (s.text.length - min blanks excess)

/-- The first characters of a text, as many as fill so many cells. Of a character that takes one
cell too many a blank stays. -/
def firstCells : Nat → Text → Text
  | _, [] => []
  | 0, _ => []
  | count, c :: rest =>
    if Text.cellsOf c ≤ count then c :: firstCells (count - Text.cellsOf c) rest else [' ']

/-- A text that has more cells than the line is cut off. -/
def truncate (o : Overflow) (width : Nat) (s : Styled) : Styled :=
  if s.text.cells ≤ width then s
  else
    let text : Text := match o with
      | .fold => firstCells width s.text
      | .ellipsis => firstCells (width - 1) s.text ++ "…"
    if text.length < s.text.length then { s.crop text.length with text := text }
    else { s with text := text }

def fit (o : Overflow) (width : Nat) (s : Styled) : Styled := truncate o width (dropBlanks width s)

end Fitting

/-- The lines of so many cells that a text fills. -/
def fill (o : Overflow) (width : Nat) (s : Styled) : List Styled :=
  (lines s).flatMap fun line =>
    let line := expandTabs line
    (line.divide (breaks o width line.text)).map (fit o width)

/-- A text of one line, with a blank before it and behind it. -/
def titleLine (s : Styled) : Styled :=
  let text : Text := s.text.map fun c : CodePoint => if c = '\n' then ' ' else c
  .concat [⟨" ", []⟩, expandTabs ⟨text, s.spans⟩, ⟨" ", []⟩]

/-- What stays of a title above so many cells, in the middle of which a shorter one stands. -/
def fillTitle (width : Nat) (s : Styled) : Styled :=
  let line := truncate .fold width (titleLine s)
  if line.text.cells < width then line else dropBlanks width line

end Intake.Layout
