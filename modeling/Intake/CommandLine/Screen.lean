import Intake.CommandLine.Layout
import Intake.CommandLine.Markup
import Intake.Decimal.Numeral

set_option autoImplicit false

/-!
What can be shown on a screen: messages, panels and tables whose markup makes sense, and the styles
of all that stays of their texts too.
-/

namespace Intake.Screen

/-- The cells of a line. -/
def width : Nat := 80

/-- A text in a column of so many cells. -/
def column (o : Layout.Overflow) (width : Nat) (s : Styled) : Except Fault Unit :=
  (Layout.fill o width s).forM Styled.check

/-- A text whose styles all make sense can be shown, whatever stays of it. -/
def lines (width : Nat) (s : Styled) : Except Fault Unit :=
  if s.isSound then .ok () else column .fold width s

/-- A message stands behind a sign of its kind. -/
def message (s : Text) : Except Fault Unit := do lines width (← Markup.render ("✓ " ++ s))

/-- The lines of a panel stand between two borders, each with a blank beside it. -/
def panelWidth : Nat := width - 4

/-- A panel has its title above its content. -/
def panel (title content : Text) : Except Fault Unit := do
  let title ← Markup.render title
  let content ← Markup.render content
  lines panelWidth content
  (Layout.fillTitle panelWidth title).check

section Table

/-- The first column has a number for each row. -/
def numberHeading : Text := "index"

def nameHeading : Text := "entity_name"

def isLineEnd (c : CodePoint) : Bool := [10, 28, 29, 30, 0x85, 0x2028, 0x2029].contains c.toNat

/-- The cells of the longest line of a text. -/
def longestLine (s : Text) : Nat := ((s.splitOnP isLineEnd).map Text.cells).foldl max 0

/-- The columns of a table stand between three borders, each with a blank on both sides. -/
def nameWidth (names : List Text) : Nat :=
  let number := max numberHeading.length (Numeral.digits (names.length - 1)).length
  let longest := ((nameHeading :: names).map longestLine).foldl max 0
  min (width - 7 - number) longest

/-- A table with a row for each name. What does not fit is cut off. -/
def table (title : Text) (names : List Text) : Except Fault Unit := do
  let names ← names.mapM Markup.render
  let title ← Markup.render title
  lines width title
  match names.filter fun s => !s.isSound with
  | [] => return
  | doubtful => doubtful.forM (column .ellipsis (nameWidth (names.map Styled.text)))

end Table

end Intake.Screen
