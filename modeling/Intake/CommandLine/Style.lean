import Intake.CommandLine.Color
import Intake.Text.Blank
import Intake.Text.LowerCase

set_option autoImplicit false

/-!
Styles of texts on a screen, written as words: attributes, a color, a color behind `on`, an
attribute behind `not`, and an address behind `link`.
-/

namespace Intake

structure Style where
  /-- Attributes by their first names, and whether they are on. The first entry of a name counts. -/
  given : List (Text × Bool)
  color : Option Text
  background : Option Text
  link : Option Text

namespace Style

def plain : Style := ⟨[], none, none, none⟩

/-- Attributes in the order in which styles list them, with their short names. -/
def attributes : List (List Text) :=
  [["bold", "b"], ["dim", "d"], ["italic", "i"], ["underline", "u"], ["blink"], ["blink2"],
    ["reverse", "r"], ["conceal", "c"], ["strike", "s"], ["underline2", "uu"], ["frame"],
    ["encircle"], ["overline", "o"]]

def attribute? (word : Text) : Option Text :=
  (attributes.find? fun names => names.contains word).bind List.head?

def shownAttribute? (s : Style) (name : Text) : Option Text :=
  (s.given.lookup name).map fun on => if on then name else "not " ++ name

def text (s : Style) : Text :=
  let words :=
    (attributes.filterMap List.head?).filterMap s.shownAttribute? ++ s.color.toList ++
      s.background.toList.flatMap (fun c => [("on" : Text), c]) ++
      s.link.toList.flatMap (fun l => [("link" : Text), l])
  if words = [] then "none" else List.intercalate " " words

/-- A style with one more word, an attribute or a color; nothing if it is neither. -/
def withWord? (s : Style) (word : Text) : Except Fault (Option Style) :=
  match attribute? word with
  | some name => .ok (some { s with given := (name, true) :: s.given })
  | none => (Color.isColor word).map fun known =>
    if known then some { s with color := some word } else none

/-- Words that need another one behind them. -/
def pairWords : List Text := ["on", "not", "link"]

def withPair? (s : Style) (word next : Text) : Except Fault (Option Style) :=
  if word = "on" then
    (Color.isColor next.lowerCase).map fun known =>
      if known then some { s with background := some next.lowerCase } else none
  else if word = "not" then
    .ok ((attribute? next).map fun name => { s with given := (name, false) :: s.given })
  else .ok (some { s with link := some next })

/-- A style with more words; nothing if one of them makes no sense. -/
def withWords? (s : Style) : List Text → Except Fault (Option Style)
  | [] => .ok (some s)
  | [word] => if pairWords.contains word.lowerCase then .ok none else s.withWord? word.lowerCase
  | word :: next :: rest => do
    if pairWords.contains word.lowerCase then
      match ← s.withPair? word.lowerCase next with
      | some t => t.withWords? rest
      | none => return none
    else
      match ← s.withWord? word.lowerCase with
      | some t => t.withWords? (next :: rest)
      | none => return none

/-- The style that a text spells, if it spells one. -/
def read? (s : Text) : Except Fault (Option Style) :=
  plain.withWords? ((s.splitOnP Text.isBlank).filter (· ≠ []))

/-- One spelling for all names of a style. A name of none stands for itself, in lower case. -/
def canonical (name : Text) : Except Fault Text := do
  if Text.strip name = "none" then return "none"
  else match ← read? name with
    | some s => return s.text
    | none => return (Text.strip name).lowerCase

end Style
end Intake
