import Intake.Decimal.Numeral
import Intake.Fault
import Intake.Text.Hex

set_option autoImplicit false

/-!
Colors of marked-up messages: names, `#` and six hexadecimal digits, `color(n)` and `rgb(r,g,b)`.
-/

namespace Intake.Color

/-- Names that stand for one color each. -/
def plainNames : List Text := List.map Text.ofString
  ["default", "black", "red", "green", "yellow", "blue", "magenta", "cyan", "white",
    "bright_black", "bright_red", "bright_green", "bright_yellow", "bright_blue", "bright_magenta",
    "bright_cyan", "bright_white", "navy_blue", "dark_blue", "dark_green", "dark_cyan",
    "light_sea_green", "dark_turquoise", "medium_spring_green", "dark_red", "blue_violet",
    "steel_blue", "cornflower_blue", "cadet_blue", "medium_turquoise", "dark_magenta",
    "dark_violet", "purple", "light_slate_grey", "light_slate_gray", "medium_purple",
    "light_slate_blue", "dark_sea_green", "light_green", "medium_violet_red", "indian_red",
    "medium_orchid", "dark_goldenrod", "rosy_brown", "dark_khaki", "light_steel_blue",
    "green_yellow", "orchid", "violet", "tan", "hot_pink", "dark_orange", "light_coral",
    "sandy_brown"]

/-- Names that stand for several shades, each under a number. -/
def shadeNames : List (String × List Nat) :=
  [("blue", [1, 3]), ("deep_sky_blue", [1, 2, 3, 4]), ("dodger_blue", [1, 2, 3]),
    ("green", [1, 3, 4]), ("spring_green", [1, 2, 3, 4]), ("turquoise", [2, 4]),
    ("cyan", [1, 2, 3]), ("deep_pink", [1, 2, 3, 4]), ("purple", [3, 4]), ("orange", [1, 3, 4]),
    ("medium_purple", [1, 2, 3, 4]), ("slate_blue", [1, 3]), ("royal_blue", [1]),
    ("chartreuse", [1, 2, 3, 4]), ("dark_sea_green", [1, 2, 3, 4]), ("pale_turquoise", [1, 4]),
    ("steel_blue", [1, 3]), ("sky_blue", [1, 2, 3]), ("pale_green", [1, 3]),
    ("sea_green", [1, 2, 3]), ("aquamarine", [1, 3]), ("dark_slate_gray", [1, 2, 3]),
    ("light_pink", [1, 3, 4]), ("plum", [1, 2, 3, 4]), ("yellow", [1, 2, 3, 4]), ("wheat", [1, 4]),
    ("dark_olive_green", [1, 2, 3]), ("light_sky_blue", [1, 3]), ("red", [1, 3]),
    ("magenta", [1, 2, 3]), ("dark_orange", [3]), ("hot_pink", [2, 3]), ("medium_orchid", [1, 3]),
    ("light_salmon", [1, 3]), ("gold", [1, 3]), ("navajo_white", [1, 3]),
    ("light_steel_blue", [1, 3]), ("light_cyan", [1, 3]), ("pink", [1, 3]),
    ("light_goldenrod", [1, 2, 3]), ("misty_rose", [1, 3]), ("thistle", [1, 3]), ("khaki", [1, 3]),
    ("light_yellow", [3]), ("honeydew", [2]), ("orange_red", [1]), ("indian_red", [1]),
    ("salmon", [1]), ("pale_violet_red", [1]), ("orchid", [1, 2]), ("cornsilk", [1])]

/-- Shades of grey by their lightness in percent. -/
def greys : List Nat :=
  [0, 3, 7, 11, 15, 19, 23, 27, 30, 35, 37, 39, 42, 46, 50, 53, 54, 58, 62, 63, 66, 69, 70, 74, 78,
    82, 84, 85, 89, 93, 100]

def isShade (s : Text) : Bool :=
  shadeNames.any fun r => r.2.any fun n => s = Text.ofString r.1 ++ Numeral.digits n

def isGrey (s : Text) : Bool :=
  greys.any fun n => s = "grey" ++ Numeral.digits n || s = "gray" ++ Numeral.digits n

/-- What stands between the start of a text and the bracket at its end. -/
def argument? (start s : Text) : Option Text :=
  if start.isPrefixOf s && s.getLast? = some ')' && start.length < s.length then
    some (s.drop start.length).dropLast
  else none

def isNumbered (s : Text) : Bool :=
  (argument? "color(" s).any fun ds =>
    ds ≠ [] && ds.length ≤ 3 && ds.all CodePoint.isDigit && Numeral.value ds ≤ 255

def isHexadecimal : Text → Bool
  | '#' :: ds => ds.length = 6 && (Text.ofHex? ds).isSome
  | _ => false

/-- Three components of up to 255. Of three that are no numbers there is no value. -/
def isMixed (s : Text) : Except Fault Bool :=
  match argument? "rgb(" s with
  | none => .ok false
  | some components =>
    if components = [] || !components.all fun c => c = ',' || (Text.digitValue? c).isSome then
      .ok false
    else match components.splitOn (.char ',') with
      | [r, g, b] =>
        match [r, g, b].mapM Numeral.loose? with
        | none => .error (.noSuchValue components)
        | some ns => .ok (ns.all fun n => decide (n ≤ 255))
      | _ => .ok false

/-- Whether a text in lower case names a color. -/
def isColor (s : Text) : Except Fault Bool :=
  if plainNames.contains s || isShade s || isGrey s || isNumbered s || isHexadecimal s then .ok true
  else isMixed s

end Intake.Color
