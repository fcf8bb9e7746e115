import Intake.Text.CodePoint

set_option autoImplicit false

/-!
White space of the whole character set, and texts without it at their ends.
Zero-width characters (U+200B, U+2060, U+FEFF) are not blank.
-/

namespace Intake.Text

def blankRanges : List (Nat × Nat) :=
  [(0x9, 0xD), (0x1C, 0x20), (0x85, 0x85), (0xA0, 0xA0), (0x1680, 0x1680), (0x2000, 0x200A),
    (0x2028, 0x2029), (0x202F, 0x202F), (0x205F, 0x205F), (0x3000, 0x3000)]

def isBlank (c : CodePoint) : Bool := c.isIn blankRanges

/-- What satisfies a test is dropped at both ends and kept inside. -/
def trim (drops : CodePoint → Bool) (s : Text) : Text :=
  ((s.dropWhile drops).reverse.dropWhile drops).reverse

def strip (s : Text) : Text := trim isBlank s

theorem dropWhile_isBlank_of_head {s : Text} (h : ∀ c, s.head? = some c → isBlank c = false) :
    s.dropWhile isBlank = s := by
  cases s with
  | nil => rfl
  | cons c r => simp [h c rfl]

/-- A text with no blank at either end is its own stripped form. -/
theorem strip_eq_self {s : Text} (hd : ∀ c, s.head? = some c → isBlank c = false)
    (hl : ∀ c, s.getLast? = some c → isBlank c = false) : strip s = s := by
  rw [strip, trim, dropWhile_isBlank_of_head hd, dropWhile_isBlank_of_head, List.reverse_reverse]
  intro c hc
  exact hl c (by simpa using hc)

/-- Nothing is stripped off a text without blanks. -/
theorem strip_of_not_blank {s : Text} (h : ∀ c ∈ s, isBlank c = false) : strip s = s := by
  apply strip_eq_self
  · exact fun c first => h c (List.mem_of_head? first)
  · exact fun c last => h c (List.mem_of_getLast? last)

end Intake.Text
