import Intake.CommandLine.Style

set_option autoImplicit false

/-!
Texts with styles in some of their parts, and how they are cut and joined. A style may be given to
a part without characters. It stays there until the text is cut into parts.
-/

namespace Intake

/-- The words of a style, from one place on and before another one. -/
structure Span where
  start : Nat
  stop : Nat
  style : Text
  deriving DecidableEq

structure Styled where
  text : Text
  spans : List Span
  deriving DecidableEq

namespace Span

def move (offset : Nat) (p : Span) : Span := ⟨p.start + offset, p.stop + offset, p.style⟩

/-- What is styled of the characters between two places, if any of them is. -/
def within? (start stop : Nat) (p : Span) : Option Span :=
  let q : Span := ⟨p.start - start, min p.stop stop - start, p.style⟩
  if q.start < q.stop then some q else none

end Span

namespace Styled

def append (s t : Styled) : Styled :=
  ⟨s.text ++ t.text, s.spans ++ t.spans.map (Span.move s.text.length)⟩

def concat (parts : List Styled) : Styled := parts.foldl append ⟨[], []⟩

/-- The first characters. What is styled behind them is given up. -/
def crop (count : Nat) (s : Styled) : Styled :=
  ⟨s.text.take count,
    (s.spans.filter fun p => p.start < count).map fun p => { p with stop := min p.stop count }⟩

def part (s : Styled) (start stop : Nat) : Styled :=
  ⟨(s.text.take stop).drop start, s.spans.filterMap (Span.within? start stop)⟩

/-- The parts between places in ascending order. A text without such places stays as it is. -/
def divide (s : Styled) (places : List Nat) : List Styled :=
  if places = [] then [s]
  else List.zipWith s.part (0 :: places) (places ++ [s.text.length])

/-- A style that makes no sense is none, but a color without a value cannot be shown. -/
def check (s : Styled) : Except Fault Unit :=
  s.spans.forM fun p => (Style.read? p.style).map fun _ => ()

/-- Whether all styles of a text make sense. -/
def isSound (s : Styled) : Bool := s.check.isOk

end Styled
end Intake
