import Intake.Json.Shown
import Intake.Settings.Yaml.Value

set_option autoImplicit false

/-!
Values of a settings file as a report shows them, and the words for their kinds. A collection
inside itself is shown as dots.
-/

namespace Intake.Yaml

def byteShown (quote : CodePoint) (b : UInt8) : Text :=
  let n := b.toNat
  if n < 0x80 then Text.quoteChar quote (.ofNat n) else Text.escapeCode n

def bytesShown (bs : List UInt8) : Text :=
  let quote := Text.quoteFor (bs.map fun b => .ofNat b.toNat)
  "b" ++ quote :: bs.flatMap (byteShown quote) ++ [quote]

def Contents.kind : Contents → Text
  | sequence _ | pairs _ => "list"
  | mapping _ => "dict"
  | set _ => "set"

def Moment.kind (m : Moment) : Text := if m.clock.isSome then "datetime" else "date"

/-- What stands for a collection inside itself. -/
def Contents.dots : Contents → Text
  | sequence _ | pairs _ => "[...]"
  | mapping _ => "\x7b...\x7d"
  | set _ => "set(...)"

def listed (opening : Text) (items : List Text) (closing : Text) : Text :=
  opening ++ List.intercalate ", " items ++ closing

/-- A collection whose values are shown by a function, which has nothing for numbers of too many
digits. -/
def Contents.shown? (shown? : Value → Option Text) : Contents → Option Text
  | sequence items => (items.mapM shown?).map (listed "[" · "]")
  | set [] => some "set()"
  | set items => (items.mapM shown?).map (listed "\x7b" · "\x7d")
  | mapping ps => do
    let shown ← ps.mapM fun p => return (← shown? p.1) ++ ": " ++ (← shown? p.2)
    return listed "\x7b" shown "\x7d"
  | pairs ps => do
    let shown ← ps.mapM fun p => return listed "(" [← shown? p.1, ← shown? p.2] ")"
    return listed "[" shown "]"

namespace Document

def kind (d : Document) : Value → Text
  | .null => "NoneType"
  | .truth _ => "bool"
  | .int _ => "int"
  | .double _ => "float"
  | .moment m => m.kind
  | .bytes _ => "bytes"
  | .text _ => "str"
  | .collection n => (d.contentsOf? (.collection n)).elim [] Contents.kind

/-- A value inside some collections, of which there are no more than a number. -/
def shownWithin? (d : Document) : Nat → List Nat → Value → Option Text
  | _, _, .null => some (Atom.shown .null)
  | _, _, .truth b => some (Atom.bool b).shown
  | _, _, .int n => if Numeral.isWritable n then some (Numeral.ofInt n) else none
  | _, _, .double x => some (x.written shownLayout)
  | _, _, .moment m => some m.shown
  | _, _, .bytes bs => some (bytesShown bs)
  | _, _, .text s => some (Text.quoted s)
  | 0, _, .collection _ => none
  | fuel + 1, around, .collection n =>
    (d.contentsOf? (.collection n)).bind fun contents =>
      if around.contains n then some contents.dots
      else contents.shown? (shownWithin? d fuel (n :: around))

def shown (d : Document) (v : Value) : Text :=
  (d.shownWithin? (d.contents.size + 1) [] v).getD ("<unprintable " ++ d.kind v ++ " object>")

end Document
end Intake.Yaml
