import Intake.Decimal.Shortest
import Intake.Json.Basic
import Intake.Text.Hex

set_option autoImplicit false

/-!
The text of a value: no spaces, members in their order, and nothing escaped in a string but quotes,
backslashes and control characters.
-/

namespace Intake.Json

/-- Doubles are positional below 10^16 and from 10^-4 on, with `.0` where no fraction is left. -/
def doubleLayout : Double.Layout :=
  { nan := "NaN", infinity := "Infinity", lowest := -3, highest := 16, exponentDigits := 2 }

def writePoint (c : CodePoint) : Text :=
  match c with
  | '"' => ['\\', '"']
  | '\\' => ['\\', '\\']
  | '\n' => ['\\', 'n']
  | '\r' => ['\\', 'r']
  | '\t' => ['\\', 't']
  | '\x08' => ['\\', 'b']
  | '\x0c' => ['\\', 'f']
  | c => if c.toNat < 0x20 then '\\' :: 'u' :: Text.hex 4 c.toNat else [c]

def writeText (s : Text) : Text := "\"" ++ s.flatMap writePoint ++ "\""

def writeAtom : Atom → Text
  | .null => "null"
  | .bool true => "true"
  | .bool false => "false"
  | .int n => Numeral.ofInt n
  | .double x => x.written doubleLayout
  | .text s => writeText s

mutual

def write : Json → Text
  | .atom a => writeAtom a
  | .array [] => ['[', ']']
  | .array (v :: vs) => "[" ++ write v ++ writeItems vs
  | .object [] => ['\x7b', '\x7d']
  | .object ((k, v) :: ms) => "\x7b" ++ writeText k ++ ":" ++ write v ++ writeMembers ms

def writeItems : List Json → Text
  | [] => [']']
  | v :: vs => "," ++ write v ++ writeItems vs

def writeMembers : List (Text × Json) → Text
  | [] => ['\x7d']
  | (k, v) :: ms => "," ++ writeText k ++ ":" ++ write v ++ writeMembers ms

end

mutual

/-- Whether all integers in a value have few enough digits to be written. -/
def isWritable : Json → Bool
  | .atom (.int n) => Numeral.isWritable n
  | .atom _ => true
  | .array xs => areWritable xs
  | .object ms => haveWritable ms

def areWritable : List Json → Bool
  | [] => true
  | v :: vs => isWritable v && areWritable vs

def haveWritable : List (Text × Json) → Bool
  | [] => true
  | (_, v) :: ms => isWritable v && haveWritable ms

end

@[simp] theorem isWritable_int {n : Int} :
    (atom (.int n)).isWritable = Numeral.isWritable n := by
  simp only [isWritable]

@[simp] theorem isWritable_array {xs : List Json} :
    (array xs).isWritable = true ↔ ∀ v ∈ xs, v.isWritable = true := by
  rw [isWritable]
  induction xs with
  | nil => simp [areWritable]
  | cons v vs ih => simp [areWritable, ih]

@[simp] theorem isWritable_object {ms : Members} :
    (object ms).isWritable = true ↔ ∀ m ∈ ms, m.2.isWritable = true := by
  rw [isWritable]
  induction ms with
  | nil => simp [haveWritable]
  | cons m ms ih => simp [haveWritable, ih]

end Intake.Json
