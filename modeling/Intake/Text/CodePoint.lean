set_option autoImplicit false

/-!
Texts as lists of code points. A code point is a character or one half of a surrogate pair that has
lost its partner: such halves may be escaped in a document, are kept as they are, and come before
U+E000 in the order. Literals of characters and strings stand for code points and texts.
-/

namespace Intake

inductive CodePoint where
  | char (c : Char)
  /-- A half of a pair, by its distance from U+D800. -/
  | surrogate (i : Fin 2048)
  deriving DecidableEq

abbrev Text := List CodePoint

instance : Coe Char CodePoint := ⟨.char⟩

namespace CodePoint

def toNat : CodePoint → Nat
  | char c => c.toNat
  | surrogate i => 0xD800 + i

def ofNat (n : Nat) : CodePoint :=
  if h : 0xD800 ≤ n ∧ n < 0xE000 then surrogate ⟨n - 0xD800, by omega⟩ else char (Char.ofNat n)

def char? : CodePoint → Option Char
  | char c => some c
  | surrogate _ => none

def isChar (c : CodePoint) : Bool := c.char?.isSome

def isDigit : CodePoint → Bool
  | char c => c.isDigit
  | surrogate _ => false

def isAlpha : CodePoint → Bool
  | char c => c.isAlpha
  | surrogate _ => false

def isAlphanum : CodePoint → Bool
  | char c => c.isAlphanum
  | surrogate _ => false

/-- Whether a code point is in one of some ranges, whose ends belong to them. -/
def isIn (ranges : List (Nat × Nat)) (c : CodePoint) : Bool :=
  ranges.any fun r => r.1 ≤ c.toNat && c.toNat ≤ r.2

/-- Only the letters `A` to `Z` have another lower case. -/
def toLower : CodePoint → CodePoint
  | char c => c.toLower
  | c => c

instance : LT CodePoint := ⟨fun a b => a.toNat < b.toNat⟩

instance : DecidableLT CodePoint := fun a b => inferInstanceAs (Decidable (a.toNat < b.toNat))

end CodePoint

namespace Text

def ofChars (cs : List Char) : Text := cs.map .char

def ofString (s : String) : Text := ofChars s.toList

instance : Coe (List Char) Text := ⟨ofChars⟩

instance : Coe String Text := ⟨ofString⟩

/-- The characters, without halves of pairs. -/
def chars (s : Text) : List Char := s.filterMap CodePoint.char?

/-- Whether a text can be stored in a file, which no lone half of a pair can. -/
def isStorable (s : Text) : Bool := s.all CodePoint.isChar

def toString (s : Text) : String := String.ofList s.chars

@[simp] theorem chars_ofChars (cs : List Char) : (ofChars cs).chars = cs := by
  simp [chars, ofChars, List.filterMap_map, Function.comp_def, CodePoint.char?]

theorem mem_ofChars {c : CodePoint} {cs : List Char} (h : c ∈ ofChars cs) :
    ∃ d ∈ cs, c = .char d := by
  obtain ⟨d, hd, rfl⟩ := List.mem_map.1 h
  exact ⟨d, hd, rfl⟩

end Text
end Intake
