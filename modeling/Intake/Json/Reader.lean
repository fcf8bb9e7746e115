import Intake.Json.Basic
import Intake.Text.Hex

set_option autoImplicit false

/-!
Reading JSON text. Only space, tab, line feed and carriage return separate tokens; a raw control
character in a string is refused; `NaN`, `Infinity` and `-Infinity` are numbers. Of a repeated key
the first place and the last value count.
-/

namespace Intake.Json

inductive ReadFault where
  | malformed
  /-- An integer with more digits than are ever converted. -/
  | numeralTooLong
  deriving DecidableEq

/-- What a reader has read, and the text behind it. -/
abbrev Read (α : Type) := Except ReadFault (α × Text)

def isSpace (c : CodePoint) : Bool := c = ' ' || c = '\t' || c = '\n' || c = '\r'

def skipSpace (cs : Text) : Text := cs.dropWhile isSpace

def isHigh (n : Nat) : Bool := 0xD800 ≤ n && n < 0xDC00
def isLow (n : Nat) : Bool := 0xDC00 ≤ n && n < 0xE000

/-- The character that a surrogate pair stands for. -/
def pairedPoint (high low : Nat) : CodePoint :=
  CodePoint.ofNat (0x10000 + (high - 0xD800) * 0x400 + (low - 0xDC00))

/-- The code unit and the rest behind a backslash and a `u`. -/
def codeUnit? : Text → Option (Nat × Text)
  | a :: b :: c :: d :: rest => (Text.ofHex? [a, b, c, d]).map (·, rest)
  | _ => none

/-- The second half of a pair, if it comes next in escaped form. -/
def lowUnit? : Text → Option (Nat × Text)
  | '\\' :: 'u' :: more => (codeUnit? more).filter fun r => isLow r.1
  | _ => none

/-- The first half of a pair joins its partner. A half without one stands for itself. -/
def escapedPoint (unit : Nat) (rest : Text) : CodePoint × Text :=
  match if isHigh unit then lowUnit? rest else none with
  | some (low, after) => (pairedPoint unit low, after)
  | none => (CodePoint.ofNat unit, rest)

def simpleEscape? : CodePoint → Option CodePoint
  | '"' => some (.char '"')
  | '\\' => some (.char '\\')
  | '/' => some (.char '/')
  | 'b' => some (.char '\x08')
  | 'f' => some (.char '\x0c')
  | 'n' => some (.char '\n')
  | 'r' => some (.char '\r')
  | 't' => some (.char '\t')
  | _ => none

/-- One code point of a string, or `none` at the closing quote. -/
def readPoint : Text → Read (Option CodePoint)
  | '"' :: rest => .ok (none, rest)
  | '\\' :: 'u' :: rest =>
    match codeUnit? rest with
    | some (unit, more) =>
      let (c, after) := escapedPoint unit more
      .ok (some c, after)
    | none => .error .malformed
  | '\\' :: c :: rest =>
    match simpleEscape? c with
    | some d => .ok (some d, rest)
    | none => .error .malformed
  | c :: rest => if c.toNat < 0x20 ∨ c = '\\' then .error .malformed else .ok (some c, rest)
  | [] => .error .malformed

/-- The rest of a string whose opening quote has been read. -/
def readPoints : Nat → Text → Read Text
  | 0, _ => .error .malformed
  | fuel + 1, cs =>
    match readPoint cs with
    | .error e => .error e
    | .ok (none, rest) => .ok ([], rest)
    | .ok (some c, rest) =>
      match readPoints fuel rest with
      | .error e => .error e
      | .ok (s, after) => .ok (c :: s, after)

def readText (cs : Text) : Read Text := readPoints (cs.length + 1) cs

/-- The fraction's digits, if a point and a digit come next. -/
def splitFraction (cs : Text) : Text × Text :=
  match cs with
  | '.' :: rest =>
    let ds := rest.takeWhile CodePoint.isDigit
    if ds.isEmpty then ([], cs) else (ds, rest.dropWhile CodePoint.isDigit)
  | _ => ([], cs)

/-- The exponent, if a mark, perhaps a sign, and a digit come next. -/
def splitExponent (cs : Text) : Option Int × Text :=
  match cs with
  | c :: rest =>
    let (negative, more) := Numeral.splitSign rest
    let ds := more.takeWhile CodePoint.isDigit
    if (c = 'e' || c = 'E') && !ds.isEmpty then
      (some (Numeral.signed negative (Numeral.value ds)), more.dropWhile CodePoint.isDigit)
    else
      (none, cs)
  | [] => (none, cs)

/-- A number whose sign and first digits have been read. A fraction or an exponent makes it a
double. -/
def finishNumber (negative : Bool) (whole rest : Text) : Read Atom :=
  let (fraction, afterFraction) := splitFraction rest
  let (exponent, after) := splitExponent afterFraction
  if fraction.isEmpty ∧ exponent = none then
    match Numeral.value? whole with
    | some n => .ok (.int (Numeral.signed negative n), after)
    | none => .error .numeralTooLong
  else
    .ok (.double (Double.ofDecimal negative (Numeral.value (whole ++ fraction))
      (exponent.getD 0 - fraction.length)), after)

/-- No digit follows a leading zero. -/
def readNumber (negative : Bool) : Text → Read Atom
  | '0' :: rest => finishNumber negative ['0'] rest
  | cs =>
    let ds := cs.takeWhile CodePoint.isDigit
    if ds.isEmpty then .error .malformed
    else finishNumber negative ds (cs.dropWhile CodePoint.isDigit)

def readAtom : Text → Read Atom
  | 'n' :: 'u' :: 'l' :: 'l' :: rest => .ok (.null, rest)
  | 't' :: 'r' :: 'u' :: 'e' :: rest => .ok (.bool true, rest)
  | 'f' :: 'a' :: 'l' :: 's' :: 'e' :: rest => .ok (.bool false, rest)
  | 'N' :: 'a' :: 'N' :: rest => .ok (.double .nan, rest)
  | 'I' :: 'n' :: 'f' :: 'i' :: 'n' :: 'i' :: 't' :: 'y' :: rest =>
    .ok (.double (.infinite false), rest)
  | '-' :: 'I' :: 'n' :: 'f' :: 'i' :: 'n' :: 'i' :: 't' :: 'y' :: rest =>
    .ok (.double (.infinite true), rest)
  | '"' :: rest => (readText rest).map fun r => (.text r.1, r.2)
  | '-' :: rest => readNumber true rest
  | cs => readNumber false cs

/-- A key, the colon behind it, and what follows the colon. -/
def readKey (cs : Text) : Read Text :=
  match cs with
  | '"' :: rest =>
    match readText rest with
    | .error e => .error e
    | .ok (k, after) =>
      match skipSpace after with
      | ':' :: more => .ok (k, more)
      | _ => .error .malformed
  | _ => .error .malformed

mutual

def readValue : Nat → Text → Read Json
  | 0, _ => .error .malformed
  | fuel + 1, cs =>
    match skipSpace cs with
    | '[' :: rest =>
      match skipSpace rest with
      | ']' :: after => .ok (.array [], after)
      | more => (readItems fuel more).map fun r => (.array r.1, r.2)
    | '\x7b' :: rest =>
      match skipSpace rest with
      | '\x7d' :: after => .ok (.object [], after)
      | more => (readMembers fuel more).map fun r => (.object r.1, r.2)
    | more => (readAtom more).map fun r => (.atom r.1, r.2)

/-- Elements up to the closing bracket. -/
def readItems : Nat → Text → Read (List Json)
  | 0, _ => .error .malformed
  | fuel + 1, cs =>
    match readValue fuel cs with
    | .error e => .error e
    | .ok (v, rest) =>
      match skipSpace rest with
      | ',' :: more => (readItems fuel more).map fun r => (v :: r.1, r.2)
      | ']' :: after => .ok ([v], after)
      | _ => .error .malformed

/-- Members up to the closing brace. -/
def readMembers : Nat → Text → Read (List (Text × Json))
  | 0, _ => .error .malformed
  | fuel + 1, cs =>
    match readKey (skipSpace cs) with
    | .error e => .error e
    | .ok (k, afterKey) =>
      match readValue fuel afterKey with
      | .error e => .error e
      | .ok (v, rest) =>
        match skipSpace rest with
        | ',' :: more => (readMembers fuel more).map fun r => ((k, v) :: r.1, r.2)
        | '\x7d' :: after => .ok ([(k, v)], after)
        | _ => .error .malformed

end

mutual

/-- Of a repeated key the first place and the last value are kept, at every depth. -/
def dedup : Json → Json
  | .atom a => .atom a
  | .array xs => .array (dedupItems xs)
  | .object ms => .object (dedupMembers [] ms)

def dedupItems : List Json → List Json
  | [] => []
  | v :: vs => dedup v :: dedupItems vs

/-- Sets the members one after the other into those before them. -/
def dedupMembers : Members → List (Text × Json) → Members
  | kept, [] => kept
  | kept, (k, v) :: ms => dedupMembers (Members.set k (dedup v) kept) ms

end

/-- Every value uses up at least one character, so twice the length is fuel enough. -/
def read (s : Text) : Except ReadFault Json :=
  match readValue (2 * s.length + 2) s with
  | .error e => .error e
  | .ok (v, rest) => if (skipSpace rest).isEmpty then .ok (dedup v) else .error .malformed

mutual

theorem wellKeyed_dedup : (v : Json) → (dedup v).WellKeyed
  | .atom a => by
    rw [dedup]
    exact .atom a
  | .array xs => by
    rw [dedup]
    exact .array (wellKeyed_dedupItems xs)
  | .object ms => by
    rw [dedup]
    exact wellKeyed_dedupMembers [] ms (.object (by simp [Members.keys]) (by simp))

theorem wellKeyed_dedupItems : (vs : List Json) → ∀ v ∈ dedupItems vs, v.WellKeyed
  | [] => by simp [dedupItems]
  | w :: ws => by
    intro v hv
    rw [dedupItems, List.mem_cons] at hv
    rcases hv with rfl | h
    · exact wellKeyed_dedup w
    · exact wellKeyed_dedupItems ws v h

theorem wellKeyed_dedupMembers : (kept : Members) → (ms : List (Text × Json)) →
    (Json.object kept).WellKeyed → (Json.object (dedupMembers kept ms)).WellKeyed
  | kept, [] => fun h => by rwa [dedupMembers]
  | kept, (k, v) :: ms => fun h => by
    rw [dedupMembers]
    exact wellKeyed_dedupMembers _ ms (h.set (wellKeyed_dedup v))

end

theorem wellKeyed_read {s : Text} {v : Json} (h : read s = .ok v) : v.WellKeyed := by
  unfold read at h
  split at h
  · cases h
  · split at h
    · cases h
      exact wellKeyed_dedup _
    · cases h

end Intake.Json
