import Intake.Fault
import Intake.Json.Place

set_option autoImplicit false

/-!
Addresses in an answer document. A path is a row of segments, each a field name with perhaps an
index into the array stored there, and is written `applicant.children[3].name`. Two paths are equal
when they are written alike.

Only a segment that is taken as it stands can have an index below 0, and no document is read or
changed at such a path. So paths are made over the indices that they may have, which are natural
numbers unless something else is said.
-/

namespace Intake

/-- What may stand between the brackets of a segment. -/
class PathIndex (ι : Type) where
  ofNat : Nat → ι
  text : ι → Text
  text_ofNat (n : Nat) : text (ofNat n) = Numeral.digits n

instance : PathIndex Nat := ⟨id, Numeral.digits, fun _ => rfl⟩

instance : PathIndex Int where
  ofNat := Int.ofNat
  text := Numeral.ofInt
  text_ofNat _ := rfl

@[simp] theorem PathIndex.ofNat_nat (n : Nat) : (ofNat n : Nat) = n := rfl

@[simp] theorem PathIndex.text_nat (n : Nat) : text n = Numeral.digits n := rfl

structure Segment (ι : Type := Nat) where
  key : Text
  index : Option ι
  deriving DecidableEq

structure Path (ι : Type := Nat) where
  segments : List (Segment ι)
  deriving DecidableEq

variable {ι : Type}

namespace Segment

def isKeyChar (c : CodePoint) : Bool :=
  !(c = '.' || c = '[' || c = ']' || Text.isBlank c)

/-- The digits between the brackets that end a segment. -/
def indexDigits? : Text → Option Text
  | '[' :: rest =>
    let ds := rest.takeWhile CodePoint.isDigit
    if ds ≠ [] ∧ rest.dropWhile CodePoint.isDigit = [.char ']'] then some ds else none
  | _ => none

def parse (text : Text) : Except Fault Segment :=
  let key := text.takeWhile isKeyChar
  let rest := text.dropWhile isKeyChar
  if key = [] then .error (.malformedSegment text)
  else if rest = [] then .ok ⟨key, none⟩
  else match indexDigits? rest with
    | none => .error (.malformedSegment text)
    | some ds =>
      match Numeral.value? ds with
      | none => .error .numeralTooLong
      | some n => .ok ⟨key, some n⟩

/-- A segment that has been read, among those with other indices. -/
def widen [PathIndex ι] (s : Segment) : Segment ι := ⟨s.key, s.index.map PathIndex.ofNat⟩

def written [PathIndex ι] (s : Segment ι) : Text :=
  match s.index with
  | none => s.key
  | some i => s.key ++ "[" ++ PathIndex.text i ++ "]"

@[simp] theorem widen_nat (s : Segment) : (s.widen : Segment) = s := by
  obtain ⟨key, index⟩ := s
  cases index <;> rfl

@[simp] theorem written_widen [PathIndex ι] (s : Segment) :
    (s.widen : Segment ι).written = s.written := by
  obtain ⟨key, index⟩ := s
  cases index <;> simp [written, widen, PathIndex.text_ofNat]

def indexSteps (s : Segment) : List Step := s.index.toList.map .index

def steps (s : Segment) : List Step := .key s.key :: s.indexSteps

end Segment

namespace Path

def root : Path ι := ⟨[]⟩

def isRoot (p : Path ι) : Bool := p.segments.isEmpty

def length (p : Path ι) : Nat := p.segments.length

def text [PathIndex ι] (p : Path ι) : Text := List.intercalate "." (p.segments.map Segment.written)

/-- What is left of an address behind the mark of the root. -/
def dropRootMark : Text → Text
  | ['$'] => []
  | '$' :: '.' :: cs => cs
  | cs => cs

def parse (s : Text) : Except Fault Path :=
  let cs := dropRootMark (Text.strip s)
  if cs = [] then .ok root
  else
    ((cs.splitOn (.char '.')).mapM Segment.parse).map Path.mk

/-- An address among the paths with other indices. -/
def widen [PathIndex ι] (p : Path) : Path ι := ⟨p.segments.map Segment.widen⟩

/-- Keys taken from a document become segments as they stand. -/
def append (p : Path ι) (s : Segment ι) : Path ι := ⟨p.segments ++ [s]⟩

def join [PathIndex ι] (p : Path ι) (segment : Text) : Except Fault (Path ι) :=
  (Segment.parse segment).map fun s => p.append s.widen

/-- The field of that very name below a path. -/
def field (p : Path ι) (key : Text) : Path ι := p.append ⟨key, none⟩

def lastSegment? (p : Path ι) : Option (Segment ι) := p.segments.getLast?

def parentSegments (p : Path ι) : List (Segment ι) := p.segments.dropLast

/-- The path with its last segment pointing into the array there. -/
def element (p : Path ι) (i : ι) : Path ι :=
  match p.lastSegment? with
  | none => p
  | some s => ⟨p.parentSegments ++ [⟨s.key, some i⟩]⟩

/-- What may be given for an index: no number below 0, and none that is too long to be written. -/
def isIndex (i : Int) : Bool := 0 ≤ i && Numeral.isWritable i

/-- Any other number is named in the fault, as long as it can be written. -/
def indexFault (i : Int) : Fault :=
  if Numeral.isWritable i then .negativeIndex i else .numeralTooLong

def atIndex [PathIndex ι] (p : Path ι) (i : Int) : Except Fault (Path ι) :=
  if p.isRoot then .error .rootIndexed
  else if isIndex i then .ok (p.element (PathIndex.ofNat i.toNat))
  else .error (indexFault i)

/-- The path of the element at a position in a list. No list is so long that a position in it could
not be written. -/
def atPosition (p : Path) (i : Nat) : Except Fault Path :=
  if p.isRoot then .error .rootIndexed else .ok (p.element i)

def parent (p : Path ι) : Except Fault (Path ι) :=
  if p.isRoot then .error .rootParent else .ok ⟨p.parentSegments⟩

def index? (p : Path ι) : Option ι := p.lastSegment?.bind Segment.index

def isElement (p : Path ι) : Bool := p.index?.isSome

def withoutIndex (p : Path ι) : Path ι :=
  match p.lastSegment? with
  | none => p
  | some s => ⟨p.parentSegments ++ [⟨s.key, none⟩]⟩

def arrayIndex [PathIndex ι] (p : Path ι) : Except Fault ι :=
  match p.index? with
  | some i => .ok i
  | none => .error (.notElement p.text)

def keyName (p : Path ι) : Except Fault Text :=
  match p.lastSegment? with
  | some s => .ok s.key
  | none => .error .rootKey

def startsWith [DecidableEq ι] (p q : Path ι) : Bool := q.segments.isPrefixOf p.segments

/-- The query that selects what is stored at a path. -/
def query [PathIndex ι] (p : Path ι) : Text :=
  if p.isRoot then "$" else "$." ++ p.text

def sameText [PathIndex ι] (p q : Path ι) : Bool := p.text = q.text

def shown [PathIndex ι] (p : Path ι) : Text := "Path(" ++ Text.quoted p.text ++ ")"

def steps (p : Path) : List Step := p.segments.flatMap Segment.steps

theorem atIndex_of_isIndex {p : Path} {n : Nat} (h : isIndex n = true) :
    p.atIndex n = p.atPosition n := by
  simp [atIndex, atPosition, h]

theorem isIndex_of_natural {i : Int} (h : 0 ≤ i) : isIndex i = Numeral.isWritable i := by
  simp [isIndex, h]

theorem indexFault_of_natural {i : Int} (natural : 0 ≤ i) (other : isIndex i = false) :
    indexFault i = .numeralTooLong := by
  rw [indexFault, ← isIndex_of_natural natural, other]
  rfl

theorem natural_of_isIndex {i : Int} (h : isIndex i = true) : 0 ≤ i := by
  simpa using (Bool.and_eq_true_iff.1 h).1

theorem toNat_of_isIndex {i : Int} (h : isIndex i = true) : (i.toNat : Int) = i :=
  Int.toNat_of_nonneg (natural_of_isIndex h)

theorem join_of_parse {p : Path} {segment : Text} {s : Segment}
    (h : Segment.parse segment = .ok s) : p.join segment = .ok (p.append s) := by
  rw [join, h, Except.map, Segment.widen_nat]

@[simp] theorem text_widen [PathIndex ι] (p : Path) : (p.widen : Path ι).text = p.text := by
  simp [text, widen, Function.comp_def]

theorem steps_of_segments {p : Path} {s : Segment} {more : List Segment}
    (h : p.segments = s :: more) :
    p.steps = .key s.key :: (s.indexSteps ++ more.flatMap Segment.steps) := by
  rw [steps, h, List.flatMap_cons, Segment.steps, List.cons_append]

/-- An index belongs to the key before it. -/
def ofSteps (steps : List Step) : Path :=
  steps.foldl (fun p s => match s with
    | .key k => p.field k
    | .index i => p.element i) root

end Path
end Intake
