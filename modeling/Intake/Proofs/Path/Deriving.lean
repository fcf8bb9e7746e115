import Intake.Proofs.Path.Grammar

set_option autoImplicit false

/-!
# Addresses that are derived from others

Whatever address is reached from those that have been read, its keys are free of points, brackets
and blanks, and its indices can be written (`Derived.areParsed`). So what is written of it stands
for its segments alone: addresses are equal exactly if they have the same segments, and the query
for an address is read as the address (`equal_iff_same_segments`).
-/

namespace Intake

open Query.Token (IsKey)

/-! ## What is written of a segment -/

namespace Segment

variable {s : Segment} (h : s.IsParsed)

include h

/-- A segment with a key and a short index is written as digits that are read again. -/
theorem written_cases : s.written = s.key ∧ s.index = none ∨
    ∃ n, s.written = s.key ++ ("[" ++ Numeral.digits n ++ "]") ∧ s.index = some n ∧
      (Numeral.digits n).length ≤ Numeral.digitLimit := by
  obtain ⟨key, index⟩ := s
  cases index with
  | none => exact .inl ⟨rfl, rfl⟩
  | some n => exact .inr ⟨n, written_eq _, rfl, h.index n rfl⟩

theorem parse_written : parse s.written = .ok s := by
  rcases written_cases h with ⟨written, index⟩ | ⟨n, written, index, few⟩
  · rw [written, parse_field h.key, ← index]
  · rw [written, parse_element h.key (Numeral.isDigits_digits n) few, Numeral.value_digits, ← index]

theorem denotes_written : Denotes s.written s := denotes_of_parse (parse_written h)

end Segment

/-- A text that stands for a segment has no blanks. -/
theorem Segment.Denotes.isBlank {text : Text} {s : Segment} (h : Denotes text s) :
    ∀ c ∈ text, Text.isBlank c = false := by
  have inKey : ∀ {key : Text}, IsKey key → ∀ c ∈ key, Text.isBlank c = false :=
    fun key c mem => (Query.isBlank_of_isKeyChar (key.allowed c mem)).1
  cases h with
  | field key => exact inKey key
  | element key digits =>
    intro c mem
    simp only [List.mem_append] at mem
    rcases mem with inside | (opening | number) | closing
    · exact inKey key c inside
    · rw [List.mem_singleton.1 opening]
      decide
    · exact CodePoint.isBlank_of_isDigit (digits.2 c number)
    · rw [List.mem_singleton.1 closing]
      decide

namespace Path

/-! ## Keys and indices of derived addresses -/

theorem exists_of_atIndex_ok {p q : Path} {i : Int} (h : p.atIndex i = .ok q) :
    ∃ n : Nat, i = n ∧ Numeral.isWritable n = true ∧ q = p.element n := by
  unfold atIndex at h
  split at h
  · cases h
  · split at h
    · next index =>
      cases h
      have same := toNat_of_isIndex index
      have natural : 0 ≤ (i.toNat : Int) := Int.natCast_nonneg _
      exact ⟨i.toNat, same.symm, by rwa [← isIndex_of_natural natural, same], rfl⟩
    · cases h

def AreParsed (p : Path) : Prop := ∀ s ∈ p.segments, s.IsParsed

/-- Addresses that have been read, the root, and what is made of them by going on with a segment
that is read, by pointing into an array, by going up, and by leaving out the last index. -/
inductive Derived : Path → Prop where
  | root : Derived root
  | read {s : Text} {p : Path} : parse s = .ok p → Derived p
  | join {p q : Path} {segment : Text} : Derived p → p.join segment = .ok q → Derived q
  | atIndex {p q : Path} {i : Int} : Derived p → p.atIndex i = .ok q → Derived q
  | parent {p q : Path} : Derived p → p.parent = .ok q → Derived q
  | withoutIndex {p : Path} : Derived p → Derived p.withoutIndex

section Steps

variable {p q : Path} (h : p.AreParsed)

include h

theorem AreParsed.append {s : Segment} (parsed : s.IsParsed) : (p.append s).AreParsed := by
  intro t mem
  rcases List.mem_append.1 mem with old | new
  · exact h t old
  · rwa [List.mem_singleton.1 new]

theorem AreParsed.join {segment : Text} (joined : p.join segment = .ok q) : q.AreParsed := by
  obtain ⟨s, read, rfl⟩ := exists_of_map_ok joined
  rw [Segment.widen_nat]
  exact h.append (Segment.isParsed_of_parse read)

theorem AreParsed.parentSegments : (⟨p.parentSegments⟩ : Path).AreParsed :=
  fun s mem => h s ((List.dropLast_prefix _).mem mem)

theorem AreParsed.parent (above : p.parent = .ok q) : q.AreParsed := by
  unfold Path.parent at above
  split at above <;> cases above
  exact h.parentSegments

/-- The last segment may be given another index that can be written. -/
theorem AreParsed.reindexed {s : Segment} (last : p.lastSegment? = some s) {index : Option Nat}
    (written : ∀ i ∈ index, (Numeral.digits i).length ≤ Numeral.digitLimit) :
    (⟨p.parentSegments ++ [⟨s.key, index⟩]⟩ : Path).AreParsed :=
  AreParsed.append (p := ⟨p.parentSegments⟩) h.parentSegments
    ⟨(h s (List.mem_of_getLast? last)).key, written⟩

theorem AreParsed.withoutIndex : p.withoutIndex.AreParsed := by
  unfold Path.withoutIndex
  split
  · exact h
  · next s last => exact h.reindexed last nofun

/-- There is no address with an index that has too many digits to be written. -/
theorem AreParsed.atIndex {i : Int} (pointed : p.atIndex i = .ok q) : q.AreParsed := by
  obtain ⟨n, rfl, writable, rfl⟩ := exists_of_atIndex_ok pointed
  unfold Path.element
  split
  · exact h
  · next s last =>
    apply h.reindexed last
    intro j index
    cases index
    simpa [Numeral.isWritable] using writable

end Steps

theorem Derived.areParsed {p : Path} (h : Derived p) : p.AreParsed := by
  induction h with
  | root => exact nofun
  | read parsed => exact isParsed_of_parse parsed
  | join _ joined ih => exact ih.join joined
  | atIndex _ pointed ih => exact ih.atIndex pointed
  | parent _ above ih => exact ih.parent above
  | withoutIndex _ ih => exact ih.withoutIndex

/-! ## What is written of an address -/

theorem segments_eq_nil_iff {p : Path} : p.segments = [] ↔ p = root := by
  obtain ⟨segments⟩ := p
  simp [root]

theorem query_of_below {p : Path} (below : p.segments ≠ []) : p.query = "$." ++ p.text := by
  simp [query, isRoot, below]

theorem not_denotes_nil (segments : List Segment) : ¬ Denotes [] segments := by
  rw [denotes_iff]
  intro each
  cases each with
  | cons first _ => exact first.ne_nil rfl

section Written

variable {p : Path} (h : p.AreParsed)

include h

/-- What is written of an address below the root stands for its segments. -/
theorem denotes_text (below : p.segments ≠ []) : Denotes p.text p.segments := by
  refine ⟨p.segments.map Segment.written, ?_, rfl, ?_⟩
  · simpa using below
  · rw [List.forall₂_map_left_iff, List.forall₂_same]
    exact fun s mem => Segment.denotes_written (h s mem)

theorem text_eq_nil_iff : p.text = [] ↔ p.segments = [] := by
  constructor
  · intro none
    by_contra below
    exact not_denotes_nil _ (none ▸ denotes_text h below)
  · intro top
    rw [text, top]
    rfl

theorem isBlank_query : ∀ c ∈ p.query, Text.isBlank c = false := by
  rw [p.query_eq]
  intro c mem
  rcases List.mem_cons.1 mem with rfl | inside
  · decide
  · obtain ⟨s, stored, inSegment⟩ := List.mem_flatMap.1 inside
    rcases List.mem_cons.1 inSegment with rfl | written
    · decide
    · exact (Segment.denotes_written (h s stored)).isBlank c written

/-- A text is read as an address below the root if that is written behind the mark of the root. -/
theorem parse_eq_of_text (below : p.segments ≠ []) {s : Text}
    (left : dropRootMark (Text.strip s) = p.text) : parse s = .ok p := by
  have some : dropRootMark (Text.strip s) ≠ [] := by
    rw [left]
    exact fun none => below ((text_eq_nil_iff h).1 none)
  have split : parts s = p.segments.map Segment.written := by
    rw [parts, left, text]
    apply List.splitOn_intercalate
    · intro text mem
      obtain ⟨s, stored, rfl⟩ := List.mem_map.1 mem
      exact (Segment.denotes_written (h s stored)).ne_point
    · simpa using below
  rw [parse_eq_ok_iff some, split, List.forall₂_map_left_iff, List.forall₂_same]
  exact fun s mem => Segment.parse_written (h s mem)

/-- The query for an address is read as the address. -/
theorem parse_query_eq : parse p.query = .ok p := by
  by_cases top : p.segments = []
  · rw [segments_eq_nil_iff.1 top]
    rfl
  · have written : p.query = .char '$' :: .char '.' :: p.text := by
      rw [query_of_below top]
      rfl
    apply parse_eq_of_text h top
    rw [Text.strip_of_not_blank (isBlank_query h), written]
    rfl

end Written

theorem text_eq_iff {p q : Path} (hp : p.AreParsed) (hq : q.AreParsed) :
    p.text = q.text ↔ p.segments = q.segments := by
  constructor
  · intro same
    by_cases top : p.segments = []
    · have none : q.text = [] := same ▸ (text_eq_nil_iff hp).2 top
      rw [top, (text_eq_nil_iff hq).1 none]
    · have below : q.segments ≠ [] := by
        intro top'
        exact top ((text_eq_nil_iff hp).1 (same.trans ((text_eq_nil_iff hq).2 top')))
      have stands := denotes_text hp top
      rw [same] at stands
      exact stands.unique (denotes_text hq below)
  · intro same
    rw [text, same, text]

/-- Derived addresses, which are compared by what is written of them, are equal exactly if they have
the same keys and indices in the same order, and the query for one is read as its segments. -/
theorem equal_iff_same_segments {p q : Path} (hp : Derived p) (hq : Derived q) :
    (p.sameText q = true ↔ p.segments = q.segments) ∧
      ∃ r, parse p.query = .ok r ∧ r.segments = p.segments := by
  constructor
  · rw [sameText, decide_eq_true_iff]
    exact text_eq_iff hp.areParsed hq.areParsed
  · exact ⟨p, parse_query_eq hp.areParsed, rfl⟩

/-- The address of a field whose name is the mark of the root. -/
def markField : Path := ⟨[⟨"$", none⟩]⟩

/-- It differs from the root above it, and its query is read as the address. -/
theorem markField_unlike_root : Derived markField ∧ Derived root ∧
    ¬ (markField.sameText root = true) ∧
    ∃ r, parse markField.query = .ok r ∧ r.segments = markField.segments := by
  have field : Derived markField := .read (s := "$.$") rfl
  have above : Derived root := .parent field rfl
  obtain ⟨equal, read⟩ := equal_iff_same_segments field above
  refine ⟨field, above, ?_, read⟩
  rw [equal]
  exact nofun

end Path
end Intake
