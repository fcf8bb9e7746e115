import Intake.Proofs.Path.Deriving

set_option autoImplicit false

/-!
# Addresses that are read again

What is written of an address has no mark of the root in front, but the address may begin with the
field whose name is that mark. There the reader cannot tell them apart: it leaves the field out, and
it reads every other address as the address itself (`reads_back_unless_marked`).
-/

namespace Intake

theorem Segment.denotes_mark_iff {text : Text} : Denotes text ⟨"$", none⟩ ↔ text = "$" := by
  constructor
  · intro h
    cases h
    rfl
  · rintro rfl
    exact .field ⟨by decide, by decide⟩

namespace Path

/-- An address that begins with the field whose name is the mark of the root. -/
def StartsWithMark (p : Path) : Prop := p.segments.head? = some ⟨"$", none⟩

instance (p : Path) : Decidable p.StartsWithMark :=
  inferInstanceAs (Decidable (p.segments.head? = some ⟨"$", none⟩))

/-- An address without that field in front of it. -/
def withoutMark (p : Path) : Path := if p.StartsWithMark then ⟨p.segments.tail⟩ else p

/-! ## Marks in texts -/

theorem splitOn_append_cons (c : CodePoint) (front back : Text) :
    (front ++ c :: back).splitOn c = front.splitOn c ++ back.splitOn c :=
  List.splitOnP_append_cons front back (beq_self_eq_true c)

/-- The first part between points is the mark, in a text that is the mark or goes on behind it
with a point. -/
theorem head?_splitOn_eq_mark_iff {u : Text} :
    (u.splitOn (.char '.')).head? = some ("$" : Text) ↔ u = "$" ∨ ("$." : Text) <+: u := by
  constructor
  · intro first
    obtain ⟨parts, split⟩ := List.head?_eq_some_iff.1 first
    have joined : List.intercalate [CodePoint.char '.'] (u.splitOn (.char '.')) = u :=
      List.intercalate_splitOn _
    rw [split, intercalate_cons_eq_flatMap] at joined
    rw [← joined]
    cases parts with
    | nil => exact .inl rfl
    | cons part parts => exact .inr ⟨part ++ parts.flatMap _, rfl⟩
  · rintro (rfl | ⟨rest, rfl⟩)
    · rfl
    · exact congrArg List.head? (splitOn_append_cons (.char '.') "$" rest)

/-- An address begins with the field exactly if what stands for it begins with the mark. -/
theorem startsWithMark_iff {u : Text} {p : Path} (h : Denotes u p.segments) :
    p.StartsWithMark ↔ u = "$" ∨ ("$." : Text) <+: u := by
  rw [← head?_splitOn_eq_mark_iff, StartsWithMark]
  have parts := denotes_iff.1 h
  revert parts
  generalize u.splitOn (CodePoint.char '.') = texts
  generalize p.segments = segments
  intro parts
  cases parts with
  | nil => exact iff_of_false nofun nofun
  | @cons text s texts segments first _ =>
    simp only [List.head?_cons, Option.some.injEq, ← Segment.denotes_mark_iff]
    constructor
    · rintro rfl
      exact first
    · exact first.unique

theorem marked_dropRootMark_iff {t : Text} :
    (dropRootMark t = "$" ∨ ("$." : Text) <+: dropRootMark t) ↔
      t = "$.$" ∨ ("$.$." : Text) <+: t := by
  unfold dropRootMark
  split
  · exact iff_of_false (by decide) (by decide)
  · next cs =>
    constructor
    · rintro (rfl | ⟨rest, rfl⟩)
      · exact .inl rfl
      · exact .inr ⟨rest, rfl⟩
    · rintro (same | ⟨rest, same⟩)
      · exact .inl (List.cons.inj (List.cons.inj same).2).2
      · exact .inr ⟨rest, (List.cons.inj (List.cons.inj same).2).2⟩
  · next noMark noPoint =>
    apply iff_of_false
    · rintro (rfl | ⟨rest, rfl⟩)
      · exact noMark rfl
      · exact noPoint rest rfl
    · rintro (rfl | ⟨rest, rfl⟩)
      · exact noPoint _ rfl
      · exact noPoint _ rfl

/-- What is read as an address that begins with the field has two marks in front. -/
theorem startsWithMark_iff_of_parse {s : Text} {p : Path} (h : parse s = .ok p) :
    p.StartsWithMark ↔ Text.strip s = "$.$" ∨ ("$.$." : Text) <+: Text.strip s := by
  rw [← marked_dropRootMark_iff]
  by_cases none : dropRootMark (Text.strip s) = []
  · simp only [parse, if_pos none] at h
    cases h
    rw [none]
    exact iff_of_false (by decide) (by decide)
  · apply startsWithMark_iff
    rw [denotes_iff]
    exact ((parse_eq_ok_iff none).1 h).imp fun text segment => Segment.denotes_of_parse

theorem text_of_startsWithMark {p : Path} (h : p.StartsWithMark) :
    p.text = (⟨p.segments.tail⟩ : Path).query := by
  obtain ⟨more, shape⟩ := List.head?_eq_some_iff.1 h
  rw [text, shape, List.tail_cons]
  cases more with
  | nil => rfl
  | cons s more =>
    rw [query_of_below (List.cons_ne_nil _ _)]
    rfl

theorem tail_ne_of_startsWithMark {p : Path} (h : p.StartsWithMark) :
    p.segments.tail ≠ p.segments := by
  obtain ⟨more, shape⟩ := List.head?_eq_some_iff.1 h
  rw [shape]
  exact (List.cons_ne_self _ _).symm

section Written

variable {p : Path} (h : p.AreParsed)

include h

theorem dropRootMark_text (unmarked : ¬ p.StartsWithMark) : dropRootMark p.text = p.text := by
  by_cases top : p.segments = []
  · rw [(text_eq_nil_iff h).2 top]
    rfl
  · rw [startsWithMark_iff (denotes_text h top), not_or] at unmarked
    rw [dropRootMark_eq, if_neg unmarked.1, if_neg unmarked.2]

theorem isBlank_text : ∀ c ∈ p.text, Text.isBlank c = false := by
  by_cases top : p.segments = []
  · rw [(text_eq_nil_iff h).2 top]
    exact nofun
  · intro c mem
    apply isBlank_query h
    rw [query_of_below top]
    exact List.mem_append_right _ mem

/-- What is written of an address is read as the address, without the field in front of it. -/
theorem parse_text : parse p.text = .ok p.withoutMark := by
  by_cases marked : p.StartsWithMark
  · have later : (⟨p.segments.tail⟩ : Path).AreParsed := fun s mem => h s (List.mem_of_mem_tail mem)
    rw [withoutMark, if_pos marked, text_of_startsWithMark marked]
    exact parse_query_eq later
  · rw [withoutMark, if_neg marked]
    by_cases top : p.segments = []
    · rw [segments_eq_nil_iff.1 top]
      rfl
    · apply parse_eq_of_text h top
      rw [Text.strip_of_not_blank (isBlank_text h), dropRootMark_text h marked]

end Written

/-- What is written of a derived address is read as the address without the field in front of it
whose name is the mark of the root. So it is read back, as an equal address with the same segments,
exactly if the address does not begin with that field. An address that was read from a text begins
with it exactly if the text has two marks in front. -/
theorem reads_back_unless_marked {p : Path} (h : Derived p) :
    parse p.text = .ok p.withoutMark ∧
    ((∃ q, parse p.text = .ok q ∧ q.sameText p = true ∧ q.segments = p.segments) ↔
      ¬ p.StartsWithMark) ∧
    ∀ s, parse s = .ok p →
      (p.StartsWithMark ↔ Text.strip s = "$.$" ∨ ("$.$." : Text) <+: Text.strip s) := by
  have read := parse_text h.areParsed
  refine ⟨read, ⟨?_, ?_⟩, fun s => startsWithMark_iff_of_parse⟩
  · rintro ⟨q, reread, _, same⟩ marked
    rw [read] at reread
    cases reread
    rw [withoutMark, if_pos marked] at same
    exact tail_ne_of_startsWithMark marked same
  · intro unmarked
    rw [withoutMark, if_neg unmarked] at read
    exact ⟨p, read, decide_eq_true rfl, rfl⟩

/-- The field behind an element, both with the mark of the root as their key. -/
def markedElementField : Path := ⟨[⟨"$", some 0⟩, ⟨"$", none⟩]⟩

theorem markedElementField_reads_back : Derived markedElementField ∧
    ∃ q, parse markedElementField.text = .ok q ∧ q.sameText markedElementField = true ∧
      q.segments = markedElementField.segments := by
  have derived : Derived markedElementField := .read (s := " $.$[00].$") rfl
  obtain ⟨_, reads, _⟩ := reads_back_unless_marked derived
  exact ⟨derived, reads.2 (by decide)⟩

/-- The field is read, but what is written of it is read as the root. -/
theorem markField_is_lost : parse "$.$" = .ok markField ∧ parse markField.text = .ok root ∧
    ¬ ∃ q, parse markField.text = .ok q ∧ q.sameText markField = true ∧
      q.segments = markField.segments := by
  refine ⟨rfl, rfl, ?_⟩
  rintro ⟨q, read, same, _⟩
  cases read
  revert same
  decide

end Path
end Intake
