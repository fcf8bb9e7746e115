import Mathlib.Data.List.Forall2
import Intake.Path
import Intake.Proofs.Query.Addressing
import Intake.Proofs.Values.Overlong

set_option autoImplicit false

/-!
# The grammar of addresses

A segment is written as a key, or as a key and digits in brackets behind it; an address is written
as its segments with points between them. `Denotes` says what a text stands for by its shape. A text
stands for at most one row of segments (`Path.Denotes.unique`), and without its blanks and the mark
of the root in front it is read as these segments, or refused (`addresses_follow_grammar`).
-/

namespace Intake

open Query.Token (IsKey)

/-- What a list is read into has been read member by member. -/
theorem mapM_eq_ok_iff {ε α β : Type} {f : α → Except ε β} {xs : List α} {ys : List β} :
    xs.mapM f = .ok ys ↔ List.Forall₂ (fun x y => f x = .ok y) xs ys := by
  induction xs generalizing ys with
  | nil => cases ys <;> simp [pure, Except.pure]
  | cons x xs ih =>
    rw [List.mapM_cons, List.forall₂_cons_left_iff]
    constructor
    · intro h
      cases first : f x with
      | error e => simp [first, bind, Except.bind] at h
      | ok y =>
        cases rest : xs.mapM f with
        | error e => simp [first, rest, bind, Except.bind] at h
        | ok zs =>
          simp only [first, rest, bind, Except.bind, pure, Except.pure, Except.ok.injEq] at h
          exact ⟨y, zs, rfl, ih.1 rest, h.symm⟩
    · rintro ⟨y, zs, first, rest, rfl⟩
      simp [first, ih.2 rest, bind, Except.bind, pure, Except.pure]

/-! ## Segments -/

namespace Segment

/-- What a text stands for as a segment. -/
inductive Denotes : Text → Segment → Prop where
  | field {key : Text} : IsKey key → Denotes key ⟨key, none⟩
  | element {key ds : Text} : IsKey key → IsDigits ds →
      Denotes (key ++ ("[" ++ ds ++ "]")) ⟨key, some (Numeral.value ds)⟩

theorem takeWhile_key {key : Text} (h : IsKey key) (ds : Text) :
    (key ++ ("[" ++ ds)).takeWhile isKeyChar = key ∧
      (key ++ ("[" ++ ds)).dropWhile isKeyChar = "[" ++ ds := by
  have stops : ("[" ++ ds : Text).takeWhile isKeyChar = [] ∧
      ("[" ++ ds : Text).dropWhile isKeyChar = "[" ++ ds := ⟨rfl, rfl⟩
  rw [List.takeWhile_append_of_pos h.allowed, List.dropWhile_append_of_pos h.allowed, stops.1,
    stops.2, List.append_nil]
  exact ⟨rfl, rfl⟩

/-- The key ends where its characters end, and the brackets behind it hold the index. -/
theorem Denotes.eq {text : Text} {s : Segment} (h : Denotes text s) :
    s = ⟨text.takeWhile isKeyChar,
      (indexDigits? (text.dropWhile isKeyChar)).map Numeral.value⟩ := by
  cases h with
  | field key =>
    rw [List.takeWhile_eq_self_iff.2 key.allowed, List.dropWhile_eq_nil_iff.2 key.allowed]
    rfl
  | @element key ds allowed digits =>
    have index := indexDigits?_eq_some_iff.2 ⟨digits, rfl⟩
    rw [List.append_assoc] at index ⊢
    obtain ⟨taken, left⟩ := takeWhile_key allowed (ds ++ "]")
    rw [taken, left, index]
    rfl

theorem Denotes.unique {text : Text} {s s' : Segment} (h : Denotes text s) (h' : Denotes text s') :
    s = s' :=
  h.eq.trans h'.eq.symm

theorem Denotes.ne_point {text : Text} {s : Segment} (h : Denotes text s) :
    CodePoint.char '.' ∉ text := by
  have inKey : ∀ {key : Text}, IsKey key → CodePoint.char '.' ∉ key := by
    intro key allowed mem
    exact absurd (allowed.allowed _ mem) (by decide)
  cases h with
  | field key => exact inKey key
  | element key digits =>
    intro mem
    simp only [List.mem_append] at mem
    rcases mem with inside | (bracket | number) | bracket
    · exact inKey key inside
    · exact absurd bracket (by decide)
    · exact digits.not_mem rfl number
    · exact absurd bracket (by decide)

theorem Denotes.ne_nil {text : Text} {s : Segment} (h : Denotes text s) : text ≠ [] := by
  cases h with
  | field key => exact key.ne_nil
  | element key _ => exact List.append_ne_nil_of_left_ne_nil key.ne_nil _

theorem denotes_of_parse {text : Text} {s : Segment} (h : parse text = .ok s) :
    Denotes text s := by
  have shape := List.takeWhile_append_dropWhile (p := isKeyChar) (l := text)
  simp only [parse] at h
  split at h
  · cases h
  · next some =>
    have key : IsKey (text.takeWhile isKeyChar) :=
      ⟨some, List.all_eq_true.1 List.all_takeWhile⟩
    split at h
    · next ended =>
      cases h
      rw [ended, List.append_nil] at shape
      have field := Denotes.field key
      rwa [shape] at field ⊢
    · split at h
      · cases h
      · next ds found =>
        obtain ⟨digits, index⟩ := indexDigits?_eq_some_iff.1 found
        split at h
        · cases h
        · next n value =>
          cases h
          have element := Denotes.element key digits
          rw [← index, shape] at element
          rwa [Numeral.eq_value_of_value? value]

theorem parse_field {key : Text} (h : IsKey key) : parse key = .ok ⟨key, none⟩ := by
  simp [parse, List.takeWhile_eq_self_iff.2 h.allowed, List.dropWhile_eq_nil_iff.2 h.allowed,
    h.ne_nil]

theorem parse_element {key ds : Text} (h : IsKey key) (digits : IsDigits ds)
    (few : ds.length ≤ Numeral.digitLimit) :
    parse (key ++ ("[" ++ ds ++ "]")) = .ok ⟨key, some (Numeral.value ds)⟩ := by
  have value : Numeral.value? ds = some (Numeral.value ds) := if_pos few
  have index := indexDigits?_eq_some_iff.2 ⟨digits, rfl⟩
  rw [List.append_assoc] at index ⊢
  obtain ⟨taken, left⟩ := takeWhile_key h (ds ++ "]")
  simp only [parse, taken, left, if_neg h.ne_nil, index, value]
  rfl

/-- The index of a segment that is not too long has few enough digits. -/
theorem length_le_of_not_isOverlong {key ds : Text} (allowed : IsKey key) (digits : IsDigits ds)
    (short : ¬ IsOverlong (key ++ ("[" ++ ds ++ "]"))) : ds.length ≤ Numeral.digitLimit := by
  by_contra long
  exact short ⟨key, ds, allowed.ne_nil, allowed.allowed, ⟨digits, Nat.lt_of_not_le long⟩, rfl⟩

/-- A segment is read as what it stands for, unless its index is too long. -/
theorem parse_eq_ok_iff {text : Text} {s : Segment} :
    parse text = .ok s ↔ Denotes text s ∧ ¬ IsOverlong text := by
  constructor
  · intro read
    refine ⟨denotes_of_parse read, fun long => ?_⟩
    rw [parse_of_isOverlong long] at read
    cases read
  · rintro ⟨stands, short⟩
    cases stands with
    | field key => exact parse_field key
    | element allowed digits =>
      exact parse_element allowed digits (length_le_of_not_isOverlong allowed digits short)

theorem isParsed_of_parse {text : Text} {s : Segment} (h : parse text = .ok s) : s.IsParsed := by
  obtain ⟨stands, short⟩ := parse_eq_ok_iff.1 h
  cases stands with
  | field key => exact ⟨key, fun i index => nomatch index⟩
  | @element key ds allowed digits =>
    have few := length_le_of_not_isOverlong allowed digits short
    refine ⟨allowed, fun i index => ?_⟩
    cases index
    exact Nat.le_trans (Numeral.length_digits_value_le digits.2 digits.1) few

end Segment

/-! ## Addresses -/

/-- No run of digits in brackets is too long to be converted. -/
def HasShortIndices (text : Text) : Prop :=
  ∀ before ds after, IsDigits ds → text = before ++ ("[" ++ ds ++ "]") ++ after →
    ds.length ≤ Numeral.digitLimit

theorem hasShortIndices_of_length {text : Text} (h : text.length ≤ Numeral.digitLimit) :
    HasShortIndices text := by
  intro before ds after _ shape
  have within := congrArg List.length shape
  simp only [List.length_append] at within
  omega

theorem HasShortIndices.of_infix {text part : Text} (h : HasShortIndices text)
    (inside : part <:+: text) : HasShortIndices part := by
  obtain ⟨front, back, rfl⟩ := inside
  intro before ds after digits shape
  apply h (front ++ before) ds (after ++ back) digits
  rw [shape]
  simp only [List.append_assoc]

theorem HasShortIndices.not_isOverlong {text : Text} (h : HasShortIndices text) :
    ¬ Segment.IsOverlong text := by
  rintro ⟨key, ds, _, _, ⟨digits, long⟩, shape⟩
  have few := h key ds [] digits (by rw [shape, List.append_nil])
  omega

namespace Path

/-- What a text stands for as an address: its parts between points stand for segments. -/
def Denotes (s : Text) (segments : List Segment) : Prop :=
  ∃ texts, texts ≠ [] ∧ s = List.intercalate "." texts ∧
    List.Forall₂ Segment.Denotes texts segments

theorem denotes_iff {s : Text} {segments : List Segment} :
    Denotes s segments ↔ List.Forall₂ Segment.Denotes (s.splitOn (.char '.')) segments := by
  constructor
  · rintro ⟨texts, some, rfl, each⟩
    obtain ⟨pointless, _⟩ := (List.forall₂_and_left texts segments).1
      (each.imp fun text s stands => ⟨stands.ne_point, stands⟩)
    have parts : (List.intercalate "." texts).splitOn (.char '.') = texts :=
      List.splitOn_intercalate (.char '.') pointless some
    rwa [parts]
  · intro each
    exact ⟨s.splitOn (.char '.'), List.splitOn_ne_nil _ _, (List.intercalate_splitOn _).symm, each⟩

theorem Denotes.unique {s : Text} {xs ys : List Segment} (hx : Denotes s xs) (hy : Denotes s ys) :
    xs = ys :=
  have unique : Relator.RightUnique Segment.Denotes := fun _ _ _ => Segment.Denotes.unique
  List.right_unique_forall₂' unique (denotes_iff.1 hx) (denotes_iff.1 hy)

/-- One mark of the root is left out, if it is all or a point follows. -/
theorem dropRootMark_eq (t : Text) :
    dropRootMark t = if t = "$" then [] else if ("$." : Text) <+: t then t.drop 2 else t := by
  unfold dropRootMark
  split
  · rfl
  · next cs =>
    have mark : ("$." : Text) <+: .char '$' :: .char '.' :: cs := ⟨cs, rfl⟩
    rw [if_neg (by intro same; cases same), if_pos mark]
    rfl
  · next noMark noPoint =>
    have dotted : ¬ ("$." : Text) <+: t := by
      rintro ⟨cs, rfl⟩
      exact noPoint cs rfl
    have marked : ¬ t = ("$" : Text) := noMark
    rw [if_neg marked, if_neg dotted]

/-- Behind the mark of the root every part is read as a segment. -/
theorem parse_eq_ok_iff {s : Text} (some : dropRootMark (Text.strip s) ≠ []) {p : Path} :
    parse s = .ok p ↔
      List.Forall₂ (fun text segment => Segment.parse text = .ok segment) (parts s) p.segments := by
  rw [← mapM_eq_ok_iff, parts]
  simp only [parse, if_neg some]
  cases (dropRootMark (Text.strip s)).splitOn (.char '.') |>.mapM Segment.parse with
  | error e => simp [Except.map]
  | ok segments =>
    obtain ⟨kept⟩ := p
    simp [Except.map]

/-- What stands in an address that is read has been read as a segment. -/
theorem isParsed_of_parse {s : Text} {p : Path} (h : parse s = .ok p) :
    ∀ segment ∈ p.segments, segment.IsParsed := by
  intro segment mem
  by_cases none : dropRootMark (Text.strip s) = []
  · simp only [parse, if_pos none] at h
    cases h
    cases mem
  · obtain ⟨_, _, read⟩ := exists_of_mem_mapM (mapM_eq_ok_iff.2 ((parse_eq_ok_iff none).1 h))
      segment mem
    exact Segment.isParsed_of_parse read

section Read

variable {s : Text} (some : dropRootMark (Text.strip s) ≠ []) (short : HasShortIndices s)

include some short

theorem parse_eq_ok_iff_denotes {p : Path} :
    parse s = .ok p ↔ Denotes (dropRootMark (Text.strip s)) p.segments := by
  rw [parse_eq_ok_iff some, denotes_iff]
  constructor
  · intro each
    exact each.imp fun text segment => Segment.denotes_of_parse
  · intro each
    have fits : ∀ text ∈ parts s, ¬ Segment.IsOverlong text :=
      fun text mem => (short.of_infix (infix_of_mem_parts mem)).not_isOverlong
    exact ((List.forall₂_and_left _ _).2 ⟨fits, each⟩).imp
      fun text segment stands => Segment.parse_eq_ok_iff.2 stands.symm

/-- A text that stands for no address is refused at its first part that stands for no segment. -/
theorem parse_of_not_denotes (h : ∀ xs, ¬ Denotes (dropRootMark (Text.strip s)) xs) :
    ∃ earlier part later, parts s = earlier ++ part :: later ∧
      (∀ text ∈ earlier, ∃ segment, Segment.Denotes text segment) ∧
      (∀ segment, ¬ Segment.Denotes part segment) ∧
      parse s = .error (.malformedSegment part) := by
  cases result : parse s with
  | ok p => exact absurd ((parse_eq_ok_iff_denotes some short).1 result) (h p.segments)
  | error e =>
    obtain ⟨_, earlier, part, later, shape, accepted, refused⟩ := parse_eq_error_iff.1 result
    have mem : part ∈ parts s := shape ▸ List.mem_append_right _ List.mem_cons_self
    have fits := (short.of_infix (infix_of_mem_parts mem)).not_isOverlong
    refine ⟨earlier, part, later, shape, ?_, ?_, ?_⟩
    · intro text inside
      obtain ⟨segment, read⟩ := accepted text inside
      exact ⟨segment, Segment.denotes_of_parse read⟩
    · intro segment stands
      rw [Segment.parse_eq_ok_iff.2 ⟨stands, fits⟩] at refused
      cases refused
    · rcases Segment.parse_eq_error refused with rfl | ⟨_, long⟩
      · rfl
      · exact absurd long fits

end Read

/-- A text whose indices are not too long is read by the grammar of addresses. What counts is the
text without the blanks at its ends and without one mark of the root, behind which a point may
stand. If nothing is left, then it is read as the root. Otherwise it is read as the segments it
stands for, which are determined by it, and if it stands for none, then it is refused at the first
part between points that stands for no segment. -/
theorem addresses_follow_grammar (text : Text) (short : HasShortIndices text) :
    let t := Text.strip text
    let s := if t = "$" then [] else if ("$." : Text) <+: t then t.drop 2 else t
    (s = [] → parse text = .ok root) ∧
    (s ≠ [] →
      (∀ p : Path, parse text = .ok p ↔ Denotes s p.segments) ∧
      (∀ xs ys, Denotes s xs → Denotes s ys → xs = ys) ∧
      ((∀ xs, ¬ Denotes s xs) → ∃ earlier part later,
        s.splitOn (.char '.') = earlier ++ part :: later ∧
        (∀ e ∈ earlier, ∃ segment, Segment.Denotes e segment) ∧
        (∀ segment, ¬ Segment.Denotes part segment) ∧
        parse text = .error (.malformedSegment part))) := by
  intro t s
  have same : s = dropRootMark (Text.strip text) := (dropRootMark_eq t).symm
  rw [same]
  constructor
  · intro none
    simp only [parse, if_pos none]
  · intro some
    exact ⟨fun p => parse_eq_ok_iff_denotes some short, fun xs ys => Denotes.unique,
      parse_of_not_denotes some short⟩

/-- One mark of the root is dropped, and a key may be that mark. -/
def markedJob : Text := " $.$.jobs[007]\n"

theorem markedJob_follows_grammar :
    HasShortIndices markedJob ∧ parse markedJob = .ok ⟨[⟨"$", none⟩, ⟨"jobs", some 7⟩]⟩ := by
  have short : HasShortIndices markedJob := hasShortIndices_of_length (by decide)
  have mark : IsKey "$" := ⟨by decide, by decide⟩
  have jobs : IsKey "jobs" := ⟨by decide, by decide⟩
  have digits : IsDigits "007" := ⟨by decide, by decide⟩
  have stands : Denotes "$.jobs[007]" [⟨"$", none⟩, ⟨"jobs", some 7⟩] :=
    ⟨["$", "jobs[007]"], by decide, rfl, .cons (.field mark) (.cons (.element jobs digits) .nil)⟩
  obtain ⟨_, read⟩ := addresses_follow_grammar markedJob short
  exact ⟨short, ((read (by decide)).1 _).2 stands⟩

end Path
end Intake
