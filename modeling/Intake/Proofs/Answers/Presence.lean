import Intake.Proofs.Answers.Asking
import Intake.Proofs.Path.Grammar
import Intake.Proofs.Query.Straying

set_option autoImplicit false

/-!
# Asking whether anything is stored at an address

The query for an address is written with the keys as they are. It tells whether anything is stored
there for all answers exactly if the address is spelled with plain keys (`Segment.Spelled`) and has
no index. For a spelled address with indices it is wrong exactly where an index is misread
(`Query.Misreads`): there nothing is stored, and the query breaks off or finds a character.
-/

namespace Intake

/-! ## The query for an address -/

theorem Text.head?_strip_cons {c : CodePoint} (solid : isBlank c = false) (cs : Text) :
    (strip (c :: cs)).head? = some c := by
  have kept : [c].dropWhile isBlank = [c] := by simp [solid]
  rw [strip, trim, List.dropWhile_cons_of_neg (by simp [solid]), List.reverse_cons,
    List.dropWhile_append]
  split
  · rw [kept]
    rfl
  · rw [List.reverse_append]
    rfl

/-- The query for an address starts at the root. -/
theorem RootedQuery.exists_ofPath (p : Path) : ∃ q, ofPath p = .ok q ∧ q.text = p.query := by
  have rooted : (Text.strip p.query).head? = some '$' := by
    rw [p.query_eq]
    exact Text.head?_strip_cons (by decide) _
  exact ⟨⟨p.query, rooted⟩, dif_pos rooted, rfl⟩

/-! ## Spelled addresses -/

namespace Path

open Query

theorem alternates_steps (segments : List Segment) :
    Alternates (segments.flatMap Segment.steps) := by
  induction segments with
  | nil => trivial
  | cons s more ih =>
    obtain ⟨key, index⟩ := s
    cases index with
    | none => exact ih
    | some i =>
      cases more with
      | nil => trivial
      | cons t more => exact ih

theorem ne_star_of_spelled {segments : List Segment} (h : Segment.Spelled segments) :
    ∀ s ∈ segments.flatMap Segment.steps, s ≠ .key "*" := by
  induction segments with
  | nil => exact nofun
  | cons s more ih =>
    obtain ⟨plain, _, later⟩ := h
    rw [List.flatMap_cons]
    refine List.forall_mem_append.2 ⟨List.forall_mem_cons.2 ⟨?_, ?_⟩, ih later⟩
    · exact fun same => plain.ne_star (Step.key.inj same)
    · intro t mem
      obtain ⟨i, _, rfl⟩ := List.mem_map.1 mem
      exact nofun

theorem parse_query {p : Path} (parsed : ∀ s ∈ p.segments, s.IsParsed)
    (spelled : Segment.Spelled p.segments) :
    Query.parse p.query = .ok (Route.root.along p.steps) := by
  obtain ⟨x, continues, iff⟩ := exists_continues (Segment.trail p.segments)
  rw [p.query_eq, iff]
  exact continues.of_spelled parsed spelled

end Path

open Query

theorem Answers.hasPath_eq (d : Answers) (p : Path) :
    d.hasPath p = (d.tree.get? p.steps).isSome := rfl

/-- Asking by the query for a spelled address is wrong exactly where the query misreads it. -/
theorem Answers.satisfies_query {p : Path} (parsed : ∀ s ∈ p.segments, s.IsParsed)
    (spelled : Segment.Spelled p.segments) (d : Answers) :
    (¬ Misreads p.steps d.tree ∧ d.satisfies p.query = .ok (d.hasPath p)) ∨
      (Misreads p.steps d.tree ∧ d.hasPath p = false ∧
        (d.satisfies p.query = .error .incomparable ∨ d.satisfies p.query = .ok true)) := by
  have noStar : ∀ s ∈ p.steps, s ≠ .key "*" := Path.ne_star_of_spelled spelled
  have alternates : Alternates p.steps := Path.alternates_steps p.segments
  have holds := satisfies_of_ok (p.parse_query parsed spelled) d
  rw [follow_root_along noStar] at holds
  rw [hasPath_eq, holds]
  rcases reach_cases alternates d.tree with ⟨fine, found⟩ | ⟨bad, absent, broken | ⟨w, found⟩⟩
  · refine .inl ⟨fine, ?_⟩
    rw [found]
    cases d.tree.get? p.steps <;> rfl
  · rw [absent, broken]
    exact .inr ⟨bad, rfl, .inl rfl⟩
  · rw [absent, found]
    exact .inr ⟨bad, rfl, .inr rfl⟩

/-! ## Answers that tell an address from its query -/

/-- Answers in which nothing is stored but what leads along some steps. -/
theorem Answers.exists_lineTo (k : Text) (rest : List Step) {v : Json} (h : v.WellKeyed) :
    ∃ d : Answers, d.tree = Json.lineTo v (.key k :: rest) :=
  ⟨⟨[(k, Json.lineTo v rest)], Json.wellKeyed_lineTo h (.key k :: rest), false, none⟩, rfl⟩

/-- Such answers are read from what is written of them. -/
theorem Answers.exists_ofText_lineTo (k : Text) (rest : List Step) {a : Atom}
    (h : a.isIntegral = true) :
    ∃ d, ofText (Json.write (Json.lineTo (.atom a) (.key k :: rest))) = .ok d ∧
      d.tree = Json.lineTo (.atom a) (.key k :: rest) := by
  have read := Json.read_write (Json.wellKeyed_lineTo (.atom a) (.key k :: rest))
    (Json.integral_lineTo (.atom h) (.key k :: rest))
  obtain ⟨d, made, tree, _⟩ := ofText_of_read read
  exact ⟨d, made, tree⟩

theorem Answers.fruit_of_satisfies {query : Text} {r : Route} {d : Answers}
    (read : parse query = .ok r) (h : d.satisfies query = .ok true) : ¬ r.Fruitless d.tree := by
  intro barren
  rw [satisfies_of_ok read] at h
  cases found : r.follow skipQuietly d.tree with
  | error e =>
    rw [found] at h
    cases h
  | ok vs =>
    rw [found, barren vs found] at h
    cases h

/-- A query that reads a key as the star finds what is stored in another field. -/
theorem Path.exists_unlike_of_star {p : Path} {others : List Segment}
    (read : Query.parse p.query = .ok (Route.root.along (others.flatMap Segment.steps)))
    (readAs : List.Forall₂ ReadAs p.segments others) (star : ∃ t ∈ others, t.key = "*") :
    ∃ d : Answers, d.satisfies p.query = .ok true ∧ d.hasPath p = false := by
  obtain ⟨place, places, meets, absent⟩ := exists_elsewhere readAs star
  obtain ⟨d, tree⟩ : ∃ d : Answers, d.tree =
      Json.lineTo (.atom .null) ((place :: places).flatMap Segment.steps) :=
    Answers.exists_lineTo _ _ (.atom .null)
  have found : (Route.root.along (others.flatMap Segment.steps)).follow skipQuietly d.tree =
      .ok [Json.lineTo (.atom .null) []] := by
    refine follow_along_lineTo meets ?_
    rw [tree, List.append_nil, Route.follow_root]
  refine ⟨d, ?_, ?_⟩
  · rw [Answers.satisfies_of_ok read, found]
    rfl
  · rw [Answers.hasPath_eq, tree, steps, absent, Option.isSome_none]

/-- An address that its query finds, and no other instead, is spelled. -/
theorem Path.spelled_of_agrees {p : Path} (parsed : ∀ s ∈ p.segments, s.IsParsed)
    (agrees : ∀ d : Answers, d.satisfies p.query = .ok (d.hasPath p)) :
    Segment.Spelled p.segments := by
  cases shape : p.segments with
  | nil => trivial
  | cons s more =>
    rw [← shape]
    -- What leads along the address, and nothing else, is stored.
    obtain ⟨d, tree⟩ := Answers.exists_lineTo s.key (s.indexSteps ++ more.flatMap Segment.steps)
      (.atom .null)
    rw [← steps_of_segments shape] at tree
    have present : d.hasPath p = true := by simp [Answers.hasPath_eq, tree]
    have holds := agrees d
    rw [present] at holds
    cases read : Query.parse p.query with
    | error e =>
      rw [Answers.satisfies_of_error read] at holds
      cases holds
    | ok out =>
      have fruit := Answers.fruit_of_satisfies read holds
      obtain ⟨x, continues, iff⟩ := exists_continues (Segment.trail p.segments)
      rw [← p.query_eq] at iff
      rw [(iff out).1 read] at continues
      have start : Route.root.follow skipQuietly d.tree =
          .ok [Json.lineTo (.atom .null) (p.segments.flatMap Segment.steps)] := by
        rw [tree, Route.follow_root]
        rfl
      obtain ⟨others, readAs, rfl, spelled⟩ := continues.exists_readAs parsed start fruit
      refine spelled fun t mem star => ?_
      obtain ⟨e, found, missing⟩ := Path.exists_unlike_of_star read readAs ⟨t, mem, star⟩
      rw [agrees e, missing] at found
      cases found

/-- An index is misread where `true` is stored. -/
theorem Path.index_eq_none_of_agrees {p : Path} (parsed : ∀ s ∈ p.segments, s.IsParsed)
    (spelled : Segment.Spelled p.segments)
    (agrees : ∀ d : Answers, d.satisfies p.query = .ok (d.hasPath p)) :
    ∀ s ∈ p.segments, s.index = none := by
  intro s mem
  cases index : s.index with
  | none => rfl
  | some i =>
    obtain ⟨before, behind, shape⟩ := List.append_of_mem mem
    have steps : p.steps = (before.flatMap Segment.steps ++ [.key s.key]) ++
        .index i :: behind.flatMap Segment.steps := by
      rw [Path.steps, shape]
      simp [Segment.steps, Segment.indexSteps, index]
    obtain ⟨k, rest, first⟩ : ∃ k rest, before.flatMap Segment.steps ++ [.key s.key] =
        .key k :: rest := by
      cases before with
      | nil => exact ⟨_, _, rfl⟩
      | cons t before => exact ⟨_, _, rfl⟩
    obtain ⟨d, tree⟩ := Answers.exists_lineTo k rest (.atom (.bool true))
    have misread : Misreads p.steps d.tree := by
      rw [tree, ← first]
      exact ⟨_, _, _, _, steps, Json.get?_lineTo _ _, .inl rfl⟩
    rcases Answers.satisfies_query parsed spelled d with ⟨fine, _⟩ | ⟨_, absent, broken | found⟩
    · exact absurd misread fine
    · rw [agrees d] at broken
      cases broken
    · rw [agrees d, absent] at found
      cases found

theorem Path.not_misreads {p : Path} (plain : ∀ s ∈ p.segments, s.index = none) (v : Json) :
    ¬ Misreads p.steps v := by
  rintro ⟨before, i, behind, w, shape, _⟩
  have mem : Step.index i ∈ p.steps := shape ▸ List.mem_append_right _ List.mem_cons_self
  obtain ⟨s, inside, mem⟩ := List.mem_flatMap.1 mem
  rw [Segment.steps, Segment.indexSteps, plain s inside] at mem
  cases List.mem_singleton.1 mem

/-- For every address there is a query whether anything is stored there. It tells so for all answers
exactly if the address is spelled with plain keys and has no index. If the address is spelled and
has indices, the query tells so for all answers in which it does not misread an index; where it
does, nothing is stored at the address, and the query breaks off or holds. -/
theorem presence_told_of_spelled_addresses {s : Text} {p : Path} (h : Path.parse s = .ok p) :
    ∃ q, RootedQuery.ofPath p = .ok q ∧
      ((∀ d : Answers, (Predicate.leaf q).holds d = .ok (d.hasPath p)) ↔
        Segment.Spelled p.segments ∧ ∀ segment ∈ p.segments, segment.index = none) ∧
      (Segment.Spelled p.segments → ∀ d : Answers,
        (¬ Misreads p.steps d.tree ∧ (Predicate.leaf q).holds d = .ok (d.hasPath p)) ∨
        (Misreads p.steps d.tree ∧ d.hasPath p = false ∧
          ((Predicate.leaf q).holds d = .error .incomparable ∨
            (Predicate.leaf q).holds d = .ok true))) := by
  have parsed := Path.isParsed_of_parse h
  obtain ⟨q, made, text⟩ := RootedQuery.exists_ofPath p
  have asked : ∀ d : Answers, (Predicate.leaf q).holds d = d.satisfies p.query := fun d => by
    rw [Predicate.holds, text]
  refine ⟨q, made, ?_⟩
  simp only [asked]
  refine ⟨⟨fun agrees => ?_, fun ⟨spelled, plain⟩ d => ?_⟩, Answers.satisfies_query parsed⟩
  · have spelled := Path.spelled_of_agrees parsed agrees
    exact ⟨spelled, Path.index_eq_none_of_agrees parsed spelled agrees⟩
  · rcases Answers.satisfies_query parsed spelled d with ⟨_, told⟩ | ⟨bad, _⟩
    · exact told
    · exact absurd bad (Path.not_misreads plain d.tree)

/-- The address of the first child's name. -/
def childName : Path := ⟨[⟨"applicant", none⟩, ⟨"children", some 0⟩, ⟨"name", none⟩]⟩

/-- The address of the first child's name is spelled, and its query tells that null is stored
there. -/
theorem child_name_is_present : ∃ q d, Path.parse "applicant.children[0].name" = .ok childName ∧
    RootedQuery.ofPath childName = .ok q ∧
    Answers.ofText "\x7b\"applicant\":\x7b\"children\":[\x7b\"name\":null\x7d]\x7d\x7d" = .ok d ∧
    (Predicate.leaf q).holds d = .ok true := by
  have address : Path.parse "applicant.children[0].name" = .ok childName := by rfl
  have applicant : Token.IsWord "applicant" := .plain (by decide) (by decide)
  have children : Token.IsWord "children" := .plain (by decide) (by decide)
  have name : Token.IsWord "name" := .plain (by decide) (by decide)
  have spelled : Segment.Spelled childName.segments :=
    ⟨.inl ⟨applicant, by decide⟩, fun integer => absurd integer applicant.not_isInteger,
      .inl ⟨children, by decide⟩, fun integer => absurd integer children.not_isInteger,
      .inl ⟨name, by decide⟩, fun integer => absurd integer name.not_isInteger, trivial⟩
  obtain ⟨q, made, _, told⟩ := presence_told_of_spelled_addresses address
  obtain ⟨d, accepted, tree⟩ := Answers.exists_ofText_lineTo "applicant"
    [.key "children", .index 0, .key "name"] (rfl : Atom.null.isIntegral = true)
  have present : d.hasPath childName = true := by
    rw [Answers.hasPath_eq, tree]
    rfl
  refine ⟨q, d, address, made, accepted, ?_⟩
  rcases told spelled d with ⟨_, holds⟩ | ⟨_, absent, _⟩
  · rw [holds, present]
  · rw [present] at absent
    cases absent

/-- The address of a field of the applicant whose name is a star. -/
def starField : Path := ⟨[⟨"applicant", none⟩, ⟨"*", none⟩]⟩

/-- Where nothing is stored in a field whose name is a star, its query finds another field. -/
theorem another_field_is_found : ∃ q d, Path.parse "applicant.*" = .ok starField ∧
    RootedQuery.ofPath starField = .ok q ∧
    Answers.ofText "\x7b\"applicant\":\x7b\"a\":1\x7d\x7d" = .ok d ∧
    (Predicate.leaf q).holds d = .ok true ∧ d.hasPath starField = false := by
  have address : Path.parse "applicant.*" = .ok starField := by rfl
  have tokens : (Lexeme.scan starField.query).map Lexeme.token =
      [.root, .dot, .name "applicant", .dot, .star] := by
    decide +kernel
  have read := parse_of_tokens tokens rfl
  obtain ⟨q, made, text⟩ := RootedQuery.exists_ofPath starField
  obtain ⟨d, accepted, tree⟩ := Answers.exists_ofText_lineTo "applicant" [.key "a"]
    (rfl : (Atom.int 1).isIntegral = true)
  refine ⟨q, d, address, made, accepted, ?_, ?_⟩
  · rw [Predicate.holds, text, Answers.satisfies_of_ok read, tree]
    rfl
  · rw [Answers.hasPath_eq, tree]
    rfl

end Intake
