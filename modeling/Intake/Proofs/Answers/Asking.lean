import Intake.Predicate
import Intake.Proofs.Answers.Persistence
import Intake.Proofs.Query.Breaking
import Intake.Proofs.Query.Parsing

set_option autoImplicit false

/-!
# Queries asked of answers

A query that cannot be read is refused for all answers alike. One that can be read gives a truth
value or breaks off, and what breaks it off is known (`Query.Route.BreaksOff`). A tree of queries
breaks off only where one of its queries does.
-/

namespace Intake

open Query

theorem Answers.satisfies_of_error {query : Text} {e : Fault} (h : parse query = .error e)
    (d : Answers) : d.satisfies query = .error e := by
  rw [satisfies, find, findWith, h]
  rfl

theorem Answers.satisfies_of_ok {query : Text} {r : Route} (h : parse query = .ok r) (d : Answers) :
    d.satisfies query =
      ((r.follow skipQuietly d.tree).map fun vs => !vs.isEmpty).mapError MatchFault.toFault := by
  rw [satisfies, find, findWith, h]
  show ((r.follow skipQuietly d.tree).mapError MatchFault.toFault).map _ = _
  cases r.follow skipQuietly d.tree <;> rfl

/-! ## Trees of queries -/

namespace Predicate

/-- What a step of the evaluation breaks off with, one of some queries breaks off with. -/
def Blames (d : Answers) (qs : List RootedQuery) (x : Except Fault Bool) : Prop :=
  ∀ e, x = .error e → ∃ q ∈ qs, d.satisfies q.text = .error e

theorem Blames.bind {d : Answers} {ps qs : List RootedQuery} {x : Except Fault Bool}
    {f : Bool → Except Fault Bool} (first : Blames d ps x) (more : ∀ b, Blames d qs (f b)) :
    Blames d (ps ++ qs) (x >>= f) := by
  intro e h
  cases x with
  | error e' =>
    obtain ⟨q, mem, same⟩ := first e h
    exact ⟨q, List.mem_append_left _ mem, same⟩
  | ok b =>
    obtain ⟨q, mem, same⟩ := more b e h
    exact ⟨q, List.mem_append_right _ mem, same⟩

theorem blames_ok (d : Answers) (qs : List RootedQuery) (b : Bool) : Blames d qs (.ok b) :=
  fun _ h => nomatch h

mutual

theorem blames_holds (d : Answers) : (p : Predicate) → Blames d p.leaves (p.holds d)
  | leaf q => by
    rw [holds, leaves]
    exact fun e h => ⟨q, List.mem_singleton_self q, h⟩
  | all first more => by
    rw [holds, leaves]
    refine (blames_holds d first).bind fun b => ?_
    cases b
    · exact blames_ok d _ false
    · exact blames_holdsAll d more
  | any first more => by
    rw [holds, leaves]
    refine (blames_holds d first).bind fun b => ?_
    cases b
    · exact blames_holdsAny d more
    · exact blames_ok d _ true

theorem blames_holdsAll (d : Answers) :
    (ps : List Predicate) → Blames d (leavesOf ps) (holdsAll d ps)
  | [] => by
    rw [holdsAll]
    exact blames_ok d _ true
  | p :: ps => by
    rw [holdsAll, leavesOf]
    refine (blames_holds d p).bind fun b => ?_
    cases b
    · exact blames_ok d _ false
    · exact blames_holdsAll d ps

theorem blames_holdsAny (d : Answers) :
    (ps : List Predicate) → Blames d (leavesOf ps) (holdsAny d ps)
  | [] => by
    rw [holdsAny]
    exact blames_ok d _ false
  | p :: ps => by
    rw [holdsAny, leavesOf]
    refine (blames_holds d p).bind fun b => ?_
    cases b
    · exact blames_holdsAny d ps
    · exact blames_ok d _ true

end

end Predicate

/-! ## Queries -/

theorem Answers.satisfies_cases {query : Text} {r : Route} (h : parse query = .ok r) (d : Answers) :
    (∃ holds, d.satisfies query = .ok holds ∧ ∀ fault, ¬ r.BreaksOff d.tree fault) ∨
      ∃ fault, r.BreaksOff d.tree fault ∧ d.satisfies query = .error fault.toFault ∧
        r.isSafe false = false ∧ (fault = .incomparable ∨ r.isSafe true = false) := by
  rw [satisfies_of_ok h]
  cases outcome : r.follow skipQuietly d.tree with
  | ok vs =>
    refine .inl ⟨!vs.isEmpty, rfl, fun fault broken => ?_⟩
    rw [r.follow_eq_error_iff.2 broken] at outcome
    cases outcome
  | error fault =>
    have broken := r.follow_eq_error_iff.1 outcome
    refine .inr ⟨fault, broken, rfl, ?_, ?_⟩
    · exact Bool.eq_false_iff.2 fun safe => nomatch (broken.of_isSafe safe).1
    · cases safe : r.isSafe true with
      | true => exact .inl (broken.of_isSafe safe).2
      | false => exact .inr rfl

/-- A query either is refused, in the same way for all answers, or can be read and gives a truth
value for all answers at which it does not break off. A query without strides of zero and without
what routes have in common breaks off only at an index that is asked of a number or of `true`, and
not at all if it has no index outside of filters. A tree of queries gives a truth value unless one
of them breaks off or is refused. -/
theorem queries_hold_or_break_off (query : Text) (p : Predicate) :
    ((∃ e, parse query = .error e ∧
        (e.category = .query ∨ (e = .numeralTooLong ∧ Numeral.digitLimit < query.length)) ∧
        ∀ d : Answers, d.satisfies query = .error e) ∨
      ∃ r, parse query = .ok r ∧ ∀ d : Answers,
        (∃ holds, d.satisfies query = .ok holds ∧ ∀ fault, ¬ r.BreaksOff d.tree fault) ∨
        ∃ fault, r.BreaksOff d.tree fault ∧ d.satisfies query = .error fault.toFault ∧
          r.isSafe false = false ∧ (fault = .incomparable ∨ r.isSafe true = false)) ∧
    ∀ d : Answers, (∃ holds, p.holds d = .ok holds) ∨
      ∃ q ∈ p.leaves, ∃ e, p.holds d = .error e ∧ d.satisfies q.text = .error e := by
  constructor
  · cases read : parse query with
    | error e => exact .inl ⟨e, rfl, parse_error read, Answers.satisfies_of_error read⟩
    | ok r => exact .inr ⟨r, rfl, Answers.satisfies_cases read⟩
  · intro d
    cases outcome : p.holds d with
    | ok holds => exact .inl ⟨holds, rfl⟩
    | error e =>
      obtain ⟨q, mem, same⟩ := p.blames_holds d e outcome
      exact .inr ⟨q, mem, e, rfl, same⟩

/-- The first element of what is stored in a field. -/
def firstElement : Text := "$.a[0]"

/-- The query can be read, and breaks off where the field holds a number. -/
theorem number_is_not_indexed : ∃ d r, Answers.ofText "\x7b\"a\":5\x7d" = .ok d ∧
    parse firstElement = .ok r ∧ d.satisfies firstElement = .error .incomparable := by
  have wellKeyed : (Json.object [("a", .int 5)]).WellKeyed :=
    .object (by decide) (List.forall_mem_singleton.2 (.atom _))
  have integral : (Json.object [("a", .int 5)]).Integral :=
    .object (List.forall_mem_singleton.2 (.atom rfl))
  have tokens : (Lexeme.scan firstElement).map Lexeme.token =
      [.root, .dot, .name "a", .openBracket, .int 0, .closeBracket] := by decide +kernel
  have read := parse_of_tokens tokens rfl
  obtain ⟨d, made, tree, _⟩ := Answers.ofText_of_read (Json.read_write wellKeyed integral)
  refine ⟨d, _, made, read, ?_⟩
  rw [Answers.satisfies_of_ok read, tree]
  rfl

end Intake
