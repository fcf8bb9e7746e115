import Intake.Proofs.Query.Conjoining
import Intake.Proofs.Query.Lexing

set_option autoImplicit false

/-!
# Filters

A filter tells of each value on its own whether it is kept (`selectM_eq_ok`). So a query that
filters what is stored at a key keeps those elements of which it finds something where they are
stored alone, a condition in two parts keeps those that both parts keep, and what cannot be put in
order is left out without a trace (`filters_are_elementwise`).
-/

namespace Intake.Query

/-! ## Values on their own -/

/-- A filter that has an answer for each value keeps those for which the answer is yes. -/
theorem selectM_eq_ok {f : Json → Except MatchFault Bool} {g : Json → Bool} {vs : List Json}
    (h : ∀ v ∈ vs, f v = .ok (g v)) : selectM f vs = .ok (vs.filter g) := by
  induction vs with
  | nil => rfl
  | cons v vs ih =>
    obtain ⟨here, later⟩ := List.forall_mem_cons.1 h
    rw [selectM, here, ih later, List.filter_cons]
    cases g v <;> rfl

theorem selectM_singleton (f : Json → Except MatchFault Bool) (v : Json) :
    selectM f [v] = (f v).map fun chosen => if chosen then [v] else [] := by
  rw [selectM]
  cases f v with
  | error e => rfl
  | ok chosen => cases chosen <;> rfl

/-- A value that is left out leaves no trace. -/
theorem selectM_append_cons {f : Json → Except MatchFault Bool} {x : Json} (h : f x = .ok false)
    (earlier later : List Json) :
    selectM f (earlier ++ x :: later) = selectM f (earlier ++ later) := by
  induction earlier with
  | nil =>
    rw [List.nil_append, List.nil_append, selectM, h]
    cases selectM f later <;> rfl
  | cons v earlier ih => rw [List.cons_append, List.cons_append, selectM, selectM, ih]

namespace Condition

/-- A condition has an answer for a value, and it holds. -/
def picks (c : Condition) (v : Json) : Bool :=
  match c.holds skipQuietly v with
  | .ok holds => holds
  | .error _ => false

theorem picks_of_holds {c : Condition} {v : Json} {holds : Bool}
    (h : c.holds skipQuietly v = .ok holds) : c.picks v = holds := by
  rw [picks, h]

theorem picks_eq_true_iff {c : Condition} {v : Json} :
    c.picks v = true ↔ c.holds skipQuietly v = .ok true := by
  unfold picks
  split
  · next holds answer =>
    rw [answer]
    exact ⟨congrArg Except.ok, Except.ok.inj⟩
  · next e refused =>
    rw [refused]
    exact iff_of_false nofun nofun

theorem Conjoins.picks_eq {c a b : Condition} (h : Conjoins c a b) {v : Json}
    (answers : ∃ holds, c.holds skipQuietly v = .ok holds) :
    c.picks v = (a.picks v && b.picks v) := by
  obtain ⟨holds, answer⟩ := answers
  rw [picks_of_holds answer, Bool.eq_iff_iff, Bool.and_eq_true, picks_eq_true_iff,
    picks_eq_true_iff]
  exact h v holds answer

/-! ## What has no order -/

/-- The parts of a condition that are tried one after the other. -/
def operands : Condition → List Condition
  | .both a b => a.operands ++ b.operands
  | c => [c]

theorem holds_of_mem_operands : (c : Condition) → {v : Json} → {p : Condition} →
    c.holds skipQuietly v = .ok true → p ∈ c.operands → p.holds skipQuietly v = .ok true
  | .matched r, _, _, holds, mem => by
    rw [List.mem_singleton.1 mem]
    exact holds
  | .unmatched r, _, _, holds, mem => by
    rw [List.mem_singleton.1 mem]
    exact holds
  | .compare r op l, _, _, holds, mem => by
    rw [List.mem_singleton.1 mem]
    exact holds
  | .guarded c, _, _, holds, mem => by
    rw [List.mem_singleton.1 mem]
    exact holds
  | .both a b, _, _, holds, mem => by
    obtain ⟨first, second⟩ := holds_both_eq_true_iff.1 holds
    rcases List.mem_append.1 mem with left | right
    · exact holds_of_mem_operands a first left
    · exact holds_of_mem_operands b second right

end Condition

/-- Null, an object or an array. -/
def Orderless (w : Json) : Prop := w = .atom .null ∨ (∃ ms, w = .object ms) ∨ ∃ xs, w = .array xs

/-- A comparator that asks which of two values comes first. -/
def Comparator.orders : Comparator → Bool
  | .lt | .le | .gt | .ge => true
  | .eq | .twoEq | .ne => false

theorem holdsFor_orderless {op : Comparator} (orders : op.orders = true) (l : Literal) {w : Json}
    (h : Orderless w) : holdsFor op l w = .error .incomparable := by
  have unsorted : sortable? w = none ∧ converted? l w = some w := by
    rcases h with rfl | ⟨ms, rfl⟩ | ⟨xs, rfl⟩ <;> cases l <;> exact ⟨rfl, rfl⟩
  rw [holdsFor, unsorted.2]
  show compareWith op w l = _
  unfold compareWith
  rw [unsorted.1]
  cases op with
  | lt => rfl
  | le => rfl
  | gt => rfl
  | ge => rfl
  | eq => cases orders
  | twoEq => cases orders
  | ne => cases orders

/-- All values are compared, whether or not an earlier one compares true. -/
theorem anyHolds_of_mem {op : Comparator} {l : Literal} {ws : List Json} {w : Json}
    (mem : w ∈ ws) (h : holdsFor op l w = .error .incomparable) :
    anyHolds op l ws = .error .incomparable := by
  induction ws with
  | nil => cases mem
  | cons v ws ih =>
    rw [anyHolds]
    cases first : holdsFor op l v with
    | error e =>
      rw [holdsFor_error first]
      rfl
    | ok holds =>
      rcases List.mem_cons.1 mem with rfl | later
      · rw [h] at first
        cases first
      · rw [ih later]
        rfl

/-- An operand asks for the order of a literal and what is found at a value, of which something has
no order. -/
def Condition.Stumbles (p : Condition) (v : Json) : Prop :=
  ∃ r op l ws w, p = .compare r op l ∧ op.orders = true ∧ r.follow skipQuietly v = .ok ws ∧
    w ∈ ws ∧ Orderless w

theorem Condition.Stumbles.holds_eq {p : Condition} {v : Json} (h : p.Stumbles v) :
    p.holds skipQuietly v = .ok false := by
  obtain ⟨r, op, l, ws, w, rfl, orders, found, mem, orderless⟩ := h
  rw [Condition.holds_compare, found]
  show orSkip _ (anyHolds op l ws) = _
  rw [anyHolds_of_mem mem (holdsFor_orderless orders l orderless)]
  rfl

/-- Where one of its operands stumbles a condition does not hold. -/
theorem Condition.holds_of_stumbles {c p : Condition} {v : Json} (mem : p ∈ c.operands)
    (h : p.Stumbles v) {holds : Bool} (answer : c.holds skipQuietly v = .ok holds) :
    c.holds skipQuietly v = .ok false := by
  cases holds with
  | false => exact answer
  | true =>
    have true := c.holds_of_mem_operands answer mem
    rw [h.holds_eq] at true
    cases true

/-! ## Queries that filter -/

/-- What is stored at a key of the applicant. -/
def Stores (k : Text) (v d : Json) : Prop := d.get? [.key "applicant", .key k] = some v

/-- The query for what is stored at a key of the applicant, filtered by a condition. -/
def filterQuery (k c : Text) : Text := "$.applicant." ++ k ++ "[?" ++ c ++ "]"

/-- A query finds something in a document. -/
def finds (query : Text) (d : Json) : Bool :=
  match find query d with
  | .ok ws => !ws.isEmpty
  | .error _ => false

/-- A text is read as a condition, and to its end. -/
structure Condition.Written (c : Condition) (text : Text) : Prop where
  legible : ∀ t ∈ tokens text, Lexeme.endsScan t = false
  read : condition (6 * (tokens text).length + 6) (tokens text) = .ok (c, [])

/-- The steps to a key of the applicant, and the filter of what is stored there. -/
def filterRoute (k : Text) (c : Condition) : Route :=
  .child (Route.root.along [.key "applicant", .key k]) (.select (.filter c))

theorem tokens_of_next {c : CodePoint} {cs rest : Text} {t : Token} (solid : Text.isBlank c = false)
    (next : Token.next (c :: cs) = (t, rest)) (goesOn : Lexeme.endsScan t = false) :
    tokens (c :: cs) = t :: tokens rest := by
  have separates : separates c cs = false := by
    have ne : ∀ d : CodePoint, Text.isBlank d = true → c ≠ d := by
      rintro d blank rfl
      rw [solid] at blank
      cases blank
    simp [Query.separates, ne ' ' (by decide), ne '\t' (by decide), ne '\n' (by decide)]
  rw [tokens_cons, separates, next, goesOn]
  rfl

theorem tokens_ampersand (cs : Text) : tokens ('&' :: cs) = .both :: tokens cs := by
  apply tokens_of_next (by decide) _ rfl
  rw [Token.next, Token.order?_eq_none (by decide) (by decide) (by decide) (by decide)]
  rfl

theorem tokens_filter (cs : Text) :
    tokens ('[' :: '?' :: cs) = .openBracket :: .filter :: tokens cs := by
  rw [tokens_of_next (by decide) (next_openBracket _) rfl]
  congr 1
  apply tokens_of_next (by decide) _ rfl
  rw [Token.next, Token.order?_eq_none (by decide) (by decide) (by decide) (by decide)]
  rfl

theorem tokens_closeBracket (cs : Text) : tokens (']' :: cs) = .closeBracket :: tokens cs :=
  tokens_of_next (by decide) (next_closeBracket cs) rfl

/-- A plain key starts with no blank and no point. -/
theorem Token.IsPlain.exists_eq_cons {k : Text} (h : IsPlain k) :
    ∃ c cs, k = c :: cs ∧ Text.isBlank c = false ∧ c ≠ '.' := by
  have solid : ∀ {c : CodePoint}, c.isAlphanum = true ∨ c = '_' →
      Text.isBlank c = false ∧ c ≠ '.' := by
    rintro c (letter | rfl)
    · refine ⟨isBlank_of_isAlphanum letter, ?_⟩
      rintro rfl
      cases letter
    · decide
  rcases h with ⟨word, _⟩ | ⟨n, _, rfl⟩
  · obtain ⟨c, cs, rfl, first⟩ := word.exists_eq_cons
    rcases first with rfl | start
    · exact ⟨'@', cs, rfl, by decide⟩
    · exact ⟨c, cs, rfl, solid (isAlphanum_of_isNameStart start)⟩
  · obtain ⟨c, cs, eq, first⟩ := Numeral.exists_ofInt_eq_cons n
    rcases first with rfl | digit
    · exact ⟨'-', cs, eq, by decide⟩
    · exact ⟨c, cs, eq, solid (.inl (isAlphanum_of_isDigit digit))⟩

/-- A plain key behind a point makes two tokens. -/
theorem tokens_point {k tail : Text} (plain : Token.IsPlain k) (ends : Token.EndsKey tail)
    (whole : Token.IsInteger k → Token.opensFraction tail = false) :
    ∃ t, t.field? = some k ∧ tokens ('.' :: (k ++ tail)) = .dot :: t :: tokens tail := by
  obtain ⟨t, next, field⟩ := Token.reads_of_isPlain ends plain whole
  obtain ⟨c, cs, rfl, solid, noPoint⟩ := plain.exists_eq_cons
  rw [List.cons_append] at next ⊢
  have single : ∀ d ∈ (c :: (cs ++ tail)).head?, d ≠ .char '.' := by
    intro d first
    cases first
    exact noPoint
  refine ⟨t, field, ?_⟩
  rw [tokens_of_next (by decide) (next_point single) rfl,
    tokens_of_next solid next (Token.endsScan_of_field? field)]

theorem filterQuery_eq (k text : Text) : filterQuery k text =
    .char '$' :: .char '.' :: (("applicant" : Text) ++
      .char '.' :: (k ++ .char '[' :: .char '?' :: (text ++ .char ']' :: []))) := by
  simp only [filterQuery, List.append_assoc]
  rfl

theorem isWord_applicant : Token.IsWord "applicant" :=
  .plain (by decide) (by decide)

theorem tokens_filterQuery {k text : Text} (plain : Token.IsPlain k)
    (legible : ∀ t ∈ tokens text, Lexeme.endsScan t = false) :
    ∃ s t, s.field? = some ("applicant" : Text) ∧ t.field? = some k ∧
      tokens (filterQuery k text) =
        .root :: .dot :: s :: .dot :: t :: .openBracket :: .filter ::
          (tokens text ++ [.closeBracket]) := by
  have ends : ∀ {c : CodePoint} (cs : Text), c = '.' ∨ c = '[' → Token.EndsKey (c :: cs) := by
    intro c cs sign d first
    cases first
    exact sign
  obtain ⟨t, key, last⟩ := tokens_point plain
    (ends (.char '?' :: (text ++ .char ']' :: [])) (.inr rfl)) fun _ => rfl
  obtain ⟨s, applicant, first⟩ := tokens_point (.inl ⟨isWord_applicant, by decide⟩)
    (ends (k ++ .char '[' :: .char '?' :: (text ++ .char ']' :: [])) (.inl rfl))
    fun integer => absurd integer isWord_applicant.not_isInteger
  refine ⟨s, t, applicant, key, ?_⟩
  rw [filterQuery_eq, tokens_of_next (by decide) (next_root _) rfl, first, last, tokens_filter,
    tokens_append legible (.inl rfl), tokens_closeBracket, tokens_nil]

theorem filterFrom_of_written {c : Condition} {text : Text} (written : c.Written text) {m : Nat}
    (enough : 6 * (tokens text).length + 6 ≤ m) :
    filterFrom (m + 1) (tokens text ++ [.closeBracket]) = .ok (.filter c, []) := by
  have fits : Fits [] [.closeBracket] := by
    intro _ t first
    cases first
    rfl
  rw [filterFrom, (allExtend _).condition written.read enough fits]
  rfl

theorem route_of_written {c : Condition} {k text : Text} (written : c.Written text) {m : Nat}
    (enough : 6 * (tokens text).length + 6 ≤ m) {s t : Token}
    (applicant : s.field? = some ("applicant" : Text)) (key : t.field? = some k) :
    route (m + 5) (.root :: .dot :: s :: .dot :: t :: .openBracket :: .filter ::
      (tokens text ++ [.closeBracket])) = .ok (filterRoute k c, []) := by
  have start : ∀ ts, routeStart (m + 4) (.root :: ts) = .ok (.root, ts) := fun ts => rfl
  rw [route, start]
  dsimp only
  rw [routeFrom_field applicant, routeFrom_field key, routeFrom_succ, nextPart,
    filterFrom_of_written written enough]
  show routeFrom (m + 1) _ [] = _
  rw [routeFrom_succ]
  rfl

/-- A query that filters is read as what it says. -/
theorem parse_filterQuery {k text : Text} {c : Condition} (plain : Token.IsPlain k)
    (written : c.Written text) : parse (filterQuery k text) = .ok (filterRoute k c) := by
  obtain ⟨s, t, applicant, key, eq⟩ := tokens_filterQuery plain written.legible
  rw [parse_eq_ok_iff]
  show ofTokens (tokens (filterQuery k text)) = _
  rw [eq, ofTokens_eq_ok_iff]
  simp only [List.length_cons, List.length_append, List.length_nil]
  refine route_of_written (m := 6 * (tokens text).length + 49) written (by omega) applicant key

theorem reach_of_get? {steps : List Step} {v w : Json} (h : v.get? steps = some w) :
    reach steps v = .ok (some w) := by
  induction steps generalizing v with
  | nil => exact congrArg Except.ok h
  | cons s steps ih =>
    obtain ⟨u, child, later⟩ := Option.bind_eq_some_iff.1 h
    rw [reach, reachStep_of_child? child]
    exact ih later

/-- A query that filters tries its condition for each element of the array that is stored. -/
theorem find_filterQuery {k text : Text} {c : Condition} (plain : Token.IsPlain k)
    (written : c.Written text) {d : Json} {xs : List Json} (stored : Stores k (.array xs) d) :
    find (filterQuery k text) d =
      (selectM (fun v => c.holds skipQuietly v) xs).mapError MatchFault.toFault := by
  have steps : ∀ s ∈ [Step.key "applicant", .key k], s ≠ .key "*" := by
    simp only [List.forall_mem_cons]
    refine ⟨by decide, ?_, nofun⟩
    intro star
    exact plain.ne_star (Step.key.inj star)
  have found : (filterRoute k c).follow skipQuietly d =
      selectM (fun v => c.holds skipQuietly v) xs := by
    rw [filterRoute, Route.follow_child, follow_root_along steps, reach_of_get? stored]
    show flatMapM (fun w => (Route.select (.filter c)).follow skipQuietly w) [.array xs] = _
    rw [flatMapM_singleton, Route.follow_select, Selector.select_filter]
    rfl
  rw [find, findWith, parse_filterQuery plain written]
  show ((filterRoute k c).follow skipQuietly d).mapError _ = _
  rw [found]

section Elements

variable {k text : Text} {c : Condition} (plain : Token.IsPlain k) (written : c.Written text)

include plain written

/-- A query has an answer for a single element exactly if its condition has one. -/
theorem exists_find_singleton_iff {d x : Json} (stored : Stores k (.array [x]) d) :
    (∃ ws, find (filterQuery k text) d = .ok ws) ↔ ∃ holds, c.holds skipQuietly x = .ok holds := by
  rw [find_filterQuery plain written stored, selectM_singleton]
  cases c.holds skipQuietly x with
  | error e => exact iff_of_false nofun nofun
  | ok holds => exact iff_of_true ⟨_, rfl⟩ ⟨holds, rfl⟩

theorem finds_eq_picks {d x : Json} (stored : Stores k (.array [x]) d) :
    finds (filterQuery k text) d = c.picks x := by
  rw [finds, find_filterQuery plain written stored, selectM_singleton, Condition.picks]
  cases c.holds skipQuietly x with
  | error e => rfl
  | ok holds => cases holds <;> rfl

/-- Where the condition has an answer for each element, those are found of which it holds. -/
theorem find_eq_filter {d : Json} {xs : List Json} (stored : Stores k (.array xs) d)
    (answers : ∀ x ∈ xs, ∃ holds, c.holds skipQuietly x = .ok holds) :
    find (filterQuery k text) d = .ok (xs.filter c.picks) := by
  have each : ∀ x ∈ xs, c.holds skipQuietly x = .ok (c.picks x) := by
    intro x mem
    obtain ⟨holds, answer⟩ := answers x mem
    rw [answer, Condition.picks_of_holds answer]
  rw [find_filterQuery plain written stored, selectM_eq_ok each]
  rfl

end Elements

/-! ## Conditions as they are written -/

/-- A text is read as a condition. -/
def IsCondition (text : Text) : Prop := ∃ c : Condition, c.Written text

/-- A condition that is written as two others with the sign for both between them. A negated path in
front of the sign is in parentheses, as it would take the sign along. -/
structure IsConjunction (text first second : Text) : Prop where
  eq : text = first ++ "&" ++ second
  whole : IsCondition text
  left : IsCondition first
  right : IsCondition second
  inParens : ¬ Condition.EndsInNegation (tokens first)

theorem IsConjunction.conjoins {text first second : Text} (h : IsConjunction text first second)
    {a b c : Condition} (whole : c.Written text) (left : a.Written first)
    (right : b.Written second) : c.Conjoins a b := by
  have split : tokens text = tokens first ++ .both :: tokens second := by
    rw [h.eq, List.append_assoc]
    show tokens (first ++ .char '&' :: second) = _
    rw [tokens_append left.legible (.inr rfl), tokens_ampersand]
  have read := whole.read
  rw [split] at read
  refine Condition.conjoins_of_condition left.read right.read h.inParens read ?_
  simp only [List.length_append]
  omega

/-- The query for an array that is filtered by a condition keeps, in their order, the elements of
which it finds something where they are stored alone, if it has an answer for each of them. A
condition in two parts, in either order, keeps the elements that both parts keep. In a filter at any
depth an operand that asks for the order of what has none is false, and what it is false of is left
out and changes nothing for the other values. -/
theorem filters_are_elementwise {k : Text} (plain : Token.IsPlain k) {xs : List Json} {d : Json}
    (stored : Stores k (.array xs) d) {alone : Json → Json}
    (single : ∀ x ∈ xs, Stores k (.array [x]) (alone x)) :
    (∀ text, IsCondition text →
      (∀ x ∈ xs, ∃ ws, find (filterQuery k text) (alone x) = .ok ws) →
      find (filterQuery k text) d =
        .ok (xs.filter fun x => finds (filterQuery k text) (alone x))) ∧
    (∀ text first second, IsConjunction text first second ∨ IsConjunction text second first →
      (∀ x ∈ xs, ∃ ws, find (filterQuery k text) (alone x) = .ok ws) →
      find (filterQuery k text) d =
        .ok (xs.filter fun x =>
          finds (filterQuery k first) (alone x) && finds (filterQuery k second) (alone x))) ∧
    ∀ (c p : Condition) (x : Json), p ∈ c.operands → p.Stumbles x →
      p.holds skipQuietly x = .ok false ∧
      (∀ text, c.Written text → x ∈ xs → finds (filterQuery k text) (alone x) = false) ∧
      ((∃ holds, c.holds skipQuietly x = .ok holds) →
        c.holds skipQuietly x = .ok false ∧
        ∀ v v' earlier later, candidates v = earlier ++ x :: later →
          candidates v' = earlier ++ later →
          (Selector.filter c).select skipQuietly v =
            (Selector.filter c).select skipQuietly v') := by
  have told : ∀ {text : Text} {c : Condition}, c.Written text →
      (∀ x ∈ xs, ∃ ws, find (filterQuery k text) (alone x) = .ok ws) →
      ∀ x ∈ xs, ∃ holds, c.holds skipQuietly x = .ok holds :=
    fun written answers x mem =>
      (exists_find_singleton_iff plain written (single x mem)).1 (answers x mem)
  have conjoined : ∀ {text first second : Text}, IsConjunction text first second →
      (∀ x ∈ xs, ∃ ws, find (filterQuery k text) (alone x) = .ok ws) →
      find (filterQuery k text) d =
        .ok (xs.filter fun x =>
          finds (filterQuery k first) (alone x) && finds (filterQuery k second) (alone x)) := by
    intro text first second conjunction answers
    obtain ⟨c, written⟩ := conjunction.whole
    obtain ⟨a, left⟩ := conjunction.left
    obtain ⟨b, right⟩ := conjunction.right
    have answered := told written answers
    rw [find_eq_filter plain written stored answered]
    refine congrArg Except.ok (List.filter_congr fun x mem => ?_)
    rw [finds_eq_picks plain left (single x mem), finds_eq_picks plain right (single x mem)]
    exact (conjunction.conjoins written left right).picks_eq (answered x mem)
  refine ⟨?_, ?_, ?_⟩
  · rintro text ⟨c, written⟩ answers
    rw [find_eq_filter plain written stored (told written answers)]
    refine congrArg Except.ok (List.filter_congr fun x mem => ?_)
    exact (finds_eq_picks plain written (single x mem)).symm
  · rintro text first second (conjunction | conjunction) answers
    · exact conjoined conjunction answers
    · rw [conjoined conjunction answers]
      refine congrArg Except.ok (List.filter_congr fun x mem => ?_)
      exact Bool.and_comm _ _
  · intro c p x operand stumbles
    refine ⟨stumbles.holds_eq, ?_, ?_⟩
    · intro text written mem
      rw [finds_eq_picks plain written (single x mem), Bool.eq_false_iff]
      intro picked
      have holds := Condition.picks_eq_true_iff.1 picked
      rw [Condition.holds_of_stumbles operand stumbles holds] at holds
      cases holds
    · rintro ⟨holds, answer⟩
      have leftOut := Condition.holds_of_stumbles operand stumbles answer
      refine ⟨leftOut, fun v v' earlier later withIt without => ?_⟩
      rw [Selector.select_filter, Selector.select_filter, withIt, without]
      exact selectM_append_cons leftOut earlier later

section Jobs

/-- A job with what it pays. -/
def job (pay : Atom) : Json := .object [("pay", .atom pay)]

/-- The jobs of an applicant. -/
def withJobs (jobs : List Json) : Json :=
  .object [("applicant", .object [("jobs", .array jobs)])]

/-- Pay that is compared with a number. -/
def payIs (op : Comparator) (n : Int) : Condition :=
  .compare (.select (.fields ["pay"])) op (.int n)

theorem Condition.written_of_tokens {c : Condition} {text : Text} {ts : List Token}
    (eq : tokens text = ts) (legible : ∀ t ∈ ts, Lexeme.endsScan t = false)
    (read : condition (6 * ts.length + 6) ts = .ok (c, [])) : c.Written text := by
  subst eq
  exact ⟨legible, read⟩

theorem written_payAbove : (payIs .gt 2).Written "pay>2" := by
  have split : tokens "pay>2" = [.name "pay", .comparator .gt, .int 2] := by decide +kernel
  exact Condition.written_of_tokens split (by decide) rfl

theorem written_payBelow : (payIs .lt 9).Written "pay<9" := by
  have split : tokens "pay<9" = [.name "pay", .comparator .lt, .int 9] := by decide +kernel
  exact Condition.written_of_tokens split (by decide) rfl

theorem written_payBetween :
    (Condition.both (payIs .gt 2) (payIs .lt 9)).Written "pay>2&pay<9" := by
  have split : tokens "pay>2&pay<9" =
      [.name "pay", .comparator .gt, .int 2, .both, .name "pay", .comparator .lt, .int 9] := by
    decide +kernel
  exact Condition.written_of_tokens split (by decide) rfl

/-- Of three jobs one pays less than is asked for, and of one it is not known what it pays. -/
theorem job_of_middling_pay_found :
    find (filterQuery "jobs" "pay>2&pay<9")
        (withJobs [job (.int 1), job .null, job (.int 5)]) = .ok [job (.int 5)] ∧
      find (filterQuery "jobs" "pay<9") (withJobs [job (.int 1), job .null, job (.int 5)]) =
        .ok [job (.int 1), job (.int 5)] ∧
      (payIs .gt 2).holds skipQuietly (job .null) = .ok false := by
  have plain : Token.IsPlain "jobs" := .inl ⟨.plain (by decide) (by decide), by decide⟩
  have stored : Stores "jobs" (.array [job (.int 1), job .null, job (.int 5)])
      (withJobs [job (.int 1), job .null, job (.int 5)]) := rfl
  have single : ∀ x, Stores "jobs" (.array [x]) (withJobs [x]) := fun _ => rfl
  have conjunction : IsConjunction "pay>2&pay<9" "pay>2" "pay<9" := by
    refine ⟨rfl, ⟨_, written_payBetween⟩, ⟨_, written_payAbove⟩, ⟨_, written_payBelow⟩, ?_⟩
    rintro ⟨earlier, inner, n, r, split, _⟩
    have mem : Token.bang ∈ tokens "pay>2" := by simp [split]
    exact absurd mem (by decide +kernel)
  have above : (payIs .gt 2).picks (job (.int 1)) = false ∧
      (payIs .gt 2).picks (job .null) = false ∧ (payIs .gt 2).picks (job (.int 5)) = true := by
    decide +kernel
  have below : (payIs .lt 9).picks (job (.int 1)) = true ∧
      (payIs .lt 9).picks (job .null) = false ∧ (payIs .lt 9).picks (job (.int 5)) = true := by
    decide +kernel
  have answers : ∀ x ∈ [job (.int 1), job .null, job (.int 5)],
      (∃ holds, (payIs .lt 9).holds skipQuietly x = .ok holds) ∧
        ∃ holds, (Condition.both (payIs .gt 2) (payIs .lt 9)).holds skipQuietly x = .ok holds := by
    simp only [List.forall_mem_cons]
    exact ⟨⟨⟨true, by decide +kernel⟩, false, by decide +kernel⟩,
      ⟨⟨false, by decide +kernel⟩, false, by decide +kernel⟩,
      ⟨⟨true, by decide +kernel⟩, true, by decide +kernel⟩, nofun⟩
  obtain ⟨elementwise, conjoined, orderless⟩ :=
    filters_are_elementwise plain stored fun x _ => single x
  refine ⟨?_, ?_, ?_⟩
  · rw [conjoined _ _ _ (.inl conjunction)]
    · simp [finds_eq_picks plain written_payAbove (single _),
        finds_eq_picks plain written_payBelow (single _), above, below]
    · intro x mem
      exact (exists_find_singleton_iff plain written_payBetween (single x)).2 (answers x mem).2
  · rw [elementwise _ ⟨_, written_payBelow⟩]
    · simp [finds_eq_picks plain written_payBelow (single _), below]
    · intro x mem
      exact (exists_find_singleton_iff plain written_payBelow (single x)).2 (answers x mem).1
  · apply (orderless (payIs .gt 2) _ (job .null) List.mem_cons_self _).1
    exact ⟨_, _, _, _, _, rfl, rfl, rfl, List.mem_cons_self, .inl rfl⟩

end Jobs

end Intake.Query
