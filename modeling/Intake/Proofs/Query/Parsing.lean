import Intake.Query.Grammar

set_option autoImplicit false

/-!
# Queries that cannot be read

A query that cannot be read is malformed, unless its reader comes to a numeral of too many digits.
Each part of the grammar leaves some last tokens of those that it is given, so that what it comes
to is among them (`Proceeds`).
-/

namespace Intake.Query

/-! ## Tokens -/

/-- What a part of the grammar may come to: it leaves some last tokens, or it finds one that cannot
come, or a numeral that is too long. -/
def Proceeds {α : Type} (ts : List Token) : Parsed α → Prop
  | .ok (_, rest) => rest <:+ ts
  | .error (.unexpected _) => True
  | .error .numeralTooLong => .tooLong ∈ ts

section Proceeds

variable {α β : Type} {ts us : List Token} {r : Parsed α}

theorem proceeds_unexpected (ts : List Token) : Proceeds ts (unexpected ts : Parsed α) := by
  unfold unexpected
  split
  · exact List.mem_cons_self
  · trivial

theorem Proceeds.of_suffix (h : Proceeds us r) (behind : us <:+ ts) : Proceeds ts r := by
  cases r with
  | ok out => exact h.trans behind
  | error e =>
    cases e with
    | unexpected left => trivial
    | numeralTooLong => exact behind.mem h

theorem Proceeds.of_cons {t : Token} (h : Proceeds us r) : Proceeds (t :: us) r :=
  h.of_suffix (List.suffix_cons t us)

theorem Proceeds.map {f : α × List Token → β × List Token} (h : Proceeds ts r)
    (same : ∀ out, (f out).2 = out.2) : Proceeds ts (r.map f) := by
  cases r with
  | ok out =>
    show (f out).2 <:+ ts
    rw [same out]
    exact h
  | error e => cases e <;> exact h

/-- A part that refuses what its first part refuses. -/
theorem Proceeds.error {e : SyntaxFault} (h : Proceeds ts r) (eq : r = .error e) :
    Proceeds ts (.error e : Parsed β) := by
  rw [eq] at h
  cases e <;> exact h

theorem Proceeds.suffix {a : α} {rest : List Token} (h : Proceeds ts r) (eq : r = .ok (a, rest)) :
    rest <:+ ts := by
  rw [eq] at h
  exact h

end Proceeds

theorem proceeds_expect (t : Token) (ts : List Token) : Proceeds ts (expect t ts) := by
  unfold expect
  split
  · split
    · exact List.suffix_cons _ _
    · exact proceeds_unexpected _
  · exact proceeds_unexpected _

theorem proceeds_moreNames (ts : List Token) : Proceeds ts (moreNames ts) := by
  fun_induction moreNames ts with
  | case1 rest => exact List.suffix_cons _ _
  | case2 s rest ih => exact .of_cons (.of_cons (ih.map fun _ => rfl))
  | case3 rest => exact (proceeds_unexpected _).of_cons
  | case4 ts => exact proceeds_unexpected _

theorem proceeds_moreIndices (ts : List Token) : Proceeds ts (moreIndices ts) := by
  fun_induction moreIndices ts with
  | case1 rest => exact List.suffix_cons _ _
  | case2 n rest ih => exact .of_cons (.of_cons (ih.map fun _ => rfl))
  | case3 rest => exact (proceeds_unexpected _).of_cons
  | case4 ts => exact proceeds_unexpected _

theorem suffix_optionalInt (ts : List Token) : (optionalInt ts).2 <:+ ts := by
  unfold optionalInt
  split
  · exact List.suffix_cons _ _
  · exact List.suffix_refl _

theorem proceeds_sliceFrom (start : Option Int) (ts : List Token) :
    Proceeds ts (sliceFrom start ts) := by
  have afterStop := suffix_optionalInt ts
  unfold sliceFrom
  dsimp only
  split
  · next rest eq =>
    rw [eq] at afterStop
    exact (List.suffix_cons _ _).trans afterStop
  · next more eq =>
    rw [eq] at afterStop
    have stride := (suffix_optionalInt more).trans ((List.suffix_cons _ _).trans afterStop)
    exact .of_suffix (.map (proceeds_expect _ _) fun _ => rfl) stride
  · exact (proceeds_unexpected _).of_suffix afterStop

theorem proceeds_plainBracket (ts : List Token) : Proceeds ts (plainBracket ts) := by
  unfold plainBracket
  split
  · exact .of_cons (.map (proceeds_expect _ _) fun _ => rfl)
  · exact .of_cons (.map (proceeds_moreNames _) fun _ => rfl)
  · exact (proceeds_sliceFrom _ _).of_cons.of_cons
  · exact .of_cons (.map (proceeds_moreIndices _) fun _ => rfl)
  · exact (proceeds_sliceFrom _ _).of_cons
  · exact proceeds_unexpected _

theorem proceeds_afterDot (ts : List Token) : Proceeds ts (afterDot ts) := by
  unfold afterDot
  split
  · exact List.suffix_cons _ _
  · exact List.suffix_cons _ _
  · exact List.suffix_cons _ _
  · exact (proceeds_plainBracket _).of_cons
  · exact proceeds_unexpected _

theorem proceeds_literal (ts : List Token) : Proceeds ts (literal ts) := by
  unfold literal
  split
  · exact List.suffix_cons _ _
  · exact List.suffix_cons _ _
  · exact List.suffix_cons _ _
  · exact List.suffix_cons _ _
  · exact proceeds_unexpected _

theorem proceeds_tested (r : Route) (ts : List Token) : Proceeds ts (tested r ts) := by
  unfold tested
  split
  · exact List.suffix_refl _
  · next op after eq =>
    unfold comparison? at eq
    split at eq <;> cases eq
    exact .of_cons (.map (proceeds_literal _) fun _ => rfl)

theorem proceeds_plainStart (ts : List Token) : Proceeds ts (plainStart ts) := by
  unfold plainStart
  split
  · exact List.suffix_cons _ _
  · exact List.suffix_cons _ _
  · exact List.suffix_cons _ _
  · exact List.suffix_cons _ _
  · exact proceeds_unexpected _

/-- The next part of a route, if one comes. -/
def nextPart (fuel : Nat) (o : Route.Open) (ts : List Token) : Option (Parsed Route.Open) :=
  match ts with
  | .dot :: rest => some ((afterDot rest).map fun r => (o.add .dot (.select r.1), r.2))
  | .descent :: rest => some ((afterDot rest).map fun r => (o.add .descent (.select r.1), r.2))
  | .both :: rest => some ((routeStart fuel rest).map fun r => (o.add .both r.1, r.2))
  | .openBracket :: .filter :: rest =>
    some ((filterFrom fuel rest).map fun r => (o.bracket r.1, r.2))
  | .openBracket :: rest => some ((plainBracket rest).map fun r => (o.bracket r.1, r.2))
  | _ => none

theorem routeFrom_succ (fuel : Nat) (o : Route.Open) (ts : List Token) :
    routeFrom (fuel + 1) o ts = match nextPart fuel o ts with
      | none => .ok (o.route, ts)
      | some (.error e) => .error e
      | some (.ok (more, rest)) => routeFrom fuel more rest := by
  conv =>
    lhs
    unfold routeFrom
  rfl

/-- All parts of the grammar that call one another proceed with so much fuel. -/
structure AllProceed (fuel : Nat) : Prop where
  route : ∀ ts, Proceeds ts (Query.route fuel ts)
  routeStart : ∀ ts, Proceeds ts (Query.routeStart fuel ts)
  routeFrom : ∀ o ts, Proceeds ts (Query.routeFrom fuel o ts)
  filterFrom : ∀ ts, Proceeds ts (Query.filterFrom fuel ts)
  condition : ∀ ts, Proceeds ts (Query.condition fuel ts)
  operand : ∀ ts, Proceeds ts (Query.operand fuel ts)

theorem allProceed_zero : AllProceed 0 where
  route := proceeds_unexpected
  routeStart := proceeds_unexpected
  routeFrom _ := proceeds_unexpected
  filterFrom := proceeds_unexpected
  condition := proceeds_unexpected
  operand := proceeds_unexpected

section Succ

variable {fuel : Nat} (h : AllProceed fuel)

include h

theorem proceeds_route_succ (ts : List Token) : Proceeds ts (route (fuel + 1) ts) := by
  have start := h.routeStart ts
  rw [route]
  split
  · next eq => exact start.error eq
  · next eq => exact (h.routeFrom _ _).of_suffix (start.suffix eq)

theorem proceeds_routeStart_succ (ts : List Token) : Proceeds ts (routeStart (fuel + 1) ts) := by
  unfold routeStart
  split
  · cases ‹fuel + 1 = 0›
  · next rest same =>
    cases same
    have inner := h.route rest
    split
    · next eq => exact inner.of_cons.error eq
    · next eq =>
      exact .of_cons (.of_suffix (.map (proceeds_expect _ _) fun _ => rfl) (inner.suffix eq))
  · exact proceeds_plainStart _

theorem proceeds_nextPart {o : Route.Open} {ts : List Token} {r : Parsed Route.Open}
    (next : nextPart fuel o ts = some r) : Proceeds ts r := by
  unfold nextPart at next
  split at next
  · cases next
    exact .of_cons (.map (proceeds_afterDot _) fun _ => rfl)
  · cases next
    exact .of_cons (.map (proceeds_afterDot _) fun _ => rfl)
  · cases next
    exact .of_cons (.map (h.routeStart _) fun _ => rfl)
  · cases next
    exact .of_cons (.of_cons (.map (h.filterFrom _) fun _ => rfl))
  · cases next
    exact .of_cons (.map (proceeds_plainBracket _) fun _ => rfl)
  · cases next

theorem proceeds_routeFrom_succ (o : Route.Open) (ts : List Token) :
    Proceeds ts (routeFrom (fuel + 1) o ts) := by
  rw [routeFrom_succ]
  split
  · exact List.suffix_refl _
  · next eq => exact (proceeds_nextPart h eq).error rfl
  · next eq => exact (h.routeFrom _ _).of_suffix ((proceeds_nextPart h eq).suffix rfl)

theorem proceeds_filterFrom_succ (ts : List Token) : Proceeds ts (filterFrom (fuel + 1) ts) := by
  have inner := h.condition ts
  rw [filterFrom]
  split
  · next eq => exact inner.error eq
  · next eq => exact .of_suffix (.map (proceeds_expect _ _) fun _ => rfl) (inner.suffix eq)

theorem proceeds_condition_succ (ts : List Token) : Proceeds ts (condition (fuel + 1) ts) := by
  have first := h.operand ts
  rw [condition]
  split
  · next eq => exact first.error eq
  · next eq =>
    have behind := (List.suffix_cons _ _).trans (first.suffix eq)
    exact .of_suffix (.map (h.condition _) fun _ => rfl) behind
  · next eq => exact first.suffix eq

theorem proceeds_operand_succ (ts : List Token) : Proceeds ts (operand (fuel + 1) ts) := by
  have bound : ∀ {us : List Token} {x : Parsed Route}, Proceeds us x →
      Proceeds us (x.bind fun r => tested r.1 r.2) := by
    intro us x inner
    cases x with
    | ok out => exact (proceeds_tested _ _).of_suffix inner
    | error e => cases e <;> exact inner
  unfold operand
  split
  · cases ‹fuel + 1 = 0›
  · next rest same =>
    cases same
    have inner := h.condition rest
    split
    · next eq => exact inner.of_cons.error eq
    · next c after eq =>
      have closing := (proceeds_expect .closeParen after).of_suffix (inner.suffix eq)
      split
      · exact closing.of_cons.error ‹expect .closeParen after = _›
      · have behind := closing.suffix ‹expect .closeParen after = _›
        exact .of_cons (.of_suffix (bound (h.routeFrom _ _)) behind)
      · have behind := closing.suffix ‹expect .closeParen after = _›
        exact behind.trans (List.suffix_cons _ _)
  · next rest same =>
    cases same
    exact .of_cons (.map (h.route _) fun _ => rfl)
  · next same _ _ =>
    cases same
    exact bound (h.route _)

end Succ

theorem allProceed (fuel : Nat) : AllProceed fuel := by
  induction fuel with
  | zero => exact allProceed_zero
  | succ fuel ih =>
    exact ⟨proceeds_route_succ ih, proceeds_routeStart_succ ih, proceeds_routeFrom_succ ih,
      proceeds_filterFrom_succ ih, proceeds_condition_succ ih, proceeds_operand_succ ih⟩

theorem tooLong_mem_of_ofTokens {ts : List Token} (h : ofTokens ts = .error .numeralTooLong) :
    .tooLong ∈ ts := by
  have outcome := (allProceed (6 * ts.length + 6)).route ts
  unfold ofTokens at h
  split at h
  · next eq =>
    cases h
    exact outcome.error (β := Route) eq
  · cases h
  · next r rest _ eq =>
    have bad := proceeds_unexpected (α := Route) rest
    cases shape : (unexpected rest : Parsed Route) with
    | ok out =>
      rw [shape] at h
      cases h
    | error e =>
      rw [shape] at h bad
      cases h
      exact (outcome.suffix eq).mem bad

/-! ## Characters -/

/-- A token is taken from `n` characters: no more are left, and if the token is a numeral that is
too long, then there are more than any numeral may have. -/
structure Taken (n : Nat) (out : Token × Text) : Prop where
  left : out.2.length ≤ n
  long : out.1 = .tooLong → Numeral.digitLimit < n

theorem length_dropWhile_le (drops : CodePoint → Bool) (cs : Text) :
    (cs.dropWhile drops).length ≤ cs.length :=
  (List.dropWhile_suffix drops).length_le

theorem taken_number? {negative : Bool} {cs : Text} {out : Token × Text}
    (h : Token.number? negative cs = some out) : Taken cs.length out := by
  have digits : (Token.digitValues cs).length ≤ cs.length :=
    Nat.le_trans (List.length_filterMap_le _ _) (List.takeWhile_prefix _).length_le
  have behind : (Token.dropDigits cs).length ≤ cs.length := length_dropWhile_le _ cs
  unfold Token.number? at h
  extract_lets whole rest fraction at h
  split at h
  · cases h
  · split at h
    · split at h
      · cases h
        exact ⟨behind, nofun⟩
      · next long =>
        cases h
        exact ⟨behind, fun _ => Nat.lt_of_lt_of_le (Nat.lt_of_not_le long) digits⟩
    · cases h
      have after := length_dropWhile_le (fun c => (Text.digitValue? c).isSome) (rest.drop 1)
      rw [List.length_drop] at after
      exact ⟨Nat.le_trans after (Nat.le_trans (Nat.sub_le _ _) behind), nofun⟩

theorem taken_getD_number? {negative : Bool} {cs : Text} {n : Nat} (le : cs.length ≤ n)
    {other : Token × Text} (h : Taken n other) :
    Taken n ((Token.number? negative cs).getD other) := by
  cases found : Token.number? negative cs with
  | none => exact h
  | some out =>
    have taken := taken_number? found
    exact ⟨Nat.le_trans taken.left le, fun long => Nat.lt_of_lt_of_le (taken.long long) le⟩

theorem length_order?_lt {cs rest : Text} {t : Token} (h : Token.order? cs = some (t, rest)) :
    rest.length < cs.length := by
  have blanks := length_dropWhile_le Text.isBlank (if cs.head? = some ',' then cs.drop 1 else cs)
  have comma : (if cs.head? = some ',' then cs.drop 1 else cs).length ≤ cs.length := by
    split
    · exact List.length_drop ▸ Nat.sub_le _ _
    · exact Nat.le_refl _
  have behind := Nat.le_trans blanks comma
  unfold Token.order? at h
  split at h
  · next eq =>
    cases h
    rw [eq] at behind
    exact behind
  · next eq =>
    cases h
    rw [eq] at behind
    exact behind
  · cases h

theorem taken_order? {cs : Text} {out : Token × Text} (h : Token.order? cs = some out) :
    Taken cs.length out := by
  refine ⟨Nat.le_of_lt (length_order?_lt h), ?_⟩
  unfold Token.order? at h
  split at h <;> cases h <;> nofun

/-- What is left behind a name in quotes, or in front of what is no part of it. -/
def leftOf : Except (Illegible × Text) (Text × Text) → Text
  | .ok (_, rest) => rest
  | .error (_, rest) => rest

theorem leftOf_map (c : CodePoint) (out : Except (Illegible × Text) (Text × Text)) :
    leftOf (out.map fun r => (c :: r.1, r.2)) = leftOf out := by
  cases out <;> rfl

theorem length_quotedName (quote : CodePoint) (cs : Text) :
    (leftOf (Token.quotedName quote cs)).length ≤ cs.length := by
  fun_induction Token.quotedName quote cs with
  | case1 => exact Nat.le_refl _
  | case2 => exact Nat.le_refl _
  | case3 c cs _ ih =>
    rw [leftOf_map]
    exact Nat.le_trans ih (Nat.le_add_right _ 2)
  | case4 => exact Nat.le_add_right _ 1
  | case5 => exact Nat.le_refl _
  | case6 c cs _ _ _ ih =>
    rw [leftOf_map]
    exact Nat.le_trans ih (Nat.le_add_right _ 1)

theorem taken_ofQuoted (quote : CodePoint) {ofName : Text → Token} (ne : ∀ s, ofName s ≠ .tooLong)
    (cs : Text) : Taken (cs.length + 1) (Token.ofQuoted quote ofName cs) := by
  have shorter := Nat.le_succ_of_le (length_quotedName quote cs)
  unfold Token.ofQuoted
  split
  · next s rest eq =>
    rw [eq] at shorter
    exact ⟨shorter, fun long => absurd long (ne s)⟩
  · next eq =>
    rw [eq] at shorter
    exact ⟨shorter, nofun⟩

theorem ofWord_ne_tooLong (word : Text) : Token.ofWord word ≠ .tooLong := by
  unfold Token.ofWord
  split
  · nofun
  · split
    · nofun
    · split
      · nofun
      · split <;> nofun

theorem taken_ofWord {n : Nat} (word : Text) {rest : Text} (le : rest.length ≤ n) :
    Taken n (Token.ofWord word, rest) :=
  ⟨le, fun long => (ofWord_ne_tooLong word long).elim⟩

theorem taken_ofText (cs : Text) : Taken cs.length (Token.ofText cs) := by
  unfold Token.ofText
  split
  all_goals first
    | exact ⟨Nat.le_refl _, nofun⟩
    | exact ⟨Nat.le_add_right _ 1, nofun⟩
    | exact ⟨Nat.le_add_right _ 2, nofun⟩
    | skip
  · exact taken_getD_number? (Nat.le_succ _) ⟨Nat.le_succ _, nofun⟩
  · exact taken_ofQuoted _ (fun _ long => by cases long) _
  · exact taken_ofQuoted _ (fun _ long => by cases long) _
  · exact taken_ofQuoted _ (fun _ long => by cases long) _
  · split
    · exact taken_ofWord _ (Nat.le_trans (length_dropWhile_le _ _) (Nat.le_add_right _ 2))
    · exact ⟨Nat.le_succ _, nofun⟩
  · split
    · exact taken_ofWord _ (Nat.le_succ_of_le (length_dropWhile_le _ _))
    · exact taken_getD_number? (Nat.le_refl _) ⟨Nat.le_refl _, nofun⟩

theorem taken_next (cs : Text) : Taken cs.length (Token.next cs) := by
  unfold Token.next
  cases found : Token.order? cs with
  | none => exact taken_ofText cs
  | some out => exact taken_order? found

theorem length_of_tooLong_mem {fuel : Nat} {p : Place} {cs : Text}
    (h : .tooLong ∈ (Lexeme.scanFrom fuel p cs).map Lexeme.token) :
    Numeral.digitLimit < cs.length := by
  induction fuel generalizing p cs with
  | zero => cases h
  | succ fuel ih =>
    cases cs with
    | nil => cases h
    | cons c cs =>
      rw [Lexeme.scanFrom] at h
      split at h
      · exact Nat.lt_succ_of_lt (ih h)
      · split at h
        · exact Nat.lt_succ_of_lt (ih h)
        · have taken := taken_next (c :: cs)
          dsimp only at h
          rw [List.map_cons, List.mem_cons] at h
          rcases h with first | later
          · exact taken.long first.symm
          · split at later
            · cases later
            · exact Nat.lt_of_lt_of_le (ih later) taken.left

/-- A query that cannot be read is malformed, unless it has more characters than a numeral may have
digits. -/
theorem parse_error {s : Text} {e : Fault} (h : parse s = .error e) :
    e.category = .query ∨ (e = .numeralTooLong ∧ Numeral.digitLimit < s.length) := by
  unfold parse at h
  dsimp only at h
  split at h
  · cases h
  · next long =>
    cases h
    exact .inr ⟨rfl, length_of_tooLong_mem (tooLong_mem_of_ofTokens long)⟩
  · cases h
    exact .inl rfl

/-- A query is read from its tokens, wherever they stand. -/
theorem parse_of_tokens {s : Text} {ts : List Token} {r : Route}
    (tokens : (Lexeme.scan s).map Lexeme.token = ts) (read : ofTokens ts = .ok r) :
    parse s = .ok r := by
  unfold parse
  dsimp only
  rw [tokens, read]

end Intake.Query
