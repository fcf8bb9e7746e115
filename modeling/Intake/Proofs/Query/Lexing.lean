import Intake.Proofs.Query.Addressing

set_option autoImplicit false

/-!
# Tokens of a text in two parts

What a condition of a filter consists of is told by the tokens of its own text, wherever the text
stands. A token is taken from a text in the same way where a sign follows the text that can stand
behind a condition (`Settled`), so the tokens of such a text are those of its parts
(`tokens_append`).
-/

namespace Intake.Query

/-- The tokens of a text. -/
def tokens (s : Text) : List Token := (Lexeme.scan s).map Lexeme.token

/-- A sign that stands behind a condition of a filter. -/
def EndsCondition (d : CodePoint) : Prop := d = ']' ∨ d = '&'

instance (d : CodePoint) : Decidable (EndsCondition d) := inferInstanceAs (Decidable (_ ∨ _))

namespace Token

section Stop

variable {d : CodePoint} (b : Text)

theorem takeWhile_append_stop {p : CodePoint → Bool} (stop : p d = false) (cs : Text) :
    (cs ++ d :: b).takeWhile p = cs.takeWhile p := by
  induction cs with
  | nil => simp [stop]
  | cons c cs ih => simp only [List.cons_append, List.takeWhile_cons, ih]

theorem dropWhile_append_stop {p : CodePoint → Bool} (stop : p d = false) (cs : Text) :
    (cs ++ d :: b).dropWhile p = cs.dropWhile p ++ d :: b := by
  induction cs with
  | nil => simp [stop]
  | cons c cs ih =>
    simp only [List.cons_append, List.dropWhile_cons, ih]
    split <;> rfl

end Stop

/-- A text is one from which a token is taken in the same way where the end of a condition follows,
and behind the token less is left. -/
def Settled (take : Text → Token × Text) (cs : Text) : Prop :=
  ∀ t rest, take cs = (t, rest) → Lexeme.endsScan t = false →
    rest.length < cs.length ∧
      ∀ d b, EndsCondition d → take (cs ++ d :: b) = (t, rest ++ d :: b)

/-! ## Signs -/

/-- A sign that makes one token with some signs behind it, and one alone where none of them
follows. -/
theorem settled_of_sign {c : CodePoint} {u : Token} (es : List CodePoint)
    (double : ∀ e ∈ es, ∃ t, ∀ cs, ofText (c :: e :: cs) = (t, cs))
    (single : ∀ cs, (∀ e ∈ cs.head?, e ∉ es) → ofText (c :: cs) = (u, cs))
    (apart : ∀ e ∈ es, ¬ EndsCondition e) (cs : Text) : Settled ofText (c :: cs) := by
  intro v rest taken _
  by_cases alone : ∀ e ∈ cs.head?, e ∉ es
  · rw [single cs alone] at taken
    cases taken
    refine ⟨Nat.lt_succ_self _, fun d b ends => single _ ?_⟩
    cases cs with
    | nil =>
      intro e first mem
      cases first
      exact apart d mem ends
    | cons e cs => exact alone
  · cases cs with
    | nil => exact absurd nofun alone
    | cons e cs =>
      have mem : e ∈ es := by simpa using alone
      obtain ⟨t, taken'⟩ := double e mem
      rw [taken'] at taken
      cases taken
      exact ⟨Nat.lt_succ_of_lt (Nat.lt_succ_self _), fun d b _ => taken' (rest ++ d :: b)⟩

theorem settled_of_pair {c e : CodePoint} {t u : Token}
    (double : ∀ cs, ofText (c :: e :: cs) = (t, cs))
    (single : ∀ cs, (∀ more, cs = e :: more → False) → ofText (c :: cs) = (u, cs))
    (apart : ¬ EndsCondition e) (cs : Text) : Settled ofText (c :: cs) := by
  apply settled_of_sign [e]
  · intro f mem
    rw [List.mem_singleton.1 mem]
    exact ⟨t, double⟩
  · intro cs alone
    apply single
    rintro more rfl
    exact alone e rfl List.mem_cons_self
  · exact List.forall_mem_singleton.2 apart

theorem settled_equals (cs : Text) : Settled ofText ('=' :: cs) := by
  apply settled_of_sign ['~', '=']
  · intro e mem
    rcases List.mem_pair.1 mem with rfl | rfl
    · exact ⟨.other "FILTER_OP" "=~", fun cs => rfl⟩
    · exact ⟨.comparator .twoEq, fun cs => rfl⟩
  · intro cs alone
    rw [ofText]
    · rintro more rfl
      exact alone _ rfl List.mem_cons_self
    · rintro more rfl
      exact alone _ rfl (by decide)
  · decide

/-! ## Numbers, names in quotes and words -/

theorem digitValues_append_stop {d : CodePoint} (stop : (Text.digitValue? d).isSome = false)
    (b cs : Text) : digitValues (cs ++ d :: b) = digitValues cs := by
  rw [digitValues, takeWhile_append_stop b stop, digitValues]

theorem dropDigits_append_stop {d : CodePoint} (stop : (Text.digitValue? d).isSome = false)
    (b cs : Text) : dropDigits (cs ++ d :: b) = dropDigits cs ++ d :: b :=
  dropWhile_append_stop b stop cs

theorem fractionOf_append_stop {d : CodePoint} (stop : (Text.digitValue? d).isSome = false)
    (noPoint : d ≠ '.') (b cs : Text) : fractionOf (cs ++ d :: b) = fractionOf cs := by
  cases cs with
  | nil =>
    rw [List.nil_append, fractionOf]
    · rfl
    · rintro more same
      exact noPoint (List.cons.inj same).1
  | cons c cs =>
    by_cases point : c = '.'
    · subst point
      exact digitValues_append_stop stop b cs
    · have none : ∀ more, fractionOf (c :: more) = [] := by
        intro more
        rw [fractionOf]
        rintro tail same
        exact point (List.cons.inj same).1
      rw [List.cons_append, none, none]

theorem length_dropDigits_lt {cs : Text} (h : digitValues cs ≠ []) :
    (dropDigits cs).length < cs.length := by
  cases cs with
  | nil => exact absurd rfl h
  | cons c cs =>
    have digit : (Text.digitValue? c).isSome = true := by
      by_contra other
      exact h (digitValues_eq_nil_iff.2 fun d first => by
        cases first
        simpa using other)
    rw [dropDigits, List.dropWhile_cons, if_pos digit]
    exact Nat.lt_succ_of_le (length_dropWhile_le _ cs)

/-- What is taken as a number, if anything. -/
theorem number?_append_stop {d : CodePoint} (stop : (Text.digitValue? d).isSome = false)
    (noPoint : d ≠ '.') (negative : Bool) (b cs : Text) :
    number? negative (cs ++ d :: b) =
      (number? negative cs).map fun out => (out.1, out.2 ++ d :: b) := by
  rw [number?_eq, number?_eq, digitValues_append_stop stop, dropDigits_append_stop stop,
    fractionOf_append_stop stop noPoint]
  by_cases digits : digitValues cs = []
  · rw [if_pos digits, if_pos digits, Option.map_none]
  · rw [if_neg digits, if_neg digits]
    by_cases whole : fractionOf (dropDigits cs) = []
    · rw [if_pos whole, if_pos whole]
      split <;> rfl
    · have some : dropDigits cs ≠ [] := by
        intro none
        rw [none] at whole
        exact whole rfl
      rw [if_neg whole, if_neg whole, Option.map_some,
        List.drop_append_of_le_length (List.length_pos_iff.2 some), dropDigits_append_stop stop]

theorem length_number?_lt {negative : Bool} {cs rest : Text} {t : Token}
    (h : number? negative cs = some (t, rest)) : rest.length < cs.length := by
  have digits : digitValues cs ≠ [] := by
    intro none
    rw [number?_eq, if_pos none] at h
    cases h
  have shorter := length_dropDigits_lt digits
  rw [number?_eq, if_neg digits] at h
  split at h
  · split at h <;> cases h <;> exact shorter
  · cases h
    have behind : (dropDigits ((dropDigits cs).drop 1)).length ≤ ((dropDigits cs).drop 1).length :=
      length_dropWhile_le _ _
    rw [List.length_drop] at behind
    omega

theorem quotedName_append {quote : CodePoint} (noSlash : quote ≠ '\\') {cs s rest : Text}
    (u : Text) (h : quotedName quote cs = .ok (s, rest)) :
    quotedName quote (cs ++ u) = .ok (s, rest ++ u) := by
  fun_induction quotedName quote cs generalizing s with
  | case1 => cases h
  | case2 => cases h
  | case3 c cs other ih =>
    obtain ⟨_, inner, eq⟩ := exists_of_map_ok h
    cases eq
    rw [List.cons_append, List.cons_append, quotedName, if_neg other, ih inner]
    rfl
  | case4 cs _ =>
    cases h
    rw [List.cons_append, quotedName, if_pos rfl]
    exact fun c more same _ => noSlash same
  | case5 => cases h
  | case6 c cs _ other unescaped ih =>
    obtain ⟨_, inner, eq⟩ := exists_of_map_ok h
    cases eq
    rw [List.cons_append, quotedName, if_neg other, if_neg unescaped, ih inner]
    · rfl
    · exact fun d more same _ => unescaped same

theorem settled_of_quote {quote : CodePoint} (noSlash : quote ≠ '\\') {ofName : Text → Token}
    (h : ∀ cs, ofText (quote :: cs) = ofQuoted quote ofName cs) (cs : Text) :
    Settled ofText (quote :: cs) := by
  intro t rest taken goesOn
  rw [h, ofQuoted] at taken
  split at taken
  · next s after closed =>
    cases taken
    have shorter := length_quotedName quote cs
    rw [closed] at shorter
    refine ⟨Nat.lt_succ_of_le shorter, fun d b _ => ?_⟩
    rw [List.cons_append, h, ofQuoted, quotedName_append noSlash (d :: b) closed]
  · cases taken
    cases goesOn

theorem isNameChar_of_endsCondition {d : CodePoint} (h : EndsCondition d) :
    isNameChar d = false ∧ isNameStart d = false ∧ (Text.digitValue? d).isSome = false ∧
      d ≠ '.' := by
  rcases h with rfl | rfl <;> decide

/-- A number, or what stands for it where there is none. -/
theorem settled_number (negative : Bool) {c : CodePoint} {cs : Text} (text : Text)
    (other : Token × Text) (h : ∀ more, ofText (c :: (cs ++ more)) =
      (number? negative (text ++ more)).getD (other.1, other.2 ++ more))
    (within : text.length ≤ (c :: cs).length)
    (shorter : Lexeme.endsScan other.1 = false → other.2.length < (c :: cs).length) :
    Settled ofText (c :: cs) := by
  intro t rest taken goesOn
  have here := h []
  rw [List.append_nil, List.append_nil, List.append_nil, taken] at here
  cases found : number? negative text with
  | none =>
    rw [found] at here
    cases here
    refine ⟨shorter goesOn, fun d b ends => ?_⟩
    obtain ⟨_, _, stop, noPoint⟩ := isNameChar_of_endsCondition ends
    rw [List.cons_append, h, number?_append_stop stop noPoint, found]
    rfl
  | some out =>
    rw [found] at here
    cases here
    refine ⟨Nat.lt_of_lt_of_le (length_number?_lt found) within, fun d b ends => ?_⟩
    obtain ⟨_, _, stop, noPoint⟩ := isNameChar_of_endsCondition ends
    rw [List.cons_append, h, number?_append_stop stop noPoint, found]
    rfl

theorem settled_minus (cs : Text) : Settled ofText ('-' :: cs) :=
  settled_number true cs (.other "-" "-", cs) (fun _ => rfl) (Nat.le_succ _)
    fun _ => Nat.lt_succ_self _

theorem settled_word (pre cs : Text) (h : ∀ more, ofText (pre ++ (cs ++ more)) =
      (ofWord (pre ++ (cs ++ more).takeWhile isNameChar), (cs ++ more).dropWhile isNameChar))
    (some : pre ≠ []) : Settled ofText (pre ++ cs) := by
  intro t rest taken _
  rw [← List.append_nil cs, h, List.append_nil] at taken
  cases taken
  constructor
  · have behind := length_dropWhile_le isNameChar cs
    have before := List.length_pos_iff.2 some
    rw [List.length_append]
    omega
  · intro d b ends
    have stop := (isNameChar_of_endsCondition ends).1
    rw [List.append_assoc, h, takeWhile_append_stop b stop, dropWhile_append_stop b stop]

theorem settled_at (cs : Text) : Settled ofText ('@' :: cs) := by
  have sign : ∀ {cs : Text}, (∀ c ∈ cs.head?, isNameStart c = false) →
      ofText ('@' :: cs) = (.current, cs) := by
    intro cs first
    cases cs with
    | nil => rfl
    | cons c cs => rw [ofText, if_neg (by simp [first c rfl])]
  by_cases word : ∃ c more, cs = c :: more ∧ isNameStart c = true
  · obtain ⟨c, more, rfl, start⟩ := word
    refine settled_word ['@', c] more (fun behind => ?_) (List.cons_ne_nil _ _)
    rw [List.cons_append, List.cons_append, List.nil_append, ofText, if_pos start]
    rfl
  · have alone : ∀ c ∈ cs.head?, isNameStart c = false := by
      intro c first
      obtain ⟨more, rfl⟩ := List.head?_eq_some_iff.1 first
      exact Bool.eq_false_iff.2 fun start => word ⟨c, more, rfl, start⟩
    intro t rest taken _
    rw [sign alone] at taken
    obtain ⟨rfl, rfl⟩ := Prod.mk.inj taken
    refine ⟨Nat.lt_succ_self _, fun d b ends => sign fun c first => ?_⟩
    cases cs with
    | nil =>
      cases first
      exact (isNameChar_of_endsCondition ends).2.1
    | cons e more => exact alone c first

theorem settled_default {c : CodePoint} (h : c ∉ signs) (cs : Text) : Settled ofText (c :: cs) := by
  by_cases start : isNameStart c = true
  · apply settled_word [c] cs _ (List.cons_ne_nil _ _)
    intro more
    rw [List.singleton_append, ofText_of_notMem h, if_pos start]
    rfl
  · refine settled_number false (c :: cs) (.unreadable (.character c), c :: cs) (fun more => ?_)
      (Nat.le_refl _) nofun
    rw [ofText_of_notMem h, if_neg start]
    rfl

theorem settled_of_mem_signs (cs : Text) : ∀ c ∈ signs, Settled ofText (c :: cs) := by
  simp only [signs, List.forall_mem_cons]
  and_intros
  all_goals first
    | exact settled_of_sign [] (List.forall_mem_nil _) (fun _ _ => rfl) (List.forall_mem_nil _) cs
    | skip
  · exact settled_of_pair (fun _ => rfl) (fun _ alone => by rwa [ofText]) (by decide) cs
  · exact settled_of_pair (fun _ => rfl) (fun _ alone => by rwa [ofText]) (by decide) cs
  · exact settled_of_pair (fun _ => rfl) (fun _ alone => by rwa [ofText]) (by decide) cs
  · exact settled_of_pair (fun _ => rfl) (fun _ alone => by rwa [ofText]) (by decide) cs
  · exact settled_equals cs
  · exact settled_minus cs
  · exact settled_of_quote (by decide) (fun _ => rfl) cs
  · exact settled_of_quote (by decide) (fun _ => rfl) cs
  · exact settled_of_quote (by decide) (fun _ => rfl) cs
  · exact settled_at cs
  · exact List.forall_mem_nil _

theorem settled_ofText (c : CodePoint) (cs : Text) : Settled ofText (c :: cs) := by
  by_cases sign : c ∈ signs
  · exact settled_of_mem_signs cs c sign
  · exact settled_default sign cs

theorem order?_append {d : CodePoint} (h : EndsCondition d) (b cs : Text) :
    order? (cs ++ d :: b) = (order? cs).map fun out => (out.1, out.2 ++ d :: b) := by
  have comma : (if (cs ++ d :: b).head? = some ',' then (cs ++ d :: b).drop 1 else cs ++ d :: b) =
      (if cs.head? = some ',' then cs.drop 1 else cs) ++ d :: b := by
    cases cs with
    | nil => rcases h with rfl | rfl <;> rfl
    | cons c cs =>
      rw [List.cons_append, List.head?_cons, List.head?_cons]
      split <;> rfl
  have solid : Text.isBlank d = false := by
    rcases h with rfl | rfl <;> decide
  unfold order?
  rw [comma, dropWhile_append_stop b solid]
  generalize (if cs.head? = some ',' then cs.drop 1 else cs).dropWhile Text.isBlank = more
  cases more with
  | nil => rcases h with rfl | rfl <;> rfl
  | cons c more =>
    by_cases slash : c = '/'
    · subst slash
      rfl
    · by_cases backslash : c = '\\'
      · subst backslash
        rfl
      · simp [slash, backslash]

theorem settled_next (c : CodePoint) (cs : Text) : Settled next (c :: cs) := by
  intro t rest taken goesOn
  unfold next at taken ⊢
  cases ordered : order? (c :: cs) with
  | some out =>
    rw [ordered] at taken
    cases taken
    refine ⟨length_order?_lt ordered, fun d b ends => ?_⟩
    rw [order?_append ends, ordered]
    rfl
  | none =>
    rw [ordered] at taken
    obtain ⟨shorter, same⟩ := settled_ofText c cs t rest taken goesOn
    refine ⟨shorter, fun d b ends => ?_⟩
    rw [order?_append ends, ordered]
    exact same d b ends

end Token

/-! ## Scanning -/

/-- A character that only separates tokens. -/
def separates (c : CodePoint) (cs : Text) : Bool :=
  c = ' ' || c = '\t' || (c = '\n' && (Token.order? (c :: cs)).isNone)

theorem map_token_scanFrom_cons (fuel : Nat) (p : Place) (c : CodePoint) (cs : Text) :
    ∃ q, (Lexeme.scanFrom (fuel + 1) p (c :: cs)).map Lexeme.token =
      if separates c cs then (Lexeme.scanFrom fuel q cs).map Lexeme.token
      else (Token.next (c :: cs)).1 :: if Lexeme.endsScan (Token.next (c :: cs)).1 then []
        else (Lexeme.scanFrom fuel q (Token.next (c :: cs)).2).map Lexeme.token := by
  rw [Lexeme.scanFrom]
  unfold separates
  by_cases blank : (decide (c = ' ') || decide (c = '\t')) = true
  · refine ⟨{ p with offset := p.offset + 1 }, ?_⟩
    rw [if_pos blank, if_pos (by rw [blank, Bool.true_or])]
  · rw [if_neg blank]
    by_cases lineFeed : (decide (c = '\n') && (Token.order? (c :: cs)).isNone) = true
    · refine ⟨p.pastLineFeed, ?_⟩
      rw [if_pos lineFeed, if_pos (by rw [lineFeed, Bool.or_true])]
    · refine ⟨{ p with
        offset := p.offset + (cs.length + 1 - (Token.next (c :: cs)).2.length) }, ?_⟩
      rw [if_neg lineFeed, if_neg (by simp_all)]
      simp only [List.map_cons, apply_ite (List.map Lexeme.token), List.map_nil]
      rfl

theorem length_next_le {c : CodePoint} {cs : Text}
    (h : Lexeme.endsScan (Token.next (c :: cs)).1 = false) :
    (Token.next (c :: cs)).2.length ≤ cs.length :=
  Nat.le_of_lt_succ (Token.settled_next c cs _ _ rfl h).1

/-- The tokens of a text do not depend on where it stands, nor on fuel that is enough. -/
theorem scanFrom_unique {fuel fuel' : Nat} {p p' : Place} {cs : Text} (enough : cs.length ≤ fuel)
    (enough' : cs.length ≤ fuel') :
    (Lexeme.scanFrom fuel p cs).map Lexeme.token =
      (Lexeme.scanFrom fuel' p' cs).map Lexeme.token := by
  induction fuel generalizing fuel' p p' cs with
  | zero =>
    cases List.eq_nil_of_length_eq_zero (Nat.le_zero.1 enough)
    cases fuel' <;> rfl
  | succ fuel ih =>
    cases cs with
    | nil => cases fuel' <;> rfl
    | cons c cs =>
      cases fuel' with
      | zero => cases enough'
      | succ fuel' =>
        obtain ⟨q, eq⟩ := map_token_scanFrom_cons fuel p c cs
        obtain ⟨q', eq'⟩ := map_token_scanFrom_cons fuel' p' c cs
        have short := Nat.le_of_succ_le_succ enough
        have short' := Nat.le_of_succ_le_succ enough'
        rw [eq, eq', ih short short']
        by_cases ends : Lexeme.endsScan (Token.next (c :: cs)).1 = true
        · rw [if_pos ends, if_pos ends]
        · have left := length_next_le (Bool.eq_false_iff.2 ends)
          rw [if_neg ends, if_neg ends, ih (Nat.le_trans left short) (Nat.le_trans left short')]

theorem tokens_nil : tokens [] = [] := rfl

/-- A separator in front of a text adds no token, and anything else its first token. -/
theorem tokens_cons (c : CodePoint) (cs : Text) :
    tokens (c :: cs) = if separates c cs then tokens cs
      else (Token.next (c :: cs)).1 :: if Lexeme.endsScan (Token.next (c :: cs)).1 then []
        else tokens (Token.next (c :: cs)).2 := by
  obtain ⟨q, eq⟩ := map_token_scanFrom_cons cs.length .start c cs
  have scanned : tokens (c :: cs) =
      (Lexeme.scanFrom (cs.length + 1) .start (c :: cs)).map Lexeme.token := rfl
  rw [scanned, eq]
  have same : (Lexeme.scanFrom cs.length q cs).map Lexeme.token = tokens cs :=
    scanFrom_unique (Nat.le_refl _) (Nat.le_refl _)
  rw [same]
  by_cases ends : Lexeme.endsScan (Token.next (c :: cs)).1 = true
  · rw [if_pos ends, if_pos ends]
  · have left := length_next_le (Bool.eq_false_iff.2 ends)
    have later : (Lexeme.scanFrom cs.length q (Token.next (c :: cs)).2).map Lexeme.token =
        tokens (Token.next (c :: cs)).2 := scanFrom_unique left (Nat.le_refl _)
    rw [if_neg ends, if_neg ends, later]

theorem separates_append {d : CodePoint} (h : EndsCondition d) (b : Text) (c : CodePoint)
    (cs : Text) : separates c (cs ++ d :: b) = separates c cs := by
  unfold separates
  rw [← List.cons_append, Token.order?_append h, Option.isNone_map]

/-- A text all of whose tokens can be read has the same tokens where a sign follows that ends a
condition. -/
theorem tokens_append {a : Text} (legible : ∀ t ∈ tokens a, Lexeme.endsScan t = false)
    {d : CodePoint} (h : EndsCondition d) (b : Text) :
    tokens (a ++ d :: b) = tokens a ++ tokens (d :: b) := by
  induction length : a.length using Nat.strongRecOn generalizing a with
  | ind n ih =>
    cases a with
    | nil => rfl
    | cons c cs =>
      subst length
      rw [tokens_cons] at legible
      rw [List.cons_append, tokens_cons, tokens_cons, separates_append h]
      by_cases separator : separates c cs = true
      · rw [if_pos separator] at legible
        rw [if_pos separator, if_pos separator]
        exact ih cs.length (Nat.lt_succ_self _) legible rfl
      · obtain ⟨t, rest, taken⟩ : ∃ t rest, Token.next (c :: cs) = (t, rest) := ⟨_, _, rfl⟩
        rw [if_neg separator, taken] at legible
        have goesOn := legible t List.mem_cons_self
        obtain ⟨shorter, same⟩ := Token.settled_next c cs t rest taken goesOn
        rw [if_neg separator, if_neg separator, ← List.cons_append, same d b h, taken, goesOn]
        rw [goesOn] at legible
        have later := ih _ shorter (fun t mem => legible t (List.mem_cons_of_mem _ mem)) rfl
        simp only [Bool.false_eq_true, if_false, List.cons_append, later]

end Intake.Query
