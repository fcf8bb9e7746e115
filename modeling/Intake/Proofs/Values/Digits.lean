import Mathlib.Algebra.Group.Nat.Defs
import Intake.Decimal.Numeral

set_option autoImplicit false

/-!
# Digits and the numbers they stand for
-/

namespace Intake

theorem CodePoint.exists_eq_digitChar {c : CodePoint} (h : c.isDigit = true) :
    ∃ n < 10, c = .char (Nat.digitChar n) := by
  cases c with
  | surrogate i => cases h
  | char c =>
    have range : 48 ≤ c.toNat ∧ c.toNat ≤ 57 := by
      simpa [isDigit, Char.isDigit, UInt32.le_iff_toNat_le] using h
    have small : c.toNat - 48 < 10 := by omega
    have toNat : ∀ n : Fin 10, (Nat.digitChar n.val).toNat = n.val + 48 := by decide
    refine ⟨c.toNat - 48, small, congrArg CodePoint.char (Char.toNat_inj.1 ?_)⟩
    rw [toNat ⟨c.toNat - 48, small⟩]
    dsimp only
    omega

theorem CodePoint.isBlank_of_isDigit {c : CodePoint} (h : c.isDigit = true) :
    Text.isBlank c = false := by
  obtain ⟨n, small, rfl⟩ := exists_eq_digitChar h
  have all : ∀ n : Fin 10, Text.isBlank (.char (Nat.digitChar n)) = false := by decide
  exact all ⟨n, small⟩

namespace Numeral

theorem exists_digits_eq_digit_cons (n : Nat) :
    ∃ c cs, digits n = c :: cs ∧ c.isDigit = true := by
  obtain ⟨c, cs, eq⟩ := List.exists_cons_of_ne_nil (digits_ne_nil n)
  exact ⟨c, cs, eq, isDigit_of_mem_digits (eq ▸ List.mem_cons_self)⟩

/-- An integer is written with digits, perhaps behind a minus. -/
theorem of_mem_ofInt {n : Int} {c : CodePoint} (mem : c ∈ ofInt n) :
    c = '-' ∨ c.isDigit = true := by
  unfold ofInt at mem
  split at mem
  · rcases List.mem_cons.1 mem with sign | digit
    · exact .inl sign
    · exact .inr (isDigit_of_mem_digits digit)
  · exact .inr (isDigit_of_mem_digits mem)

theorem notMem_ofInt {c : CodePoint} (unsigned : c ≠ '-') (noDigit : c.isDigit = false) (n : Int) :
    c ∉ ofInt n := by
  intro mem
  rcases of_mem_ofInt mem with sign | digit
  · exact unsigned sign
  · rw [noDigit] at digit
    cases digit

theorem ofInt_ne_nil (n : Int) : ofInt n ≠ [] := by
  unfold ofInt
  split
  · exact List.cons_ne_nil _ _
  · exact digits_ne_nil _

theorem exists_ofInt_eq_cons (n : Int) :
    ∃ c cs, ofInt n = c :: cs ∧ (c = '-' ∨ c.isDigit = true) := by
  obtain ⟨c, cs, eq⟩ := List.exists_cons_of_ne_nil (ofInt_ne_nil n)
  exact ⟨c, cs, eq, of_mem_ofInt (eq ▸ List.mem_cons_self)⟩

theorem ofDigitChars_digitChar {n : Nat} (h : n < 10) (cs : List Char) (before : Nat) :
    Nat.ofDigitChars 10 (Nat.digitChar n :: cs) before =
      Nat.ofDigitChars 10 cs (10 * before + n) := by
  rw [Nat.ofDigitChars_cons]
  exact congrArg (fun m => Nat.ofDigitChars 10 cs (10 * before + m))
    (Nat.toNat_digitChar_sub_48_of_lt_ten h)

/-- The number that the digits of some numbers below ten make. -/
theorem value_digitChars (ns : List Nat) (h : ∀ n ∈ ns, n < 10) :
    value (ns.map fun n => .char (Nat.digitChar n)) = ns.foldl (fun m n => 10 * m + n) 0 := by
  have chars : Text.chars (ns.map fun n => .char (Nat.digitChar n)) = ns.map Nat.digitChar := by
    simp [Text.chars, List.filterMap_map, Function.comp_def, CodePoint.char?]
  rw [value, chars]
  clear chars
  generalize 0 = before
  induction ns generalizing before with
  | nil => rfl
  | cons n ns ih =>
    obtain ⟨small, later⟩ := List.forall_mem_cons.1 h
    rw [List.map_cons, ofDigitChars_digitChar small, List.foldl_cons]
    exact ih later _

theorem exists_eq_digitChars {ds : Text} (h : ∀ c ∈ ds, c.isDigit = true) :
    ∃ ns : List Nat, (∀ n ∈ ns, n < 10) ∧ ds = ns.map fun n => .char (Nat.digitChar n) := by
  induction ds with
  | nil => exact ⟨[], nofun, rfl⟩
  | cons c ds ih =>
    obtain ⟨digit, later⟩ := List.forall_mem_cons.1 h
    obtain ⟨n, small, rfl⟩ := CodePoint.exists_eq_digitChar digit
    obtain ⟨ns, smalls, rfl⟩ := ih later
    exact ⟨n :: ns, List.forall_mem_cons.2 ⟨small, smalls⟩, rfl⟩

theorem foldl_lt (ns : List Nat) (h : ∀ n ∈ ns, n < 10) (before : Nat) :
    ns.foldl (fun m n => 10 * m + n) before < (before + 1) * 10 ^ ns.length := by
  induction ns generalizing before with
  | nil => simp
  | cons n ns ih =>
    obtain ⟨small, later⟩ := List.forall_mem_cons.1 h
    calc (n :: ns).foldl (fun m n => 10 * m + n) before
        < (10 * before + n + 1) * 10 ^ ns.length := ih later _
      _ ≤ ((before + 1) * 10) * 10 ^ ns.length := Nat.mul_le_mul_right _ (by omega)
      _ = (before + 1) * 10 ^ (n :: ns).length := by
        rw [Nat.mul_assoc, List.length_cons, Nat.pow_succ']

theorem length_digits_mono {m n : Nat} (h : m ≤ n) : (digits m).length ≤ (digits n).length := by
  have own : n < 10 ^ (digits n).length := by
    rw [← Nat.length_toDigits_le_iff (by decide) (List.length_pos_iff.2 (digits_ne_nil n))]
    simp [digits, Text.ofChars]
  rw [digits, Text.ofChars, List.length_map,
    Nat.length_toDigits_le_iff (by decide) (List.length_pos_iff.2 (digits_ne_nil n))]
  exact Nat.lt_of_le_of_lt h own

/-- A number has no more digits than any numeral for it. -/
theorem length_digits_value_le {ds : Text} (digit : ∀ c ∈ ds, c.isDigit = true)
    (some : ds ≠ []) : (digits (value ds)).length ≤ ds.length := by
  obtain ⟨ns, small, rfl⟩ := exists_eq_digitChars digit
  have bound := foldl_lt ns small 0
  rw [← value_digitChars ns small, Nat.zero_add, Nat.one_mul] at bound
  rw [List.length_map] at *
  rw [digits, Text.ofChars, List.length_map, Nat.length_toDigits_le_iff (by decide) ?_]
  · exact bound
  · exact List.length_pos_iff.2 fun none => some (by rw [none]; rfl)

end Numeral
end Intake
