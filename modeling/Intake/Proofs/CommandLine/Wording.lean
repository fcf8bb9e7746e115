import Intake.CommandLine.Display
import Intake.Proofs.Path.Grammar

set_option autoImplicit false

/-!
# Wording

Messages in which no bracket opens a tag are shown as they stand. The addresses that commands name
are such texts: a bracket in one of them has an index behind it, and no tag starts with a digit.
-/

namespace Intake

theorem Untagged.intercalate {sep : Text} (hsep : Untagged sep) {parts : List Text}
    (h : ∀ s ∈ parts, Untagged s) : Untagged (List.intercalate sep parts) := by
  induction parts with
  | nil => exact .nil
  | cons s rest ih =>
    have hs := h s List.mem_cons_self
    have later := ih fun t ht => h t (List.mem_cons_of_mem _ ht)
    cases rest with
    | nil => simpa [List.intercalate] using hs
    | cons t rest =>
      have whole : List.intercalate sep (s :: t :: rest) =
          s ++ (sep ++ List.intercalate sep (t :: rest)) := by
        simp [List.intercalate]
      rw [whole]
      exact hs.append (hsep.append later)

/-! ## Numbers and addresses -/

theorem Numeral.untagged_ofInt (n : Int) : Untagged (ofInt n) :=
  .of_notMem (notMem_ofInt (by decide) rfl n)

theorem Markup.startsTag_of_isDigit {c : CodePoint} (h : c.isDigit = true) :
    startsTag c = false := by
  cases c with
  | surrogate i => cases h
  | char d =>
    have range : 48 ≤ d.toNat ∧ d.toNat ≤ 57 := by
      simpa [CodePoint.isDigit, Char.isDigit, UInt32.le_iff_toNat_le] using h
    have isNot : ∀ e : Char, e.toNat < 48 ∨ 57 < e.toNat → CodePoint.char d ≠ .char e := by
      rintro e outside ⟨⟩
      omega
    have noLetter : ¬ 'a' ≤ d := by
      intro letter
      have behind : 97 ≤ d.toNat := letter
      omega
    simp [startsTag, CodePoint.char?, isNot '#' (by decide), isNot '/' (by decide),
      isNot '@' (by decide), noLetter]

/-- No tag starts as a natural number does. -/
theorem Numeral.exists_untagged_digits_eq_cons (n : Nat) :
    ∃ c rest, digits n = c :: rest ∧ Markup.startsTag c = false := by
  obtain ⟨c, rest, eq⟩ := List.exists_cons_of_ne_nil (digits_ne_nil n)
  have digit : c.isDigit = true := isDigit_of_mem_digits (eq ▸ List.mem_cons_self)
  exact ⟨c, rest, eq, Markup.startsTag_of_isDigit digit⟩

theorem Segment.untagged_written {s : Segment} (h : .char '[' ∉ s.key) : Untagged s.written := by
  have key := Untagged.of_notMem h
  unfold written
  cases s.index with
  | none => exact key
  | some i =>
    obtain ⟨c, rest, eq, first⟩ := Numeral.exists_untagged_digits_eq_cons i
    have plain : Untagged (Numeral.digits i) :=
      .of_notMem ((Numeral.isDigits_digits i).not_mem rfl)
    have number : Untagged (("[" : Text) ++ Numeral.digits i) := by
      rw [eq]
      exact .bracket first (eq ▸ plain)
    have index := number.append (.of_notMem (s := ("]" : Text)) (by decide))
    simpa using key.append index

theorem Path.untagged_text_of_parse {s : Text} {p : Path} (h : parse s = .ok p) :
    Untagged p.text := by
  refine .intercalate (.of_notMem (by decide)) ?_
  intro t mem
  obtain ⟨segment, stored, rfl⟩ := List.mem_map.1 mem
  exact Segment.untagged_written fun bracket =>
    absurd ((isParsed_of_parse h segment stored).key.allowed _ bracket) (by decide)

end Intake
