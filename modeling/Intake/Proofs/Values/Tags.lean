import Intake.Locale
import Intake.Proofs.Sequence

set_option autoImplicit false

/-!
# Texts of language tags

The shape of a language tag is said without a reader: a language, and groups behind hyphens. What is
accepted as a locale is such a text, or one with a line feed behind it.
-/

namespace Intake

namespace CodePoint

/-- One of the letters from `A` to `Z` and from `a` to `z`. -/
def IsLetter (c : CodePoint) : Prop :=
  (0x41 ≤ c.toNat ∧ c.toNat ≤ 0x5A) ∨ (0x61 ≤ c.toNat ∧ c.toNat ≤ 0x7A)

/-- Such a letter, or one of the digits from `0` to `9`. -/
def IsLetterOrDigit (c : CodePoint) : Prop := c.IsLetter ∨ (0x30 ≤ c.toNat ∧ c.toNat ≤ 0x39)

theorem isAlpha_iff (c : CodePoint) : c.isAlpha = true ↔ c.IsLetter := by
  cases c with
  | surrogate i =>
    refine iff_of_false nofun ?_
    simp only [IsLetter, toNat]
    omega
  | char c =>
    have ranges : (char c).isAlpha = (decide (c.val ≥ 65 ∧ c.val ≤ 90) ||
        (decide (c.val ≥ 97) && decide (c.val ≤ 122))) := rfl
    simp only [ranges, IsLetter, toNat, Bool.or_eq_true, Bool.and_eq_true, decide_eq_true_eq,
      ge_iff_le, UInt32.le_iff_toNat_le]
    rfl

theorem isAlphanum_iff (c : CodePoint) : c.isAlphanum = true ↔ c.IsLetterOrDigit := by
  cases c with
  | surrogate i =>
    refine iff_of_false nofun ?_
    simp only [IsLetterOrDigit, IsLetter, toNat]
    omega
  | char c =>
    have ranges : (char c).isAlphanum =
        ((char c).isAlpha || (decide (c.val ≥ 48) && decide (c.val ≤ 57))) := rfl
    simp only [ranges, IsLetterOrDigit, isAlpha_iff, toNat, Bool.or_eq_true, Bool.and_eq_true,
      decide_eq_true_eq, ge_iff_le, UInt32.le_iff_toNat_le]
    rfl

end CodePoint

namespace Locale

/-- A language has two or three letters. -/
def IsLanguage (s : Text) : Prop := 2 ≤ s.length ∧ s.length ≤ 3 ∧ ∀ c ∈ s, c.IsLetter

/-- A group behind a hyphen has two to eight letters or digits. -/
def IsGroup (s : Text) : Prop := 2 ≤ s.length ∧ s.length ≤ 8 ∧ ∀ c ∈ s, c.IsLetterOrDigit

/-- A whole text that is a language tag. -/
def IsLanguageTag (s : Text) : Prop :=
  ∃ (language : Text) (groups : List Text),
    s = language ++ groups.flatMap (.char '-' :: ·) ∧ IsLanguage language ∧ ∀ g ∈ groups, IsGroup g

theorem isLanguage_iff {s : Text} : isLanguage s = true ↔ IsLanguage s := by
  simp [isLanguage, IsLanguage, CodePoint.isAlpha_iff, and_assoc]

theorem isSubtag_iff {s : Text} : isSubtag s = true ↔ IsGroup s := by
  simp [isSubtag, IsGroup, CodePoint.isAlphanum_iff, and_assoc]

/-- What is no letter, no digit and no hyphen is in no tag. -/
theorem IsLanguageTag.not_mem {s : Text} (h : IsLanguageTag s) {c : CodePoint} (hyphen : c ≠ '-')
    (other : ¬ c.IsLetterOrDigit) : c ∉ s := by
  obtain ⟨language, groups, rfl, lead, each⟩ := h
  intro mem
  rcases List.mem_append.1 mem with mem | mem
  · exact other (.inl (lead.2.2 c mem))
  · obtain ⟨g, group, mem⟩ := List.mem_flatMap.1 mem
    rcases List.mem_cons.1 mem with rfl | mem
    · exact hyphen rfl
    · exact other ((each g group).2.2 c mem)

theorem isTag_iff {s : Text} : isTag s = true ↔ IsLanguageTag s := by
  have hyphen : ¬ CodePoint.IsLetterOrDigit '-' := by
    simp [CodePoint.IsLetterOrDigit, CodePoint.IsLetter, CodePoint.toNat]
  unfold isTag
  constructor
  · intro h
    have joined : List.intercalate [CodePoint.char '-'] (s.splitOn (.char '-')) = s :=
      List.intercalate_splitOn _
    split at h
    · cases h
    · next language groups parts =>
      rw [parts, intercalate_cons_eq_flatMap] at joined
      rw [Bool.and_eq_true, List.all_eq_true] at h
      exact ⟨language, groups, joined.symm, isLanguage_iff.1 h.1,
        fun g mem => isSubtag_iff.1 (h.2 g mem)⟩
  · rintro ⟨language, groups, rfl, lead, each⟩
    have whole : ∀ part ∈ language :: groups, CodePoint.char '-' ∉ part :=
      List.forall_mem_cons.2 ⟨fun mem => hyphen (.inl (lead.2.2 _ mem)),
        fun g group mem => hyphen ((each g group).2.2 _ mem)⟩
    have parts := List.splitOn_intercalate (CodePoint.char '-') whole nofun
    rw [intercalate_cons_eq_flatMap] at parts
    have split : (language ++ groups.flatMap (.char '-' :: ·)).splitOn (CodePoint.char '-') =
        language :: groups := parts
    rw [split]
    simpa [isLanguage_iff, isSubtag_iff] using ⟨lead, each⟩

theorem dropLineFeed_append (s : Text) : dropLineFeed (s ++ "\n") = s :=
  (if_pos List.getLast?_concat).trans List.dropLast_concat

theorem dropLineFeed_of_ne {s : Text} (h : s.getLast? ≠ some (.char '\n')) : dropLineFeed s = s :=
  if_neg h

theorem IsLanguageTag.getLast?_ne {s : Text} (h : IsLanguageTag s) :
    s.getLast? ≠ some (.char '\n') := by
  have lineFeed : ¬ CodePoint.IsLetterOrDigit '\n' := by
    simp [CodePoint.IsLetterOrDigit, CodePoint.IsLetter, CodePoint.toNat]
  exact fun last => h.not_mem (by decide) lineFeed (List.mem_of_getLast? last)

/-- What is accepted is a language tag, perhaps with a line feed behind it. -/
theorem isAccepted_iff {s : Text} : isAccepted s = true ↔
    IsLanguageTag s ∨ ∃ t, IsLanguageTag t ∧ s = t ++ "\n" := by
  rw [isAccepted, isTag_iff]
  constructor
  · intro h
    by_cases last : s.getLast? = some (.char '\n')
    · obtain ⟨t, rfl⟩ := List.getLast?_eq_some_iff.1 last
      exact .inr ⟨t, dropLineFeed_append t ▸ h, rfl⟩
    · exact .inl (dropLineFeed_of_ne last ▸ h)
  · rintro (h | ⟨t, h, rfl⟩)
    · rwa [dropLineFeed_of_ne h.getLast?_ne]
    · rwa [dropLineFeed_append]

theorem parse_eq_ok_iff {s : Text} {l : Locale} :
    parse s = .ok l ↔ isAccepted s = true ∧ l.tag = s := by
  unfold parse
  split
  · next accepted =>
    rw [Except.ok.injEq]
    constructor
    · rintro rfl
      exact ⟨accepted, rfl⟩
    · rintro ⟨_, rfl⟩
      rfl
  · next refused => exact iff_of_false nofun fun h => refused h.1

end Locale
end Intake
