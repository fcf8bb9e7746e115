import Intake.Decimal.Double
import Intake.Text.CodePoint

set_option autoImplicit false

/-!
JSON values. The members of an object are listed in the order in which their keys came in, and
`WellKeyed` values repeat no key within an object. Setting a member keeps the place of a key that
is already there, and adds a new key at the end.
-/

namespace Intake

inductive Atom where
  | null
  | bool (b : Bool)
  | int (n : Int)
  | double (x : Double)
  | text (s : Text)
  deriving DecidableEq

inductive Json where
  | atom (a : Atom)
  | array (items : List Json)
  | object (members : List (Text × Json))

abbrev Members := List (Text × Json)

inductive Kind where
  | null
  | bool
  | int
  | double
  | text
  | array
  | object
  deriving DecidableEq

/-- The name by which a message speaks of a kind. -/
def Kind.name : Kind → Text
  | .null => "NoneType"
  | .bool => "bool"
  | .int => "int"
  | .double => "float"
  | .text => "str"
  | .array => "list"
  | .object => "dict"

def Atom.kind : Atom → Kind
  | .null => .null
  | .bool _ => .bool
  | .int _ => .int
  | .double _ => .double
  | .text _ => .text

/-- Two atoms agree when they are of one kind and equal; NaN agrees with nothing. -/
def Atom.agrees : Atom → Atom → Bool
  | .double x, .double y => x.same y
  | a, b => a = b

namespace Json

def null : Json := .atom .null
def int (n : Int) : Json := .atom (.int n)
def text (s : Text) : Json := .atom (.text s)

def kind : Json → Kind
  | .atom a => a.kind
  | .array _ => .array
  | .object _ => .object

def isNull : Json → Bool
  | .atom .null => true
  | _ => false

def text? : Json → Option Text
  | .atom (.text s) => some s
  | _ => none

def int? : Json → Option Int
  | .atom (.int n) => some n
  | _ => none

end Json

namespace Members

def keys (ms : Members) : List Text := ms.map Prod.fst

def get? (k : Text) (ms : Members) : Option Json := ms.lookup k

def set (k : Text) (v : Json) : Members → Members
  | [] => [(k, v)]
  | m :: ms => if m.1 = k then (k, v) :: ms else m :: set k v ms

def erase (k : Text) (ms : Members) : Members := ms.filter (·.1 ≠ k)

/-- Changes what stands under a key, if anything does. -/
def modify (k : Text) (f : Json → Json) (ms : Members) : Members :=
  ms.map fun m => if m.1 = k then (m.1, f m.2) else m

end Members

/-- No object, at any depth, has a key twice. -/
inductive Json.WellKeyed : Json → Prop where
  | atom (a : Atom) : WellKeyed (.atom a)
  | array {items : List Json} : (∀ v ∈ items, WellKeyed v) → WellKeyed (.array items)
  | object {ms : Members} : (Members.keys ms).Nodup → (∀ m ∈ ms, WellKeyed m.2) →
      WellKeyed (.object ms)

namespace Members

theorem mem_set {k : Text} {v : Json} {ms : Members} {m : Text × Json}
    (h : m ∈ set k v ms) : m = (k, v) ∨ m ∈ ms := by
  induction ms with
  | nil => simp_all [set]
  | cons a r ih =>
    simp only [set] at h
    split at h <;> simp only [List.mem_cons] at h ⊢
    · rcases h with h | h
      · exact .inl h
      · exact .inr (.inr h)
    · rcases h with h | h
      · exact .inr (.inl h)
      · exact (ih h).imp id .inr

theorem keys_set (k : Text) (v : Json) (ms : Members) :
    keys (set k v ms) = if k ∈ keys ms then keys ms else keys ms ++ [k] := by
  induction ms with
  | nil => simp [set, keys]
  | cons a r ih =>
    simp only [keys] at ih
    by_cases h : a.1 = k
    · simp [set, keys, h]
    · have h' : ¬ k = a.1 := fun e => h e.symm
      simp only [set, if_neg h, keys, List.map_cons, ih, List.mem_cons, h', false_or]
      by_cases hk : k ∈ r.map Prod.fst <;> simp [hk]

theorem nodup_keys_set {k : Text} {v : Json} {ms : Members} (h : (keys ms).Nodup) :
    (keys (set k v ms)).Nodup := by
  rw [keys_set]
  split
  · exact h
  · next hk =>
    rw [List.nodup_append]
    refine ⟨h, by simp, ?_⟩
    intro a ha b hb
    simp only [List.mem_singleton] at hb
    exact fun e => hk (hb ▸ e ▸ ha)

theorem keys_erase (k : Text) (ms : Members) : keys (erase k ms) = (keys ms).filter (· ≠ k) := by
  simp [keys, erase, List.filter_map, Function.comp_def]

theorem keys_modify (k : Text) (f : Json → Json) (ms : Members) :
    keys (modify k f ms) = keys ms := by
  simp only [keys, modify, List.map_map]
  apply List.map_congr_left
  intro m _
  simp only [Function.comp_apply]
  split <;> rfl

theorem mem_of_get? {k : Text} {v : Json} {ms : Members} (h : get? k ms = some v) :
    (k, v) ∈ ms := by
  obtain ⟨l, r, rfl, _⟩ := List.lookup_eq_some_iff.1 h
  simp

@[simp] theorem get?_nil (k : Text) : get? k [] = none := rfl

theorem get?_cons (k : Text) (m : Text × Json) (ms : Members) :
    get? k (m :: ms) = if m.1 = k then some m.2 else get? k ms := by
  rw [get?, List.lookup_cons]
  by_cases h : m.1 = k
  · rw [if_pos h, h, beq_self_eq_true]
  · have h' : (k == m.1) = false := by simpa using fun e => h e.symm
    rw [if_neg h, h']
    rfl

theorem get?_eq_none_iff {k : Text} {ms : Members} : get? k ms = none ↔ k ∉ keys ms := by
  induction ms with
  | nil => simp [keys]
  | cons m ms ih =>
    rw [get?_cons]
    by_cases h : m.1 = k
    · simp [keys, h]
    · have h' : ¬ k = m.1 := fun e => h e.symm
      simpa [keys, h, h'] using ih

theorem get?_of_mem {m : Text × Json} {ms : Members} (nodup : (keys ms).Nodup) (h : m ∈ ms) :
    get? m.1 ms = some m.2 := by
  induction ms with
  | nil => cases h
  | cons n ms ih =>
    obtain ⟨fresh, rest⟩ := List.nodup_cons.1 nodup
    rw [get?_cons]
    rcases List.mem_cons.1 h with rfl | later
    · rw [if_pos rfl]
    · have ne : n.1 ≠ m.1 := fun e => fresh (List.mem_map.2 ⟨m, later, e.symm⟩)
      rw [if_neg ne, ih rest later]

@[simp] theorem get?_set_self (k : Text) (v : Json) (ms : Members) :
    get? k (set k v ms) = some v := by
  induction ms with
  | nil => simp [set, get?_cons]
  | cons m ms ih =>
    by_cases h : m.1 = k
    · simp [set, h, get?_cons]
    · simp [set, h, get?_cons, ih]

theorem get?_set_of_ne {j k : Text} (h : j ≠ k) (v : Json) (ms : Members) :
    get? j (set k v ms) = get? j ms := by
  induction ms with
  | nil => simp [set, get?_cons, h.symm]
  | cons m ms ih =>
    by_cases hm : m.1 = k
    · have hj : m.1 ≠ j := fun e => h (e.symm.trans hm)
      simp [set, hm, get?_cons, h.symm]
    · simp [set, hm, get?_cons, ih]

/-- Setting a member to what it is changes nothing. -/
theorem set_of_get? {k : Text} {v : Json} {ms : Members} (h : get? k ms = some v) :
    set k v ms = ms := by
  induction ms with
  | nil => simp at h
  | cons m ms ih =>
    obtain ⟨a, w⟩ := m
    rw [get?_cons] at h
    by_cases hm : a = k
    · rw [if_pos hm, Option.some.injEq] at h
      simp only [set, if_pos hm]
      rw [← hm, ← h]
    · rw [if_neg hm] at h
      simp only [set, if_neg hm]
      rw [ih h]

theorem set_set (k : Text) (v w : Json) (ms : Members) : set k w (set k v ms) = set k w ms := by
  induction ms with
  | nil => simp [set]
  | cons m ms ih =>
    by_cases h : m.1 = k
    · simp [set, h]
    · simp [set, h, ih]

end Members

namespace Json.WellKeyed

theorem members {ms : Members} (h : WellKeyed (.object ms)) : ∀ m ∈ ms, WellKeyed m.2 := by
  cases h with | object _ hm => exact hm

theorem nodup_keys {ms : Members} (h : WellKeyed (.object ms)) : (Members.keys ms).Nodup := by
  cases h with | object hk _ => exact hk

theorem items {xs : List Json} (h : WellKeyed (.array xs)) : ∀ v ∈ xs, WellKeyed v := by
  cases h with | array hx => exact hx

@[simp] theorem array_iff {xs : List Json} : WellKeyed (.array xs) ↔ ∀ v ∈ xs, WellKeyed v :=
  ⟨items, .array⟩

@[simp] theorem object_iff {ms : Members} :
    WellKeyed (.object ms) ↔ (Members.keys ms).Nodup ∧ ∀ m ∈ ms, WellKeyed m.2 :=
  ⟨fun h => ⟨h.nodup_keys, h.members⟩, fun h => .object h.1 h.2⟩

theorem append {xs ys : List Json} (hx : WellKeyed (.array xs)) (hy : WellKeyed (.array ys)) :
    WellKeyed (.array (xs ++ ys)) :=
  .array fun v hv => (List.mem_append.1 hv).elim (hx.items v) (hy.items v)

theorem get? {ms : Members} {k : Text} {v : Json} (h : WellKeyed (.object ms))
    (hv : Members.get? k ms = some v) : WellKeyed v :=
  h.members _ (Members.mem_of_get? hv)

theorem set {ms : Members} {k : Text} {v : Json} (h : WellKeyed (.object ms))
    (hv : WellKeyed v) : WellKeyed (.object (Members.set k v ms)) :=
  .object (Members.nodup_keys_set h.nodup_keys) fun m hm =>
    (Members.mem_set hm).elim (fun e => e ▸ hv) (h.members m)

theorem erase {ms : Members} {k : Text} (h : WellKeyed (.object ms)) :
    WellKeyed (.object (Members.erase k ms)) :=
  .object (Members.keys_erase k ms ▸ h.nodup_keys.filter _) fun m hm =>
    h.members m (List.mem_filter.1 hm).1

theorem modify {ms : Members} {k : Text} {f : Json → Json} (h : WellKeyed (.object ms))
    (hf : ∀ v, WellKeyed v → WellKeyed (f v)) : WellKeyed (.object (Members.modify k f ms)) := by
  refine .object (Members.keys_modify k f ms ▸ h.nodup_keys) fun m hm => ?_
  obtain ⟨a, ha, rfl⟩ := List.mem_map.1 hm
  split
  · exact hf _ (h.members a ha)
  · exact h.members a ha

end Json.WellKeyed

end Intake
