import Intake.Fault

set_option autoImplicit false

/-!
How a text is shown to a reader, which is left to a library. Brackets may open and close styles in
it, and what makes no sense as such cannot be shown.
-/

namespace Intake

/-- Whether a tag starts so, behind its bracket. -/
def Markup.startsTag (c : CodePoint) : Bool :=
  c = '#' || c = '/' || c = '@' || c.char?.any fun d => 'a' ≤ d && d ≤ 'z'

/-- Behind every opening bracket stands something that starts no tag. -/
inductive Untagged : Text → Prop
  | nil : Untagged []
  | cons {c : CodePoint} {s : Text} (h : c ≠ '[') : Untagged s → Untagged (c :: s)
  | bracket {c : CodePoint} {s : Text} (h : Markup.startsTag c = false) :
    Untagged (c :: s) → Untagged (.char '[' :: c :: s)

namespace Untagged

theorem append {s t : Text} (hs : Untagged s) (ht : Untagged t) : Untagged (s ++ t) := by
  induction hs with
  | nil => exact ht
  | cons h _ ih => exact .cons h ih
  | bracket h _ ih => exact .bracket h ih

theorem of_notMem {s : Text} (h : .char '[' ∉ s) : Untagged s := by
  induction s with
  | nil => exact .nil
  | cons c s ih =>
    have here : c ≠ .char '[' := fun same => h (same ▸ List.mem_cons_self)
    exact .cons here (ih fun later => h (List.mem_cons_of_mem _ later))

end Untagged

/-- What fails here is no fault of the store. -/
def Foreign {α : Type} (x : Except Fault α) : Prop := ∀ e, x = .error e → e.isReported = false

namespace Foreign

variable {α β : Type} {x : Except Fault α}

theorem ok (a : α) : Foreign (.ok a) := nofun

theorem error {e : Fault} (h : e.isReported = false) : Foreign (.error e : Except Fault α) := by
  intro f same
  cases same
  exact h

theorem bind {f : α → Except Fault β} (hx : Foreign x) (hf : ∀ a, Foreign (f a)) :
    Foreign (x >>= f) := by
  cases x with
  | ok a => exact hf a
  | error e => exact error (hx e rfl)

theorem map (f : α → β) (hx : Foreign x) : Foreign (x.map f) := by
  cases x with
  | ok a => exact ok (f a)
  | error e => exact error (hx e rfl)

theorem mapM {f : α → Except Fault β} (h : ∀ a, Foreign (f a)) (xs : List α) :
    Foreign (xs.mapM f) := by
  induction xs with
  | nil => exact ok []
  | cons a rest ih =>
    rw [List.mapM_cons]
    exact (h a).bind fun b => ih.bind fun bs => ok (b :: bs)

theorem forM {f : α → Except Fault PUnit} (h : ∀ a, Foreign (f a)) (xs : List α) :
    Foreign (xs.forM f) := by
  induction xs with
  | nil => exact ok ()
  | cons a rest ih => exact (h a).bind fun _ => ih

end Foreign

class Display where
  /-- A message behind a sign of its kind. -/
  message : Text → Except Fault Unit
  note : Text → Except Fault Unit
  panel : (title content : Text) → Except Fault Unit
  /-- A table with a numbered row for each name. -/
  table : (title : Text) → (names : List Text) → Except Fault Unit
  message_untagged {s : Text} : Untagged s → message s = .ok ()
  note_untagged {s : Text} : Untagged s → note s = .ok ()
  foreign_message (s : Text) : Foreign (message s)
  foreign_note (s : Text) : Foreign (note s)
  foreign_panel (title content : Text) : Foreign (panel title content)
  foreign_table (title : Text) (names : List Text) : Foreign (table title names)

end Intake
