import Intake.CommandLine.LookUp
import Intake.CommandLine.Screen

set_option autoImplicit false

/-!
# Files and texts on a screen

A file that is looked up by its name is one of the directory's, or the null device. A text in which
no bracket opens a tag comes out as it stands, and one that cannot be shown is at fault for a tag or
the spelling of a color.
-/

namespace Intake

/-! ## Files -/

namespace Directory

theorem ne_file_of_absent {part name text : Text} : absent part ≠ .file name text := by
  unfold absent
  split <;> exact fun h => nomatch h

theorem eq_nil_of_fromRoot {parts : List Text} {name text : Text}
    (h : fromRoot parts = .file name text) : text = [] := by
  induction parts with
  | nil => cases h
  | cons part rest ih =>
    unfold fromRoot at h
    split at h
    · exact ih h
    · split at h
      · exact absurd h ne_file_of_absent
      · split at h
        · cases h
        · split at h
          · split at h
            · cases h
              rfl
            · cases h
          · exact absurd h ne_file_of_absent

theorem ne_file_of_fromAbove {parts : List Text} {name text : Text} :
    fromAbove parts ≠ .file name text := by
  induction parts with
  | nil => exact fun h => nomatch h
  | cons part rest ih =>
    rw [fromAbove]
    split
    · exact ih
    · exact ne_file_of_absent

/-- A file with something in it is found under the name that was asked for. -/
theorem lookup_of_lookUp {undecodable : List (Text × Text)} {dir : Directory} {f : FileName}
    {name text : Text} (h : dir.lookUp undecodable f = .file name text) (filled : text ≠ []) :
    dir.files.lookup name = some text := by
  unfold lookUp at h
  split at h
  · cases h
  split at h
  · cases h
  · next found =>
    cases h
    exact found
  split at h
  · cases h
  split at h
  · exact absurd (eq_nil_of_fromRoot h) filled
  split at h
  · cases h
  split at h
  · exact absurd h ne_file_of_fromAbove
  split at h
  · cases h
  · exact absurd h ne_file_of_absent

end Directory

/-! ## Plain texts -/

namespace Markup

theorem plain_piecesFrom {s : Text} (h : Untagged s) (fuel slashes : Nat) (read : Text) :
    ∀ piece ∈ piecesFrom fuel read slashes s, ∃ t, piece = .plain t := by
  -- By induction on the fuel: where no tag is opened, every step reads a single character.
  induction fuel generalizing s slashes read with
  | zero => exact fun _ mem => nomatch mem
  | succ fuel ih =>
    cases h with
    | nil =>
      intro piece mem
      exact ⟨_, List.mem_singleton.1 mem⟩
    | @cons c s hc hs =>
      rw [piecesFrom]
      by_cases slash : c = .char '\\'
      · rw [if_pos slash]
        exact ih hs _ _
      · rw [if_neg slash, if_neg hc]
        exact ih hs _ _
    | @bracket c s hc hs =>
      have closed : tagContent? (c :: s) = none := by
        simp only [tagContent?]
        split <;> simp [hc]
      rw [piecesFrom, if_neg (by decide), if_pos rfl, closed]
      exact ih hs _ _

theorem spansFrom_plain {ps : List Piece} (h : ∀ piece ∈ ps, ∃ t, piece = .plain t)
    (place : Nat) : spansFrom place [] ps = .ok [] := by
  induction ps generalizing place with
  | nil => rfl
  | cons p rest ih =>
    obtain ⟨t, rfl⟩ := h p List.mem_cons_self
    rw [spansFrom]
    exact ih (fun piece mem => h piece (List.mem_cons_of_mem _ mem)) _

theorem render_untagged {s : Text} (h : Untagged s) : ∃ t, render s = .ok ⟨t, []⟩ := by
  have spans := spansFrom_plain (plain_piecesFrom h (s.length + 1) 0 []) 0
  refine ⟨(pieces s).flatMap Piece.text, ?_⟩
  rw [render, pieces, spans]
  rfl

end Markup

theorem Screen.message_untagged {s : Text} (h : Untagged s) : message s = .ok () := by
  have sign : Untagged ("✓ " : String) := .of_notMem (by decide)
  obtain ⟨t, rendered⟩ := Markup.render_untagged (sign.append h)
  rw [message, rendered]
  rfl

/-! ## Styles and markup -/

theorem Color.foreign_isColor (s : Text) : Foreign (isColor s) := by
  unfold isColor
  split
  · exact .ok true
  · unfold isMixed
    split
    · exact .ok false
    · split
      · exact .ok false
      · split
        · split
          · exact .error rfl
          · exact .ok _
        · exact .ok false

namespace Style

theorem foreign_withWord? (s : Style) (word : Text) : Foreign (s.withWord? word) := by
  unfold withWord?
  split
  · exact .ok _
  · exact (Color.foreign_isColor word).map _

theorem foreign_withPair? (s : Style) (word next : Text) : Foreign (s.withPair? word next) := by
  unfold withPair?
  split
  · exact (Color.foreign_isColor _).map _
  · split <;> exact .ok _

theorem foreign_withWords? (s : Style) : (words : List Text) → Foreign (s.withWords? words)
  | [] => .ok _
  | [word] => by
    unfold withWords?
    split
    · exact .ok none
    · exact s.foreign_withWord? _
  | word :: next :: rest => by
    unfold withWords?
    split
    · refine (s.foreign_withPair? _ next).bind fun t => ?_
      cases t with
      | none => exact .ok none
      | some t => exact t.foreign_withWords? rest
    · refine (s.foreign_withWord? _).bind fun t => ?_
      cases t with
      | none => exact .ok none
      | some t => exact t.foreign_withWords? (next :: rest)

theorem foreign_read? (s : Text) : Foreign (read? s) := plain.foreign_withWords? _

theorem foreign_canonical (name : Text) : Foreign (canonical name) := by
  unfold canonical
  split
  · exact .ok _
  · refine (foreign_read? name).bind fun s => ?_
    cases s <;> exact .ok _

end Style

theorem Styled.foreign_check (s : Styled) : Foreign s.check :=
  .forM (fun _ => (Style.foreign_read? _).map _) s.spans

namespace Markup

theorem foreign_spansFrom (place : Nat) (opened : List Opened) (pieces : List Piece) :
    Foreign (spansFrom place opened pieces) := by
  induction pieces generalizing place opened with
  | nil => exact .ok _
  | cons piece rest ih =>
    cases piece with
    | plain s => exact ih (place + s.length) opened
    | tag t =>
      rw [spansFrom]
      split
      · extract_lets close
        have closed : ∀ wanted, Foreign (close wanted) := by
          intro wanted
          simp only [close]
          split
          · exact .error rfl
          · split
            · exact .error rfl
            · refine (ih place _).bind fun spans => ?_
              split <;> exact .ok _
        split
        · exact closed []
        · exact (Style.foreign_canonical _).bind closed
      · exact (Style.foreign_canonical _).bind fun name => ih place _

theorem foreign_render (s : Text) : Foreign (render s) :=
  (foreign_spansFrom 0 [] (pieces s)).bind fun _ => .ok _

end Markup

/-! ## Screens -/

namespace Screen

theorem foreign_lines (width : Nat) (s : Styled) : Foreign (lines width s) := by
  unfold lines
  split
  · exact .ok ()
  · exact .forM Styled.foreign_check _

theorem foreign_message (s : Text) : Foreign (message s) :=
  (Markup.foreign_render _).bind fun t => foreign_lines width t

theorem foreign_panel (title content : Text) : Foreign (panel title content) :=
  (Markup.foreign_render title).bind fun _ => (Markup.foreign_render content).bind fun c =>
    (foreign_lines panelWidth c).bind fun _ => Styled.foreign_check _

theorem foreign_table (title : Text) (names : List Text) : Foreign (table title names) := by
  refine (Foreign.mapM Markup.foreign_render names).bind fun rows => ?_
  refine (Markup.foreign_render title).bind fun t => (foreign_lines width t).bind fun _ => ?_
  split
  · exact .ok ()
  · exact .forM (fun s => .forM Styled.foreign_check _) _

end Screen

end Intake
