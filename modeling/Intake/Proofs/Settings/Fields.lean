import Intake.Proofs.Sequence
import Intake.Proofs.Values.Tags
import Intake.Settings.Basic

set_option autoImplicit false

/-!
# Settings and the texts that are given for them

Fields and files give at most one text for the locale and one for the name. Settings come of them
exactly if both texts can be stored, the locale is accepted and the name is not empty (`Made`).
-/

namespace Intake.Settings

theorem eq_of_texts {c e : Settings} (tag : c.defaultLocale.tag = e.defaultLocale.tag)
    (name : c.anonymousName = e.anonymousName) : c = e := by
  obtain ⟨⟨_, _⟩, _, _⟩ := c
  obtain ⟨⟨_, _⟩, _, _⟩ := e
  cases tag
  cases name
  rfl

/-- Settings of the texts that are given for the locale and for the name. What is not given is as in
the standard settings. -/
structure Made (given called : Option Text) (c : Settings) : Prop where
  tag : c.defaultLocale.tag = given.getD standard.defaultLocale.tag
  name : c.anonymousName = called.getD standard.anonymousName
  accepted : ∀ s : Text, given = some s → s.isStorable = true ∧ Locale.isAccepted s = true
  named : ∀ s : Text, called = some s → s.isStorable = true ∧ s ≠ ""

theorem made_standard : Made none none standard := ⟨rfl, rfl, nofun, nofun⟩

theorem Made.valid {given called : Option Text} {c : Settings} (h : Made given called c) :
    c.anonymousName ≠ "" ∧ Locale.isAccepted c.defaultLocale.tag = true := by
  constructor
  · rw [h.name]
    cases called with
    | none => exact standard.named
    | some s => exact (h.named s rfl).2
  · rw [h.tag]
    cases given with
    | none => exact standard.defaultLocale.accepted
    | some s => exact (h.accepted s rfl).2

theorem locale_eq_ok_iff {s : Text} {l : Locale} :
    locale s = .ok l ↔ (s.isStorable = true ∧ Locale.isAccepted s = true) ∧ l.tag = s := by
  unfold locale
  by_cases storable : s.isStorable = true
  · simp [storable, mapError_eq_ok_iff, Locale.parse_eq_ok_iff]
  · simp [storable]

theorem name_eq_ok_iff {s : Text} {n : { n : Text // n ≠ "" }} :
    name s = .ok n ↔ (s.isStorable = true ∧ s ≠ "") ∧ n.1 = s := by
  unfold name
  by_cases storable : s.isStorable = true
  · by_cases named : s ≠ ""
    · simp only [storable, named, Bool.not_true, Bool.false_eq_true, if_false, dif_pos,
        Except.ok.injEq, ne_eq, not_false_eq_true, and_self, true_and]
      constructor
      · rintro rfl
        rfl
      · rintro rfl
        rfl
    · simp [storable, named]
  · simp [storable]

/-- A text is read, if one is given. -/
def ReadAs {α : Type} (read : Text → Except SettingProblem α) (t : Option Text) (x : Option α) :
    Prop :=
  Option.Rel (fun s a => read s = .ok a) t x

theorem made_iff {given called : Option Text} {c : Settings} :
    Made given called c ↔
      ∃ l n, ReadAs locale given l ∧ ReadAs name called n ∧ ofParts l n = c := by
  constructor
  · intro h
    have reads : ∃ l, ReadAs locale given l ∧
        (l.getD standard.defaultLocale).tag = c.defaultLocale.tag := by
      cases given with
      | none => exact ⟨none, .none, h.tag.symm⟩
      | some s =>
        have accepted := h.accepted s rfl
        exact ⟨some ⟨s, accepted.2⟩, .some (locale_eq_ok_iff.2 ⟨accepted, rfl⟩), h.tag.symm⟩
    obtain ⟨l, readLocale, tag⟩ := reads
    cases called with
    | none => exact ⟨l, none, readLocale, .none, eq_of_texts tag h.name.symm⟩
    | some s =>
      have named := h.named s rfl
      exact ⟨l, some ⟨s, named.2⟩, readLocale, .some (name_eq_ok_iff.2 ⟨named, rfl⟩),
        eq_of_texts tag h.name.symm⟩
  · rintro ⟨l, n, readLocale, readName, rfl⟩
    constructor
    · cases readLocale with
      | none => cases n <;> rfl
      | some read => cases n <;> exact (locale_eq_ok_iff.1 read).2
    · cases readName with
      | none => rfl
      | some read => exact (name_eq_ok_iff.1 read).2
    · rintro s rfl
      cases readLocale with
      | some read => exact (locale_eq_ok_iff.1 read).1
    · rintro s rfl
      cases readName with
      | some read => exact (name_eq_ok_iff.1 read).1

/-! ## Fields -/

section Reading

variable {α : Type} {read : Text → Except SettingProblem α} {key : Text} {x : Option α}

theorem eq_text_of_text? {v : Json} {s : Text} (h : v.text? = some s) : v = .text s := by
  cases v with
  | atom b => cases b <;> cases h; rfl
  | array xs => cases h
  | object ns => cases h

theorem member_eq_ok_iff {ms : Members} : member read ms key = .ok x ↔
    ∃ t : Option Text, Members.get? key ms = t.map .text ∧ ReadAs read t x := by
  unfold member
  constructor
  · intro h
    cases found : Members.get? key ms with
    | none =>
      rw [found] at h
      cases h
      exact ⟨none, rfl, .none⟩
    | some v =>
      rw [found] at h
      cases text : v.text? with
      | none => simp [text] at h
      | some s =>
        obtain rfl := eq_text_of_text? text
        cases reads : read s with
        | error e => simp [text, reads] at h
        | ok a =>
          simp only [text, Option.map_some, reads, Except.ok.injEq] at h
          exact ⟨some s, rfl, h ▸ .some reads⟩
  · rintro ⟨t, found, reads⟩
    rw [found]
    cases reads with
    | none => rfl
    | some reads => simp [Json.text, Json.text?, reads]

theorem field_eq_ok_iff {pairs : List (Yaml.Value × Yaml.Value)} :
    field read pairs key = .ok x ↔ ∃ t : Option Text,
      Option.Rel (fun v s => textOf v = .ok s) (fieldOf? pairs key) t ∧ ReadAs read t x := by
  unfold field
  cases fieldOf? pairs key with
  | none =>
    constructor
    · intro h
      cases h
      exact ⟨none, .none, .none⟩
    · rintro ⟨t, found, reads⟩
      cases found
      cases reads
      rfl
  | some v =>
    dsimp only
    cases text : textOf v with
    | error e =>
      refine iff_of_false nofun ?_
      rintro ⟨t, found, _⟩
      cases found with
      | some same =>
        rw [text] at same
        cases same
    | ok s =>
      constructor
      · intro h
        cases reads : read s with
        | error e =>
          simp [Except.bind, reads] at h
        | ok a =>
          simp only [Except.bind, reads, Except.ok.injEq] at h
          exact ⟨some s, .some text, h ▸ .some reads⟩
      · rintro ⟨t, found, reads⟩
        cases found with
        | some same =>
          obtain rfl := Except.ok.inj (text.symm.trans same)
          cases reads with
          | some reads => simp [Except.bind, reads]

end Reading

variable {c : Settings}

/-- Fields make settings exactly if what they give for the two texts does. -/
theorem ofMembers_eq_ok_iff {fields : Members} : ofMembers fields = .ok c ↔
    ∃ given called : Option Text, Members.get? localeKey fields = given.map .text ∧
      Members.get? nameKey fields = called.map .text ∧ Made given called c := by
  have run : ofMembers fields = .ok c ↔ ∃ l n, member locale fields localeKey = .ok l ∧
      member name fields nameKey = .ok n ∧ ofParts l n = c := by
    unfold ofMembers
    cases member locale fields localeKey with
    | error e => simp [bind, Except.bind]
    | ok l => cases member name fields nameKey <;> simp [bind, Except.bind, pure, Except.pure]
  rw [run]
  simp only [member_eq_ok_iff, made_iff]
  constructor
  · rintro ⟨l, n, ⟨given, foundLocale, readLocale⟩, ⟨called, foundName, readName⟩, rfl⟩
    exact ⟨given, called, foundLocale, foundName, l, n, readLocale, readName, rfl⟩
  · rintro ⟨given, called, foundLocale, foundName, l, n, readLocale, readName, rfl⟩
    exact ⟨l, n, ⟨given, foundLocale, readLocale⟩, ⟨called, foundName, readName⟩, rfl⟩

/-- What a document of pairs gives for the locale and for the name. -/
def Gives (d : Yaml.Document) (given called : Option Text) : Prop :=
  ∃ pairs, d.contentsOf? d.root = some (.mapping pairs) ∧
    Option.Rel (fun v s => textOf v = .ok s) (fieldOf? pairs localeKey) given ∧
    Option.Rel (fun v s => textOf v = .ok s) (fieldOf? pairs nameKey) called

section Files

variable [SettingsReader]

/-- Pairs make settings exactly if what they give for the two texts does. -/
theorem ofDocument?_eq_ok_some_iff {d : Yaml.Document} :
    ofDocument? d = .ok (some c) ↔ ∃ given called, Gives d given called ∧ Made given called c := by
  have run : ofDocument? d = .ok (some c) ↔ ∃ pairs l n,
      d.contentsOf? d.root = some (.mapping pairs) ∧ field locale pairs localeKey = .ok l ∧
        field name pairs nameKey = .ok n ∧ ofParts l n = c := by
    unfold ofDocument?
    split
    · next null =>
      rw [null]
      simp [Yaml.Document.contentsOf?]
    · next pairs mapping _ =>
      rw [mapping]
      cases readLocale : field locale pairs localeKey with
      | error e => cases readName : field name pairs nameKey <;> simp [readLocale]
      | ok l => cases readName : field name pairs nameKey <;> simp [readLocale, readName]
    · next other =>
      refine iff_of_false nofun ?_
      rintro ⟨pairs, _, _, mapping, _⟩
      exact other pairs mapping
  rw [run]
  simp only [field_eq_ok_iff, made_iff, Gives]
  constructor
  · rintro ⟨pairs, l, n, mapping, ⟨given, gives, readLocale⟩, ⟨called, calls, readName⟩, rfl⟩
    exact ⟨given, called, ⟨pairs, mapping, gives, calls⟩, l, n, readLocale, readName, rfl⟩
  · rintro ⟨given, called, ⟨pairs, mapping, gives, calls⟩, l, n, readLocale, readName, rfl⟩
    exact ⟨pairs, l, n, mapping, ⟨given, gives, readLocale⟩, ⟨called, calls, readName⟩, rfl⟩

theorem ofDocument?_eq_ok_none_iff {d : Yaml.Document} :
    ofDocument? d = .ok none ↔ d.root = .null := by
  unfold ofDocument?
  split
  · next null => exact iff_of_true rfl null
  · next pairs mapping other =>
    refine iff_of_false ?_ other
    cases field locale pairs localeKey <;> cases field name pairs nameKey <;> exact nofun
  · next other _ => exact iff_of_false nofun other

/-- What the text of a file gives for the locale and for the name. An empty file gives nothing. -/
def Tells (text : Text) (given called : Option Text) : Prop :=
  ∃ d, SettingsReader.read text = .ok d ∧
    ((d.root = .null ∧ given = none ∧ called = none) ∨ Gives d given called)

/-- A file makes settings exactly if what it gives for the two texts does. -/
theorem ofText_eq_ok_iff {text : Text} :
    ofText text = .ok c ↔ ∃ given called, Tells text given called ∧ Made given called c := by
  have run : ofText text = .ok c ↔ ∃ d x, SettingsReader.read text = .ok d ∧
      ofDocument? d = .ok x ∧ x.getD standard = c := by
    unfold ofText ofText?
    cases read : SettingsReader.read text with
    | error e =>
      refine iff_of_false nofun ?_
      rintro ⟨d, x, h, _⟩
      cases h
    | ok d =>
      constructor
      · intro h
        obtain ⟨x, made, same⟩ := exists_of_map_ok h
        exact ⟨d, x, rfl, made, same⟩
      · rintro ⟨d, x, h, made, rfl⟩
        cases h
        exact congrArg (Except.map fun x => x.getD standard) made
  rw [run]
  constructor
  · rintro ⟨d, x, read, made, rfl⟩
    cases x with
    | none =>
      have null := ofDocument?_eq_ok_none_iff.1 made
      exact ⟨none, none, ⟨d, read, .inl ⟨null, rfl, rfl⟩⟩, made_standard⟩
    | some c =>
      obtain ⟨given, called, gives, made⟩ := ofDocument?_eq_ok_some_iff.1 made
      exact ⟨given, called, ⟨d, read, .inr gives⟩, made⟩
  · rintro ⟨given, called, ⟨d, read, ⟨null, rfl, rfl⟩ | gives⟩, made⟩
    · refine ⟨d, none, read, ofDocument?_eq_ok_none_iff.2 null, ?_⟩
      exact eq_of_texts made.tag.symm made.name.symm
    · exact ⟨d, some c, read, ofDocument?_eq_ok_some_iff.2 ⟨given, called, gives, made⟩, rfl⟩

end Files

end Intake.Settings
