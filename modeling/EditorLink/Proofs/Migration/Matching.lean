import EditorLink.Migration.Pattern

/-!
# What patterns match

Each part of a pattern takes a piece from the front of a text, and here the piece is described: a
literal, blanks, a run of a class. Because a run is as long as it goes, a part that follows it has
to begin outside the class; then the text splits in one way only. A pattern occurs in a text just
when the text splits into what stands before a place and what the pattern matches from there on.
-/

namespace EditorLink.Migration

/-- Blanks only, perhaps none. -/
def Blanks (ws : List Char) : Prop := ∀ c ∈ ws, Text.isBlank c

/-- A text that does not begin with a character of a class. -/
def Leaves (p : Char → Bool) (rest : List Char) : Prop := ∀ c ∈ rest.head?, p c = false

/-- A text that does not end with a word character, as it stands before the start of a word. -/
def WordStart (before : List Char) : Prop := ∀ c ∈ before.getLast?, Text.isWord c = false

/-- A literal that begins with a character other than a blank. -/
def Solid (s : String) : Prop := s.toList.head?.any (!Text.isBlank ·)

instance (s : String) : Decidable (Solid s) := inferInstanceAs (Decidable (_ = true))

variable {p : Char → Bool} {s : String} {taken rest after before ws : List Char}

/-! ## Runs -/

theorem takeWhile_append_of_leaves (htaken : ∀ c ∈ taken, p c) (hafter : Leaves p after) :
    (taken ++ after).takeWhile p = taken := by
  rw [List.takeWhile_append_of_pos htaken]
  cases after with
  | nil => simp
  | cons c after => simp [hafter c rfl]

theorem dropWhile_append_of_leaves (htaken : ∀ c ∈ taken, p c) (hafter : Leaves p after) :
    (taken ++ after).dropWhile p = after := by
  rw [List.dropWhile_append_of_pos htaken]
  cases after with
  | nil => rfl
  | cons c after => simp [hafter c rfl]

theorem mem_takeWhile {c : Char} (h : c ∈ rest.takeWhile p) : p c :=
  List.all_eq_true.mp List.all_takeWhile c h

theorem leaves_cons {c : Char} (hc : p c = false) (rest : List Char) : Leaves p (c :: rest) := by
  rintro d ⟨⟩
  exact hc

theorem not_leaves_append {front : List Char} (h : ¬ Leaves p front) (back : List Char) :
    ¬ Leaves p (front ++ back) := by
  cases front with
  | nil =>
    refine absurd ?_ h
    rintro c ⟨⟩
  | cons c front => exact h

theorem leaves_dropWhile (p : Char → Bool) (rest : List Char) : Leaves p (rest.dropWhile p) := by
  intro c hc
  have hhead := List.head?_dropWhile_not p rest
  rwa [Option.mem_def.mp hc] at hhead

theorem run?_eq_some_iff : run? p rest = some (taken, after) ↔
    rest = taken ++ after ∧ taken ≠ [] ∧ (∀ c ∈ taken, p c) ∧ Leaves p after := by
  unfold run?
  constructor
  · intro h
    dsimp only at h
    split at h
    · cases h
    · next hne =>
      cases h
      refine ⟨List.takeWhile_append_dropWhile.symm, by simpa using hne, ?_, leaves_dropWhile p rest⟩
      exact fun c hc => mem_takeWhile hc
  · rintro ⟨rfl, hne, htaken, hafter⟩
    simp [takeWhile_append_of_leaves htaken hafter, dropWhile_append_of_leaves htaken hafter, hne]

theorem word?_eq_some_iff : word? rest = some (taken, after) ↔
    rest = taken ++ after ∧ taken ≠ [] ∧ (∀ c ∈ taken, Text.isWord c) ∧
      Leaves Text.isWord after :=
  run?_eq_some_iff

/-! ## Blanks -/

theorem skipBlanks_append (h : Blanks ws) (rest : List Char) :
    skipBlanks (ws ++ rest) = skipBlanks rest :=
  List.dropWhile_append_of_pos h

theorem skipBlanks_of_leaves (h : Leaves Text.isBlank rest) : skipBlanks rest = rest :=
  dropWhile_append_of_leaves (p := Text.isBlank) (List.forall_mem_nil _) h

theorem skipBlanks_append_of_ne_nil (h : skipBlanks rest ≠ []) (after : List Char) :
    skipBlanks (rest ++ after) = skipBlanks rest ++ after := by
  unfold skipBlanks at h ⊢
  rw [List.dropWhile_append, if_neg (by simpa using h)]

theorem exists_blanks (rest : List Char) : ∃ ws, Blanks ws ∧ rest = ws ++ skipBlanks rest :=
  ⟨rest.takeWhile Text.isBlank, fun _ hc => mem_takeWhile hc,
    List.takeWhile_append_dropWhile.symm⟩

theorem leaves_skipBlanks (rest : List Char) : Leaves Text.isBlank (skipBlanks rest) :=
  leaves_dropWhile Text.isBlank rest

/-- Blanks that something else follows are skipped and no more. -/
theorem skipBlanks_eq_iff (h : Leaves Text.isBlank after) :
    skipBlanks rest = after ↔ ∃ ws, Blanks ws ∧ rest = ws ++ after := by
  constructor
  · rintro rfl
    exact exists_blanks rest
  · rintro ⟨ws, hws, rfl⟩
    rw [skipBlanks_append hws, skipBlanks_of_leaves h]

theorem someBlanks?_eq_some_iff : someBlanks? rest = some after ↔
    ∃ ws, ws ≠ [] ∧ Blanks ws ∧ rest = ws ++ after ∧ Leaves Text.isBlank after := by
  cases rest with
  | nil =>
    constructor
    · intro h
      cases h
    · rintro ⟨ws, hne, -, h, -⟩
      exact absurd (List.append_eq_nil_iff.mp h.symm).1 hne
  | cons c rest =>
    unfold someBlanks?
    constructor
    · intro h
      dsimp only at h
      split at h
      · next hblank =>
        cases h
        obtain ⟨ws, hws, hrest⟩ := exists_blanks rest
        refine ⟨c :: ws, by simp, ?_, congrArg (c :: ·) hrest, leaves_skipBlanks rest⟩
        exact List.forall_mem_cons.mpr ⟨hblank, hws⟩
      · cases h
    · rintro ⟨ws, hne, hws, hrest, hafter⟩
      cases ws with
      | nil => exact absurd rfl hne
      | cons d ws =>
        obtain ⟨rfl, rfl⟩ := List.cons_eq_cons.mp hrest
        obtain ⟨hblank, hws⟩ := List.forall_mem_cons.mp hws
        simp [hblank, skipBlanks_append hws, skipBlanks_of_leaves hafter]

theorem Solid.leaves (h : Solid s) (after : List Char) :
    Leaves Text.isBlank (s.toList ++ after) := by
  intro c hc
  unfold Solid at h
  cases hs : s.toList with
  | nil =>
    rw [hs] at h
    cases h
  | cons d ds =>
    rw [hs] at h hc
    cases hc
    simpa using h

/-- A literal after blanks. -/
theorem literal?_skipBlanks_eq_some_iff (h : Solid s) :
    literal? s (skipBlanks rest) = some after ↔
      ∃ ws, Blanks ws ∧ rest = ws ++ (s.toList ++ after) :=
  literal?_eq_some_iff.trans (skipBlanks_eq_iff (h.leaves after))

theorem openParen?_eq_some_iff : openParen? rest = some after ↔
    ∃ ws, Blanks ws ∧ rest = ws ++ '(' :: after :=
  literal?_skipBlanks_eq_some_iff (by decide)

/-- Everything up to the next closing parenthesis. -/
theorem throughParen?_eq_some_iff : throughParen? rest = some after ↔
    ∃ inner, ')' ∉ inner ∧ rest = inner ++ ')' :: after := by
  unfold throughParen?
  rw [literal?_eq_some_iff]
  constructor
  · intro h
    refine ⟨rest.takeWhile (· != ')'), fun hmem => ?_, ?_⟩
    · simpa using mem_takeWhile hmem
    · exact List.takeWhile_append_dropWhile.symm.trans (congrArg _ h)
  · rintro ⟨inner, hinner, rfl⟩
    apply dropWhile_append_of_leaves
    · intro c hc
      simpa using fun heq : c = ')' => hinner (heq ▸ hc)
    · rintro c ⟨⟩
      rfl

/-! ## Words -/

theorem atWordStart_reverse (before : List Char) :
    atWordStart before.reverse = true ↔ WordStart before := by
  unfold WordStart
  rw [← List.head?_reverse]
  cases before.reverse with
  | nil => simp [atWordStart]
  | cons c cs => simp [atWordStart]

theorem atWordEnd_iff (rest : List Char) : atWordEnd rest = true ↔ Leaves Text.isWord rest := by
  cases rest with
  | nil => simp [atWordEnd, atWordStart, Leaves]
  | cons c cs => simp [atWordEnd, atWordStart, Leaves]

/-! ## Places of a text -/

namespace Pattern

variable {α : Type} {pattern : Pattern α} {text : List Char}

theorem occursFrom_iff : pattern.occursFrom before text ↔
    ∃ front piece, text = front ++ piece ∧ piece ≠ [] ∧
      (pattern (front.reverse ++ before) piece).isSome := by
  induction text generalizing before with
  | nil =>
    constructor
    · intro h
      cases h
    · rintro ⟨front, piece, htext, hne, -⟩
      exact absurd (List.append_eq_nil_iff.mp htext.symm).2 hne
  | cons c rest ih =>
    rw [occursFrom, Bool.or_eq_true, ih]
    constructor
    · rintro (hhere | ⟨front, piece, rfl, hne, hlater⟩)
      · exact ⟨[], c :: rest, rfl, by simp, hhere⟩
      · exact ⟨c :: front, piece, rfl, hne, by simpa using hlater⟩
    · rintro ⟨front, piece, htext, hne, hmatch⟩
      cases front with
      | nil =>
        obtain rfl : c :: rest = piece := htext
        exact .inl hmatch
      | cons d front =>
        obtain ⟨rfl, rfl⟩ := List.cons_eq_cons.mp htext
        exact .inr ⟨front, piece, rfl, hne, by simpa using hmatch⟩

/-- A pattern that needs at least one character occurs in a text just when it matches at some
place. -/
theorem occurs_iff_isSome (hempty : ∀ before, pattern before [] = none) : pattern.occurs text ↔
    ∃ front piece, text = front ++ piece ∧ (pattern front.reverse piece).isSome := by
  unfold occurs
  rw [occursFrom_iff]
  constructor
  · rintro ⟨front, piece, htext, -, hmatch⟩
    exact ⟨front, piece, htext, by simpa using hmatch⟩
  · rintro ⟨front, piece, htext, hmatch⟩
    refine ⟨front, piece, htext, ?_, by simpa using hmatch⟩
    rintro rfl
    rw [hempty] at hmatch
    cases hmatch

theorem eq_none_of_occurs (hempty : ∀ before, pattern before [] = none)
    (h : pattern.occurs text = false) {front piece : List Char} (htext : text = front ++ piece) :
    pattern front.reverse piece = none := by
  cases hmatch : pattern front.reverse piece with
  | none => rfl
  | some found =>
    have hoccurs := (occurs_iff_isSome hempty).mpr ⟨front, piece, htext, by simp [hmatch]⟩
    simp [h] at hoccurs

theorem occurs_iff (hempty : ∀ before, pattern before [] = none) : pattern.occurs text ↔
    ∃ front captured piece after, text = front ++ piece ∧
      pattern front.reverse piece = some (captured, after) := by
  rw [occurs_iff_isSome hempty]
  constructor
  · rintro ⟨front, piece, htext, hmatch⟩
    obtain ⟨⟨captured, after⟩, hmatch⟩ := Option.isSome_iff_exists.mp hmatch
    exact ⟨front, captured, piece, after, htext, hmatch⟩
  · rintro ⟨front, captured, piece, after, htext, hmatch⟩
    exact ⟨front, piece, htext, hmatch ▸ rfl⟩

end Pattern

end EditorLink.Migration
