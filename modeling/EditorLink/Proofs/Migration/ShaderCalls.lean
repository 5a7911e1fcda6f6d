import EditorLink.Proofs.Migration.Forms

/-!
# Arithmetic on shader parameters in a text put together

The argument of a call of `get_shader_parameter` may be any text, so what follows a part can decide
whether a call in the part is reported: the call reaches to the next closing parenthesis, wherever
that stands, and counts when a sign comes after it. This module says how a text may be exchanged
behind such a call.
-/

namespace EditorLink.Migration

variable {front back text ws : List Char}

/-! ## Signs behind parentheses -/

/-- A sign after blanks. -/
def Signed (text : List Char) : Prop := (skipBlanks text).head?.any isArithmetic

/-- A sign after the next closing parenthesis. -/
def Closed (text : List Char) : Prop := ∃ back ∈ throughParen? text, Signed back

instance (text : List Char) : Decidable (Signed text) :=
  inferInstanceAs (Decidable (_ = true))

instance (text : List Char) : Decidable (Closed text) :=
  inferInstanceAs (Decidable (∃ back ∈ throughParen? text, Signed back))

theorem signed_append_of_blanks (h : Blanks ws) : Signed (ws ++ text) ↔ Signed text := by
  rw [Signed, skipBlanks_append h, Signed]

theorem signed_cons {c : Char} (h : Text.isBlank c = false) :
    Signed (c :: text) ↔ isArithmetic c := by
  simp [Signed, skipBlanks_of_leaves (leaves_cons h text)]

/-- No word begins with a sign. -/
theorem not_signed_of_isWord {c : Char} (hc : Text.isWord c) : ¬ Signed (c :: text) := by
  have hblank : Text.isBlank c = false := by
    by_contra hblank
    simp [Text.isWord_of_isBlank (eq_true_of_ne_false hblank)] at hc
  rw [signed_cons hblank, isArithmetic_iff]
  intro hsign
  have hall : ∀ sign ∈ ['+', '-', '*', '/'], Text.isWord sign = false := by decide
  simp [hall c hsign] at hc

/-- What stands before the sign is not blank, so what follows does not matter. -/
theorem signed_append (h : skipBlanks text ≠ []) (back : List Char) :
    Signed (text ++ back) ↔ Signed text := by
  rw [Signed, skipBlanks_append_of_ne_nil h, List.head?_append_of_ne_nil _ h, Signed]

theorem closed_append (h : ')' ∉ front) : Closed (front ++ text) ↔ Closed text := by
  simp only [Closed, Option.mem_def, throughParen?_eq_some_iff]
  constructor
  · rintro ⟨after, ⟨inner, hinner, heq⟩, hsigned⟩
    rcases List.append_eq_append_iff.mp heq with ⟨gap, rfl, rfl⟩ | ⟨gap, rfl, hgap⟩
    · exact ⟨after, ⟨gap, fun hmem => hinner (List.mem_append_right _ hmem), rfl⟩, hsigned⟩
    · cases gap with
      | nil => exact ⟨after, ⟨[], List.not_mem_nil, hgap.symm⟩, hsigned⟩
      | cons c gap =>
        obtain ⟨rfl, -⟩ := List.cons_eq_cons.mp hgap
        simp at h
  · rintro ⟨after, ⟨inner, hinner, rfl⟩, hsigned⟩
    exact ⟨after, ⟨front ++ inner, by simp [h, hinner], by simp⟩, hsigned⟩

theorem closed_cons_paren : Closed (')' :: text) ↔ Signed text := by
  constructor
  · rintro ⟨after, hafter, hsigned⟩
    cases hafter
    exact hsigned
  · exact fun h => ⟨text, rfl, h⟩

/-- What stands before two texts does not tell them apart. -/
theorem closed_append_of_closed {other : List Char} (hsigned : ¬ Signed text)
    (hclosed : Closed text → Closed other) (h : Closed (front ++ text)) :
    Closed (front ++ other) := by
  by_cases hparen : ')' ∈ front
  · obtain ⟨inner, after, rfl, hinner⟩ := List.eq_append_cons_of_mem hparen
    rw [List.append_assoc, closed_append hinner, List.cons_append, closed_cons_paren] at h ⊢
    by_cases hblank : skipBlanks after = []
    · obtain ⟨ws, hws, hafter⟩ := exists_blanks after
      rw [hafter, hblank, List.append_nil, signed_append_of_blanks hws] at h
      exact absurd h hsigned
    · rw [signed_append hblank] at h ⊢
      exact h
  · rw [closed_append hparen] at h ⊢
    exact hclosed h

/-! ## Calls -/

/-- The opening of a call that the rule for shaders looks for. -/
def shaderCall : String := "get_shader_parameter("

theorem shader_occursIn_iff : Rule.shaderParameter.form.OccursIn text ↔
    ∃ before after, text = before ++ shaderCall.toList ++ after ∧ after.head? ≠ some ')' ∧
      Closed after := by
  constructor
  · rintro ⟨before, piece, after, -, ⟨argument, ws, sign, hne, hparen, hws, hsign, rfl⟩, rfl⟩
    refine ⟨before, argument ++ ')' :: (ws ++ sign :: after), by simp [shaderCall], ?_, ?_⟩
    · obtain ⟨c, argument, rfl⟩ := List.exists_cons_of_ne_nil hne
      rintro ⟨⟩
      simp at hparen
    · have hblank : Text.isBlank sign = false := by
        have hall : ∀ c ∈ ['+', '-', '*', '/'], Text.isBlank c = false := by decide
        exact hall sign hsign
      rw [closed_append hparen, closed_cons_paren, signed_append_of_blanks hws, signed_cons hblank]
      exact (isArithmetic_iff sign).mpr hsign
  · rintro ⟨before, after, rfl, hhead, others, hothers, hsigned⟩
    obtain ⟨argument, hparen, rfl⟩ := throughParen?_eq_some_iff.mp hothers
    obtain ⟨ws, hws, hblanks⟩ := exists_blanks others
    cases hskip : skipBlanks others with
    | nil => simp [Signed, hskip] at hsigned
    | cons sign back =>
      have hsign : isArithmetic sign := by simpa [Signed, hskip] using hsigned
      rw [hskip] at hblanks
      have hne : argument ≠ [] := by
        rintro rfl
        exact hhead rfl
      refine ⟨before, _, back, nofun, ⟨argument, ws, sign, hne, hparen, hws,
        (isArithmetic_iff sign).mp hsign, rfl⟩, ?_⟩
      rw [hblanks]
      simp [shaderCall]

/-- A call opens across a cut. -/
def Across (front back : List Char) : Prop :=
  ∃ init rest, init ≠ [] ∧ rest ≠ [] ∧ shaderCall.toList = init ++ rest ∧ init <:+ front ∧
    rest <+: back

theorem not_across_of_head {c : Char} (h : c ∉ shaderCall.toList) (hhead : back.head? = some c) :
    ¬ Across front back := by
  rintro ⟨init, rest, -, hne, hcall, -, after, rfl⟩
  obtain ⟨d, rest, rfl⟩ := List.exists_cons_of_ne_nil hne
  obtain rfl : d = c := by simpa using hhead
  exact h (by simp [hcall])

/-- Where a word starts, no call opens across the cut. -/
theorem not_across_of_wordStart (h : WordStart front) : ¬ Across front text := by
  rintro ⟨init, rest, hinit, hrest, hcall, ⟨before, rfl⟩, -⟩
  have hword : ∀ d ∈ "get_shader_parameter".toList, Text.isWord d := by decide
  have hdrop := congrArg List.dropLast hcall
  rw [List.dropLast_append_of_ne_nil hrest] at hdrop
  obtain ⟨start, last, rfl⟩ := List.eq_nil_or_concat init |>.resolve_left hinit
  have hlast := h last (by simp)
  rw [hword last] at hlast
  · cases hlast
  · have hmem : last ∈ shaderCall.toList.dropLast := by simp [hdrop]
    simpa [shaderCall] using hmem

/-- A call that opens in a text of two parts opens in one of them or across the cut. -/
theorem shader_cut (h : Rule.shaderParameter.form.OccursIn (front ++ back)) :
    (∃ before inner, front = before ++ shaderCall.toList ++ inner ∧
        (inner ++ back).head? ≠ some ')' ∧ Closed (inner ++ back)) ∨
      Across front back ∨ Rule.shaderParameter.form.OccursIn back := by
  obtain ⟨before, after, heq, hhead, hclosed⟩ := shader_occursIn_iff.mp h
  rw [List.append_assoc] at heq
  rcases List.append_eq_append_iff.mp heq with ⟨gap, rfl, hback⟩ | ⟨gap, rfl, hback⟩
  · exact .inr (.inr (shader_occursIn_iff.mpr ⟨gap, after, by simpa using hback, hhead, hclosed⟩))
  · rcases List.append_eq_append_iff.mp hback with ⟨inner, rfl, rfl⟩ | ⟨rest, hcall, rfl⟩
    · exact .inl ⟨before, inner, by simp, hhead, hclosed⟩
    · rcases eq_or_ne gap [] with rfl | hgap
      · refine .inr (.inr (shader_occursIn_iff.mpr ⟨[], after, ?_, hhead, hclosed⟩))
        simpa using hcall ▸ rfl
      · rcases eq_or_ne rest [] with rfl | hrest
        · exact .inl ⟨before, [], by simp [hcall], hhead, hclosed⟩
        · exact .inr (.inl ⟨gap, rest, hgap, hrest, hcall, List.suffix_append _ _,
            List.prefix_append _ _⟩)

/-- A part without an opening parenthesis holds no call. -/
theorem shader_of_append (hparen : '(' ∉ front) (hacross : ¬ Across front back)
    (h : Rule.shaderParameter.form.OccursIn (front ++ back)) :
    Rule.shaderParameter.form.OccursIn back := by
  rcases shader_cut h with ⟨before, inner, rfl, -⟩ | hcut | hback
  · simp [shaderCall] at hparen
  · exact absurd hcut hacross
  · exact hback

/-- The end of a text may be exchanged when no call opens across the cut and the new end closes the
calls that the old one closed. -/
theorem shader_exchange {other : List Char} (hacross : ¬ Across front text)
    (hhead : other.head? ≠ some ')') (hsigned : ¬ Signed text)
    (hclosed : Closed text → Closed other)
    (hinside : Rule.shaderParameter.form.OccursIn text →
      Rule.shaderParameter.form.OccursIn other)
    (h : Rule.shaderParameter.form.OccursIn (front ++ text)) :
    Rule.shaderParameter.form.OccursIn (front ++ other) := by
  rcases shader_cut h with ⟨before, inner, rfl, hinner, hcloses⟩ | hcut | hback
  · refine shader_occursIn_iff.mpr ⟨before, inner ++ other, by simp, ?_,
      closed_append_of_closed hsigned hclosed hcloses⟩
    cases inner with
    | nil => exact hhead
    | cons c inner => exact hinner
  · exact absurd hcut hacross
  · exact (hinside hback).append_left _ nofun

end EditorLink.Migration
