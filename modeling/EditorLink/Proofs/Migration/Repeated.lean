import EditorLink.Proofs.Migration.Leftovers
import EditorLink.Proofs.Migration.Regressions

/-!
# Fixes given again

A fix is given again for its own result just when the strategy still applies to that result. For
`set_looped` and `get_color_at_offset` it always does: the result holds the description of the
change, and the description quotes a call in a form that the strategy rewrites. For `ColorRect` it
never does.
-/

namespace EditorLink.Migration

variable {source fixed text front back rest : List Char} {change : ApiChange}
  {strategy : FixStrategy}

/-! ## What a fixed text holds -/

theorem contains_iff {needle : List Char} : Text.contains needle text ↔ needle <:+: text := by
  unfold Text.contains
  induction text with
  | nil => simp [Text.indexOf?, List.isEmpty_iff]
  | cons c text ih =>
    rw [Text.indexOf?, List.infix_cons_iff]
    by_cases hlead : needle <+: c :: text
    · simp [hlead]
    · simp [hlead, ih]

/-- A fixed text holds the description of the change. -/
theorem description_infix_withNote (change : ApiChange) (text : List Char) :
    change.description.toList <:+: withNote change text := by
  unfold withNote
  split
  · next hcontains => exact contains_iff.mp hcontains
  · rw [fixNote_eq]
    refine List.IsInfix.trans ?_ (List.suffix_append text _).isInfix
    exact ⟨"\n\n# Fix note: ".toList, "\n# Suggestion: ".toList ++ change.migrationNotes.toList,
      by simp only [List.append_assoc]⟩

/-- A description that begins with a call of a method and closes it. -/
theorem exists_receiverCall_of_infix {name : String} {receiver description call : List Char}
    (hcall : IsReceiverCall name receiver call) (hdescription : call ++ ")".toList <+: description)
    (h : description <:+: text) :
    ∃ front receiver call back, IsReceiverCall name receiver call ∧ ')' ∈ back ∧
      text = front ++ call ++ back := by
  obtain ⟨others, rfl⟩ := hdescription
  obtain ⟨front, back, rfl⟩ := h
  exact ⟨front, receiver, call, ")".toList ++ others ++ back, hcall, by simp, by simp⟩

theorem setLooped_appliesTo_of_isInfix (h : setLoopedRemoved.description.toList <:+: text) :
    FixStrategy.AppliesTo text .setLooped := by
  have hcall : IsReceiverCall "set_looped" "Tween".toList "Tween.set_looped(".toList :=
    ⟨[], by decide, by decide, by simp [Blanks], by decide⟩
  refine exists_receiverCall_of_infix hcall ?_ h
  decide

theorem colorAtOffset_appliesTo_of_isInfix (h : colorAtOffsetRemoved.description.toList <:+: text) :
    FixStrategy.AppliesTo text .colorAtOffset := by
  have hcall : IsReceiverCall "get_color_at_offset" "Gradient".toList
      "Gradient.get_color_at_offset(".toList :=
    ⟨[], by decide, by decide, by simp [Blanks], by decide⟩
  refine exists_receiverCall_of_infix hcall ?_ h
  decide

/-! ## ColorRect behind a note -/

/-- A piece in a text with a note lies in the text or in the note, when it neither holds a number
sign nor ends with a line break. -/
theorem split_note {init : List Char} {last : Char} (hnumber : '#' ∉ init ++ [last])
    (hlast : last ≠ '\n')
    (h : text ++ (['\n', '\n'] ++ '#' :: rest) = front ++ (init ++ [last]) ++ back) :
    (∃ gap, text = front ++ (init ++ [last]) ++ gap ∧
        back = gap ++ (['\n', '\n'] ++ '#' :: rest)) ∨
      ∃ gap, gap ≠ [] ∧ front = text ++ gap ∧
        ['\n', '\n'] ++ '#' :: rest = gap ++ (init ++ [last]) ++ back := by
  rw [← List.append_assoc, List.append_assoc front] at h
  rcases List.append_eq_append_iff.mp h with ⟨gap, rfl, hback⟩ | ⟨gap, htext, hpiece⟩
  · refine .inr ⟨['\n', '\n'] ++ gap, nofun, by simp, ?_⟩
    rw [hback]
    simp
  -- The piece holds no number sign, so it ends before the one of the note.
  obtain ⟨after, rfl, rfl⟩ :
      ∃ after, gap = init ++ [last] ++ after ∧ back = after ++ '#' :: rest := by
    rcases List.append_eq_append_iff.mp hpiece with ⟨after, rfl, rfl⟩ | ⟨after, heq, hrest⟩
    · exact ⟨after, rfl, rfl⟩
    · cases after with
      | nil => exact ⟨[], by simpa using heq.symm, hrest.symm⟩
      | cons c after =>
        obtain ⟨rfl, -⟩ := List.cons_eq_cons.mp hrest
        rw [heq] at hnumber
        simp at hnumber
  rw [← List.append_assoc] at htext
  rcases List.append_eq_append_iff.mp htext with ⟨gap, hfront, hbreaks⟩ | ⟨gap, rfl, rfl⟩
  · -- It does not end with a line break either, so it ends with the text.
    cases gap with
    | nil =>
      rw [List.append_nil] at hfront
      rw [List.nil_append] at hbreaks
      exact .inl ⟨[], by simpa using hfront.symm, by rw [← hbreaks]; simp⟩
    | cons c gap =>
      have hend : some last = (c :: gap).getLast? := by
        have hwhole := congrArg List.getLast? hfront
        rwa [← List.append_assoc, List.getLast?_concat,
          List.getLast?_append_of_ne_nil _ (List.cons_ne_nil c gap)] at hwhole
      have hmem : last ∈ ['\n', '\n'] := by
        rw [hbreaks]
        exact List.mem_append_left _ (List.mem_of_getLast? hend.symm)
      simp [hlast] at hmem
  · exact .inl ⟨gap, rfl, by simp⟩

/-- The forms that the passes look for hold no number sign, and end with a letter or a
parenthesis. -/
theorem colorRect_piece {piece : List Char}
    (h : (IsColorRectAfter "class_name" piece ∨ IsColorRectAfter "extends" piece) ∨
      IsColorRectCall piece) :
    ∃ init last, piece = init ++ [last] ∧ '#' ∉ init ++ [last] ∧ last ≠ '\n' := by
  have hblank : ∀ ws, Blanks ws → '#' ∉ ws := fun ws hws hmem => absurd (hws _ hmem) (by decide)
  rcases h with (⟨ws, -, hws, rfl⟩ | ⟨ws, -, hws, rfl⟩) | ⟨ws, hws, rfl⟩ | ⟨ws₁, ws₂, hws₁, hws₂, rfl⟩
  · exact ⟨"class_name".toList ++ ws ++ "ColorRec".toList, 't', by simp, by simp [hblank ws hws],
      by decide⟩
  · exact ⟨"extends".toList ++ ws ++ "ColorRec".toList, 't', by simp, by simp [hblank ws hws],
      by decide⟩
  · exact ⟨"ColorRect".toList ++ ws ++ "(".toList, ')', by simp, by simp [hblank ws hws],
      by decide⟩
  · exact ⟨"ColorRect".toList ++ ws₁ ++ ".new".toList ++ ws₂ ++ "(".toList, ')', by simp,
      by simp [hblank ws₁ hws₁, hblank ws₂ hws₂], by decide⟩

theorem colorRect_not_appliesTo_fixNote :
    ¬ FixStrategy.AppliesTo (fixNote colorRectDeprecated) .colorRect := by
  rw [← FixStrategy.exists_pass_iff, fixNote_eq,
    Text.toList_of_eq (rfl : colorRectDeprecated.description = String.ofList _),
    Text.toList_of_eq (rfl : colorRectDeprecated.migrationNotes = String.ofList _)]
  simp only [FixStrategy.passes, List.mem_cons, List.not_mem_nil, or_false, exists_eq_or_imp,
    exists_eq_left]
  decide

/-- A note brings `ColorRect` back in no form that is rewritten. -/
theorem colorRect_appliesTo_of_withNote
    (h : FixStrategy.AppliesTo (withNote colorRectDeprecated text) .colorRect) :
    FixStrategy.AppliesTo text .colorRect := by
  unfold withNote at h
  split at h
  · exact h
  obtain ⟨front, piece, back, hpiece, heq⟩ := h
  obtain ⟨rest, hnote⟩ := exists_fixNote colorRectDeprecated
  obtain ⟨init, last, rfl, hnumber, hlast⟩ := colorRect_piece (hpiece.imp And.left And.right)
  rw [hnote] at heq
  rcases split_note hnumber hlast heq with ⟨gap, rfl, rfl⟩ | ⟨gap, hgap, rfl, hinside⟩
  · refine ⟨front, init ++ [last], gap, hpiece.imp_left (And.imp_right fun hend => ?_), rfl⟩
    cases gap with
    | nil => rintro c ⟨⟩
    | cons c gap => exact hend
  · refine absurd ⟨gap, init ++ [last], back, hpiece.imp_right (And.imp_left fun hstart => ?_), ?_⟩
      colorRect_not_appliesTo_fixNote
    · intro c hc
      exact hstart c (by rwa [List.getLast?_append_of_ne_nil _ hgap])
    · rw [hnote, hinside]

theorem colorRect_not_appliesTo_withNote (source : List Char) :
    ¬ FixStrategy.AppliesTo (withNote colorRectDeprecated (FixStrategy.colorRect.edit source))
      .colorRect :=
  fun h => colorRect_not_appliesTo_edit source (colorRect_appliesTo_of_withNote h)

/-! ## Fixes of fixed texts -/

/-- A fix is given again where its strategy applies to its own result: always for `set_looped` and
`get_color_at_offset`, never for `ColorRect`. -/
theorem applyFix?_fixed (hchange : change ∈ allChanges) (hfix : change.fix = some strategy)
    (hfixed : applyFix? change source = some fixed) :
    ((applyFix? change fixed).isSome ↔ strategy.AppliesTo fixed) ∧
      (strategy = .setLooped ∨ strategy = .colorAtOffset → (applyFix? change fixed).isSome) ∧
      (strategy = .colorRect → applyFix? change fixed = none) := by
  obtain rfl := change_eq_of_fix hchange hfix
  obtain ⟨happlies, rfl⟩ := (applyFix?_eq_some_iff hfix strategy.hasExample_change).mp hfixed
  have hagain : ∀ text, (applyFix? strategy.rule.change text).isSome ↔ strategy.AppliesTo text := by
    intro text
    simp [Option.isSome_iff_exists, applyFix?_eq_some_iff hfix strategy.hasExample_change]
  refine ⟨hagain _, ?_, ?_⟩
  · rintro (rfl | rfl)
    · exact (hagain _).mpr (setLooped_appliesTo_of_isInfix (description_infix_withNote _ _))
    · exact (hagain _).mpr (colorAtOffset_appliesTo_of_isInfix (description_infix_withNote _ _))
  · rintro rfl
    rw [← Option.not_isSome_iff_eq_none, hagain]
    exact colorRect_not_appliesTo_withNote source

/-- A call in one line is fixed, and its note is fixed again. -/
theorem applyFix?_fixed_gradient :
    ∃ fixed, applyFix? colorAtOffsetRemoved "g.get_color_at_offset(0.5)".toList = some fixed ∧
      (applyFix? colorAtOffsetRemoved fixed).isSome := by
  have hsome : (applyFix? colorAtOffsetRemoved "g.get_color_at_offset(0.5)".toList).isSome := by
    decide
  have hmem : colorAtOffsetRemoved ∈ allChanges := by decide
  obtain ⟨fixed, hfixed⟩ := Option.isSome_iff_exists.mp hsome
  exact ⟨fixed, hfixed, (applyFix?_fixed hmem rfl hfixed).2.1 (.inr rfl)⟩

end EditorLink.Migration
