import EditorLink.Proofs.Migration.Repeated

/-!
# What a fixed script is

A fix is given with a text, and the text tells that something was done: it is not the script, and it
holds the description of the change. The comparison with the script is made before the note is
added, so it must not happen that an edit cuts a script down to its beginning and the note completes
it again; no edit makes a beginning of the script out of it. For `ColorRect` the fixed script holds
nothing more that the strategy would rewrite, neither where the passes wrote nor in the note.
-/

namespace EditorLink.Migration

variable {source fixed : List Char} {change : ApiChange}

theorem exists_strategy_of_fixed (h : applyFix? change source = some fixed) :
    ∃ strategy, change.fix = some strategy ∧ strategy.AppliesTo source ∧
      fixed = withNote change (strategy.edit source) := by
  cases hfix : change.fix with
  | none => simp [applyFix?, hfix] at h
  | some strategy =>
    have hexample : change.hasExample := by
      by_contra hnone
      simp [applyFix?, hfix, hnone] at h
    obtain ⟨happlies, hfixed⟩ := (applyFix?_eq_some_iff hfix hexample).mp h
    exact ⟨strategy, rfl, happlies, hfixed⟩

/-! ## Fixed scripts are changed scripts -/

/-- A fixed script differs from the script and holds the description of the change, whatever the
change says: nothing that is put behind the edited text makes it the script again. -/
theorem fixed_ne_source (h : applyFix? change source = some fixed) :
    fixed ≠ source ∧ change.description.toList <:+: fixed ∧
      ∃ strategy, change.fix = some strategy ∧ ∀ note, strategy.edit source ++ note ≠ source := by
  obtain ⟨strategy, hfix, happlies, rfl⟩ := exists_strategy_of_fixed h
  have hnot : ¬ strategy.edit source <+: source := FixStrategy.not_prefix_edit happlies
  refine ⟨withNote_ne change hnot, description_infix_withNote change _, strategy, hfix, ?_⟩
  intro note heq
  exact hnot ⟨note, heq⟩

/-- A script that ends with the note of the change, and a description that the strategy rewrites:
the note is added once more. -/
theorem fixed_ne_source_note :
    ∃ change fixed, change.fix = some .setLooped ∧
      applyFix? change ("pass".toList ++ fixNote change) = some fixed ∧
      fixed ≠ "pass".toList ++ fixNote change ∧ change.description.toList <:+: fixed := by
  let change : ApiChange := { setLoopedRemoved with description := "t.set_looped(1)" }
  have hsome : (applyFix? change ("pass".toList ++ fixNote change)).isSome := by
    decide +kernel
  obtain ⟨fixed, hfixed⟩ := Option.isSome_iff_exists.mp hsome
  obtain ⟨hne, hdescription, -⟩ := fixed_ne_source hfixed
  exact ⟨change, fixed, rfl, hfixed, hne, hdescription⟩

/-! ## Nothing left of ColorRect -/

/-- The script that is fixed for `ColorRect` holds none of the forms that the strategy rewrites, the
note included: neither the name after a keyword nor a construction. So there is no second fix. -/
theorem fixed_holds_no_colorRect (h : applyFix? colorRectDeprecated source = some fixed) :
    (∀ keyword ∈ ["class_name", "extends"], ∀ front piece back, IsColorRectAfter keyword piece →
        Leaves Text.isWord back → fixed ≠ front ++ piece ++ back) ∧
      (∀ front piece back, WordStart front → IsColorRectCall piece →
        fixed ≠ front ++ piece ++ back) ∧
      (∀ pass ∈ FixStrategy.colorRect.passes, pass.occurs fixed = false) ∧
      applyFix? colorRectDeprecated fixed = none := by
  have hfix : colorRectDeprecated.fix = some .colorRect := rfl
  have hexample : colorRectDeprecated.hasExample := FixStrategy.hasExample_change .colorRect
  obtain ⟨-, rfl⟩ := (applyFix?_eq_some_iff hfix hexample).mp h
  have hnot := colorRect_not_appliesTo_withNote source
  refine ⟨?_, ?_, ?_, ?_⟩
  · intro keyword hkeyword front piece back hpiece hend heq
    refine hnot ⟨front, piece, back, .inl ⟨?_, hend⟩, heq⟩
    simp only [List.mem_cons, List.not_mem_nil, or_false] at hkeyword
    rcases hkeyword with rfl | rfl
    · exact .inl hpiece
    · exact .inr hpiece
  · intro front piece back hstart hpiece heq
    exact hnot ⟨front, piece, back, .inr ⟨hstart, hpiece⟩, heq⟩
  · intro pass hpass
    refine eq_false_of_ne_true fun hoccurs => hnot ?_
    exact (FixStrategy.exists_pass_iff .colorRect).mp ⟨pass, hpass, hoccurs⟩
  · refine Option.eq_none_iff_forall_ne_some.mpr fun again hagain => hnot ?_
    exact ((applyFix?_eq_some_iff hfix hexample).mp hagain).1

/-- Each of the three forms, with blanks where the passes allow them. -/
theorem fixed_holds_no_colorRect_blanks :
    ∃ fixed, applyFix? colorRectDeprecated
        "class_name ColorRect\nextends\tColorRect\nvar a = ColorRect .new ()".toList = some fixed ∧
      (∀ pass ∈ FixStrategy.colorRect.passes, pass.occurs fixed = false) ∧
      applyFix? colorRectDeprecated fixed = none := by
  have hsome : (applyFix? colorRectDeprecated
      "class_name ColorRect\nextends\tColorRect\nvar a = ColorRect .new ()".toList).isSome := by
    decide +kernel
  obtain ⟨fixed, hfixed⟩ := Option.isSome_iff_exists.mp hsome
  obtain ⟨-, -, hpasses, hnone⟩ := fixed_holds_no_colorRect hfixed
  exact ⟨fixed, hfixed, hpasses, hnone⟩

end EditorLink.Migration
