import EditorLink.Proofs.Migration.Fixes
import EditorLink.Proofs.Migration.MovedAssignments

/-!
# Fixes bring no new reports

A fix other than that of `has_property` brings nothing that a rule reports and that the script did
not hold before. The replacements of a pass are taken back one after the other, from the left, and
then the note: what is found in a note is reported for the script that is fixed.
-/

namespace EditorLink.Migration

open Text

variable {rule : Rule} {source text fixed : List Char} {change : ApiChange} {strategy : FixStrategy}

/-! ## Passes -/

/-- Every rule that finds something in the new text finds something in the old one. -/
def Pattern.BringsNothing (p : Pattern (List Char)) : Prop :=
  ∀ (rule : Rule) (text : List Char), rule.form.OccursIn (p.replaceAll text) →
    rule.form.OccursIn text

theorem Pattern.bringsNothing {p : Pattern (List Char)} (hp : p.Consumes)
    (hstep : ∀ (rule : Rule) before piece rest replacement out,
      p before (piece ++ rest) = some (replacement, rest) →
      Pattern.Rewritten p (piece.reverse ++ before) rest out →
      rule.form.OccursIn (before.reverse ++ replacement ++ out) →
      rule.form.OccursIn (before.reverse ++ piece ++ out)) : p.BringsNothing := by
  intro rule text h
  exact (Pattern.rewritten_replaceFrom hp [] text).reflects (hstep rule) h

theorem Pattern.bringsNothing_applyPasses {passes : List (Pattern (List Char))}
    (hp : ∀ pass ∈ passes, pass.BringsNothing) (rule : Rule) (text : List Char)
    (h : rule.form.OccursIn (Pattern.applyPasses passes text)) : rule.form.OccursIn text := by
  induction passes generalizing text with
  | nil => exact h
  | cons pass passes ih =>
    obtain ⟨hpass, hrest⟩ := List.forall_mem_cons.mp hp
    exact hpass rule text (ih hrest _ h)

theorem replacedCall_bringsNothing {name : String} {template : List Char → List Char}
    (h : ∀ (rule : Rule) front back receiver call inner, IsReceiverCall name receiver call →
      rule.form.OccursIn (front ++ template receiver ++ back) →
      rule.form.OccursIn (front ++ (call ++ inner ++ ")".toList) ++ back)) :
    (replacedCall name template).BringsNothing := by
  refine Pattern.bringsNothing (replacedCall_consumes _ _) ?_
  intro rule before piece rest replacement out hmatch _ hout
  obtain ⟨receiver, call, inner, hcall, -, heq, rfl⟩ := replacedCall_eq_some_iff.mp hmatch
  replace heq : piece ++ rest = (call ++ inner ++ ")".toList) ++ rest := by simpa using heq
  obtain rfl := List.append_cancel_right heq
  exact h _ _ _ _ _ _ hcall hout

theorem loopedCall_bringsNothing : loopedCall.BringsNothing := by
  rw [loopedCall_eq_replacedCall]
  exact replacedCall_bringsNothing fun _ _ _ _ _ _ => occursIn_of_looped

theorem colorAtOffsetCall_bringsNothing : colorAtOffsetCall.BringsNothing := by
  rw [colorAtOffsetCall_eq_replacedCall]
  exact replacedCall_bringsNothing fun _ _ _ _ _ _ => occursIn_of_indexed

theorem colorRectAfter_bringsNothing {keyword : String}
    (hkeyword : ¬ Leaves Text.isWord keyword.toList) : (colorRectAfter keyword).BringsNothing := by
  have hstarts : ∀ before text replacement rest,
      colorRectAfter keyword before text = some (replacement, rest) → ¬ Leaves Text.isWord text := by
    intro before text replacement rest hmatch
    obtain ⟨_, ⟨ws, -, -, rfl⟩, -, rfl, -⟩ := colorRectAfter_eq_some_iff.mp hmatch
    rw [List.append_assoc, List.append_assoc]
    exact not_leaves_append hkeyword _
  refine Pattern.bringsNothing (colorRectAfter_adds keyword).consumes ?_
  intro rule before piece rest replacement out hmatch hrest h
  obtain ⟨piece, hpiece, hend, heq, rfl⟩ := colorRectAfter_eq_some_iff.mp hmatch
  obtain rfl := List.append_cancel_right heq
  have hback : Leaves Text.isWord out := by
    unfold Leaves
    rw [hrest.head?_eq hstarts hend]
    exact hend
  rw [textureName_append] at h
  exact occursIn_of_named hpiece hback h

theorem colorRectCall_bringsNothing : colorRectCall.BringsNothing := by
  refine Pattern.bringsNothing colorRectCall_adds.consumes ?_
  intro rule before piece rest replacement out hmatch _ h
  rw [← List.reverse_reverse before] at hmatch
  obtain ⟨piece, hstart, hpiece, heq, rfl⟩ := colorRectCall_eq_some_iff.mp hmatch
  obtain rfl := List.append_cancel_right heq
  exact occursIn_of_constructed hstart hpiece h

/-- An assignment begins with its owner or with the word of the material. -/
theorem materialStatement_starts {property : MaterialProperty} {before rest replacement : List Char}
    (h : materialStatement property before text = some (replacement, rest)) :
    ¬ Leaves Text.isWord text := by
  rw [← List.reverse_reverse before] at h
  rcases materialStatement_eq_some h with
    ⟨owner, target, value, hne, hword, -, -, -, rfl, -⟩ | ⟨target, value, -, htarget, -, -, rfl, -⟩
  · obtain ⟨c, owner, rfl⟩ := List.exists_cons_of_ne_nil hne
    intro hleaves
    have hc := hleaves c rfl
    simp [hword c List.mem_cons_self] at hc
  · obtain ⟨lead, ws₁, ws₂, ws₃, rfl | rfl, -, -, -, rfl⟩ := htarget
    · exact fun hleaves => absurd (hleaves 'm' rfl) (by decide)
    · exact fun hleaves => absurd (hleaves 'p' rfl) (by decide)

theorem materialStatement_bringsNothing (property : MaterialProperty) :
    (materialStatement property).BringsNothing := by
  refine Pattern.bringsNothing (materialStatement_adds property).consumes ?_
  intro rule before piece rest replacement out hmatch hrest h
  -- What follows a value ends it also after the rest of the text has been rewritten.
  have hhead : (∀ c ∈ rest.head?, endsValue c) → ∀ c ∈ out.head?, endsValue c := by
    intro hends
    rw [hrest.head?_eq (fun _ _ _ _ => materialStatement_starts) (leaves_isWord_of_endsValue hends)]
    exact hends
  rw [← List.reverse_reverse before] at hmatch
  rcases materialStatement_eq_some hmatch with
    ⟨owner, target, value, -, hword, htarget, -, hends, heq, rfl⟩ |
    ⟨target, value, hstart, htarget, -, hends, heq, hreplacement⟩
  · obtain rfl := List.append_cancel_right heq
    exact occursIn_of_moved_owner hword htarget (hhead hends) h
  · obtain rfl := List.append_cancel_right heq
    obtain ⟨-, hword, hnode⟩ := particlesAbove_spec before.reverse.reverse
    rw [List.reverse_reverse before] at hnode
    rw [hreplacement] at h
    exact occursIn_of_moved_node hstart hword (by simpa using hnode) htarget (hhead hends) h

/-! ## Strategies and notes -/

theorem FixStrategy.edit_bringsNothing (hstrategy : strategy ≠ .hasProperty)
    (h : rule.form.OccursIn (strategy.edit source)) : rule.form.OccursIn source := by
  refine Pattern.bringsNothing_applyPasses ?_ rule source h
  cases strategy with
  | hasProperty => exact absurd rfl hstrategy
  | setLooped => exact List.forall_mem_singleton.mpr loopedCall_bringsNothing
  | colorAtOffset => exact List.forall_mem_singleton.mpr colorAtOffsetCall_bringsNothing
  | colorRect =>
    refine List.forall_mem_cons.mpr ⟨colorRectAfter_bringsNothing ?_, ?_⟩
    · exact fun hleaves => absurd (hleaves 'c' (by decide)) (by decide)
    refine List.forall_mem_cons.mpr ⟨colorRectAfter_bringsNothing ?_, ?_⟩
    · exact fun hleaves => absurd (hleaves 'e' (by decide)) (by decide)
    exact List.forall_mem_singleton.mpr colorRectCall_bringsNothing
  | material property => exact List.forall_mem_singleton.mpr (materialStatement_bringsNothing property)

theorem fixNote_eq (change : ApiChange) : fixNote change =
    "\n\n# Fix note: ".toList ++ change.description.toList ++ "\n# Suggestion: ".toList ++
      change.migrationNotes.toList := by
  rw [fixNote, String.toList_append, String.toList_append, String.toList_append]

/-- A note begins with an empty line and a number sign. -/
theorem exists_fixNote (change : ApiChange) :
    ∃ back, fixNote change = ['\n', '\n'] ++ '#' :: back := by
  have hlead : "\n\n# Fix note: ".toList = ['\n', '\n'] ++ '#' :: " Fix note: ".toList := by
    decide
  refine ⟨" Fix note: ".toList ++ (change.description.toList ++ ("\n# Suggestion: ".toList ++
    change.migrationNotes.toList)), ?_⟩
  rw [fixNote_eq, hlead]
  simp only [List.append_assoc, List.cons_append]

/-- A note holds nothing that a rule looks for but the change that it is about, and no sign comes
after its first parenthesis. -/
theorem fixNote_quiet (strategy : FixStrategy) :
    (∀ rule ∈ Rule.all, rule.fires (fixNote strategy.rule.change) → rule = strategy.rule) ∧
      ¬ Closed (fixNote strategy.rule.change) := by
  have hquiet {change : ApiChange} {description notes : List Char} {own : Rule}
      (hdescription : change.description.toList = description)
      (hnotes : change.migrationNotes.toList = notes)
      (h : let note := "\n\n# Fix note: ".toList ++ description ++ "\n# Suggestion: ".toList ++ notes
        (∀ rule ∈ Rule.all, rule.fires note → rule = own) ∧ ¬ Closed note) :
      (∀ rule ∈ Rule.all, rule.fires (fixNote change) → rule = own) ∧ ¬ Closed (fixNote change) := by
    rw [fixNote_eq, hdescription, hnotes]
    exact h
  cases strategy with
  | material property =>
    cases property <;>
      exact hquiet (toList_append_of_eq (toList_of_eq rfl) (toList_of_eq rfl))
        (toList_append_of_eq (toList_append_of_eq (toList_append_of_eq (toList_append_of_eq
          (toList_of_eq rfl) (toList_of_eq rfl)) (toList_of_eq rfl)) (toList_of_eq rfl))
            (toList_of_eq rfl)) (by decide +kernel)
  | _ => exact hquiet (toList_of_eq rfl) (toList_of_eq rfl) (by decide)

theorem eq_rule_of_occursIn_fixNote (h : rule.form.OccursIn (fixNote strategy.rule.change)) :
    rule = strategy.rule := by
  refine (fixNote_quiet strategy).1 rule (Rule.mem_all rule) ?_
  rw [Rule.fires_iff, Rule.occursIn_iff]
  exact h

/-- Nothing reaches from a text into the note but a call whose argument is open at its end, and that
finds no sign. -/
theorem occursIn_of_append_fixNote (h : rule.form.OccursIn (text ++ fixNote strategy.rule.change)) :
    rule.form.OccursIn text ∨ rule = strategy.rule := by
  obtain ⟨back, hnote⟩ := exists_fixNote strategy.rule.change
  by_cases hrule : rule = .shaderParameter
  · subst hrule
    have hnone : ¬ Rule.shaderParameter.form.OccursIn (fixNote strategy.rule.change) := by
      intro hoccurs
      have heq := eq_rule_of_occursIn_fixNote hoccurs
      cases strategy <;> cases heq
    have hexchanged : Rule.shaderParameter.form.OccursIn (text ++ []) := by
      refine shader_exchange ?_ nofun ?_ (absurd · (fixNote_quiet strategy).2) (absurd · hnone) h
      · rw [hnote]
        exact not_across_of_head (by decide) rfl
      · have hblanks : ∀ c ∈ ['\n', '\n'], Text.isBlank c := by decide
        rw [hnote, signed_append_of_blanks hblanks, signed_cons (by decide)]
        decide
    exact .inl (by simpa using hexchanged)
  · have hnumber : rule.form.Lacks '#' := Rule.lacks hrule (by decide) (by decide) (by decide)
    have hcut : rule.form.OccursIn ((text ++ ['\n', '\n']) ++ '#' :: back) := by
      simpa [hnote] using h
    rcases hcut.of_append_cons hnumber with hfront | hback
    · have hclosers : ∀ rule ∈ Rule.all, ∀ closer ∈ rule.closers, closer ∉ ['\n', '\n'] := by
        decide
      exact .inl (hfront.of_append_of_endsWith rule.endsWith (hclosers rule (Rule.mem_all rule)))
    · refine .inr (eq_rule_of_occursIn_fixNote ?_)
      have hlead : WordStart (['\n', '\n'] ++ ['#']) := wordStart_append_singleton _ (by decide)
      simpa [hnote] using hback.append_left _ fun _ => hlead

theorem occursIn_of_withNote
    (h : rule.form.OccursIn (withNote strategy.rule.change text)) :
    rule.form.OccursIn text ∨ rule = strategy.rule := by
  unfold withNote at h
  split at h
  · exact .inl h
  · exact occursIn_of_append_fixNote h

/-- What is reported for a script that a fix was given for was reported before. -/
theorem mem_reportedChanges_of_applyFix? (hchange : change ∈ allChanges)
    (hfix : change.fix ≠ some .hasProperty) (hfixed : applyFix? change source = some fixed)
    {other : ApiChange} (hother : other ∈ reportedChanges fixed) :
    other ∈ reportedChanges source := by
  obtain ⟨rule, hrule, rfl⟩ := mem_reportedChanges.mp hother
  cases hstrategy : change.fix with
  | none => simp [applyFix?, hstrategy] at hfixed
  | some strategy =>
    obtain rfl := change_eq_of_fix hchange hstrategy
    have hne : strategy ≠ .hasProperty := by
      rintro rfl
      exact hfix rfl
    obtain ⟨happlies, rfl⟩ := (applyFix?_eq_some_iff hstrategy strategy.hasExample_change).mp hfixed
    rw [Rule.occursIn_iff] at hrule
    rcases occursIn_of_withNote hrule with hedit | rfl
    · have hsource := FixStrategy.edit_bringsNothing hne hedit
      exact mem_reportedChanges.mpr ⟨rule, (Rule.occursIn_iff rule).mpr hsource, rfl⟩
    · exact mem_reportedChanges_of_fixed hchange hfixed

theorem mem_reportedChanges_of_fixOrKeep (hchange : change ∈ allChanges)
    (hfix : change.fix ≠ some .hasProperty) {other : ApiChange}
    (hother : other ∈ reportedChanges (fixOrKeep change source)) :
    other ∈ reportedChanges source := by
  unfold fixOrKeep at hother
  cases hfixed : applyFix? change source with
  | none => simpa [hfixed] using hother
  | some fixed =>
    rw [hfixed, Option.getD_some] at hother
    exact mem_reportedChanges_of_applyFix? hchange hfix hfixed hother

/-- Neither a fix nor a chain of fixes brings a new report, when none of them is that of
`has_property`. -/
theorem reportedChanges_subset_of_fixes :
    (∀ change ∈ allChanges, change.fix ≠ some .hasProperty →
      ∀ source fixed, applyFix? change source = some fixed →
        reportedChanges fixed ⊆ reportedChanges source) ∧
    ∀ changes : List ApiChange,
      (∀ change ∈ changes, change ∈ allChanges ∧ change.fix ≠ some .hasProperty) →
      ∀ source, reportedChanges (changes.foldl (fun text change => fixOrKeep change text) source) ⊆
        reportedChanges source := by
  refine ⟨fun change hchange hfix source fixed hfixed other =>
    mem_reportedChanges_of_applyFix? hchange hfix hfixed, fun changes hchanges => ?_⟩
  induction changes with
  | nil => exact fun source => List.Subset.refl _
  | cons change changes ih =>
    intro source other hother
    obtain ⟨⟨hchange, hfix⟩, hrest⟩ := List.forall_mem_cons.mp hchanges
    exact mem_reportedChanges_of_fixOrKeep hchange hfix (ih hrest _ hother)

/-- Two fixes in a row, of which the first quotes the call that it removes. -/
theorem reportedChanges_subset_of_two_fixes :
    (∃ fixed, applyFix? setLoopedRemoved "t.set_looped(g.get_color_at_offset(0))".toList = some fixed ∧
      reportedChanges fixed ⊆ reportedChanges "t.set_looped(g.get_color_at_offset(0))".toList) ∧
    reportedChanges ([setLoopedRemoved, colorAtOffsetRemoved].foldl
        (fun text change => fixOrKeep change text) "t.set_looped(g.get_color_at_offset(0))".toList) ⊆
      reportedChanges "t.set_looped(g.get_color_at_offset(0))".toList := by
  have hsome : (applyFix? setLoopedRemoved
      "t.set_looped(g.get_color_at_offset(0))".toList).isSome := by
    decide
  have hlooped : setLoopedRemoved ∈ allChanges ∧ setLoopedRemoved.fix ≠ some .hasProperty := by
    decide
  have hoffset : colorAtOffsetRemoved ∈ allChanges ∧
      colorAtOffsetRemoved.fix ≠ some .hasProperty := by
    decide
  obtain ⟨fixed, hfixed⟩ := Option.isSome_iff_exists.mp hsome
  have hchain : ∀ change ∈ [setLoopedRemoved, colorAtOffsetRemoved],
      change ∈ allChanges ∧ change.fix ≠ some .hasProperty :=
    List.forall_mem_cons.mpr ⟨hlooped, List.forall_mem_singleton.mpr hoffset⟩
  exact ⟨⟨fixed, hfixed, reportedChanges_subset_of_fixes.1 _ hlooped.1 hlooped.2 _ _ hfixed⟩,
    reportedChanges_subset_of_fixes.2 _ hchain _⟩

end EditorLink.Migration
