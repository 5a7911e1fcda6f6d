import EditorLink.Migration.Fix
import EditorLink.Proofs.Migration.Strategies

/-!
# When a fix is given

Every strategy belongs to one rule, and the form that the strategy rewrites is a case of what the
rule looks for. So a fix is given only for a change that is reported. The converse fails: a rule
looks for more than its strategy can rewrite, and `FixStrategy.AppliesTo` is the exact condition
for a fix.
-/

namespace EditorLink.Migration

variable {source call receiver fixed : List Char} {name : String} {strategy : FixStrategy}
  {change : ApiChange}

/-- The rule that reports what the strategy rewrites. -/
def FixStrategy.rule : FixStrategy → Rule
  | .hasProperty => .hasProperty
  | .setLooped => .setLooped
  | .colorAtOffset => .colorAtOffset
  | .colorRect => .colorRect
  | .material property => .material property

theorem FixStrategy.fix_change (strategy : FixStrategy) :
    strategy.rule.change.fix = some strategy := by
  cases strategy with
  | material property => cases property <;> rfl
  | _ => rfl

theorem FixStrategy.hasExample_change (strategy : FixStrategy) :
    strategy.rule.change.hasExample := by
  cases strategy with
  | material property =>
    cases property <;> simp [rule, Rule.change, ApiChange.hasExample, materialMoved, movedToNode]
  | _ =>
    simp [rule, Rule.change, ApiChange.hasExample, hasPropertyGone, setLoopedRemoved,
      colorAtOffsetRemoved, colorRectDeprecated]

/-- A change of the table with a strategy is the change of the strategy's rule. -/
theorem change_eq_of_fix (hchange : change ∈ allChanges) (hfix : change.fix = some strategy) :
    change = strategy.rule.change := by
  have hall : ∀ change ∈ allChanges, ∀ strategy, change.fix = some strategy →
      change = strategy.rule.change := by
    simp only [allChanges, changeTable, List.flatMap_cons, List.flatMap_nil, List.append_nil,
      List.cons_append, List.nil_append, List.forall_mem_cons]
    and_intros
    any_goals rintro strategy ⟨⟩
    all_goals rfl
  exact hall change hchange strategy hfix

/-! ## From strategies to rules -/

theorem callOccurs_of_receiverCall {front back : List Char} (h : IsReceiverCall name receiver call)
    (hsource : source = front ++ call ++ back) : CallOccurs name source := by
  obtain ⟨ws, -, -, hws, rfl⟩ := h
  exact ⟨front ++ receiver, ws, back, hws, by simp [hsource]⟩

theorem FixStrategy.AppliesTo.occursIn (h : strategy.AppliesTo source) :
    strategy.rule.OccursIn source := by
  cases strategy with
  | hasProperty =>
    obtain ⟨front, receiver, call, property, argument, back, hcall, -, rfl⟩ := h
    exact callOccurs_of_receiverCall hcall (List.append_assoc _ _ _)
  | setLooped =>
    obtain ⟨front, receiver, call, back, hcall, -, hsource⟩ := h
    exact callOccurs_of_receiverCall hcall hsource
  | colorAtOffset =>
    obtain ⟨front, receiver, call, back, hcall, -, hsource⟩ := h
    exact callOccurs_of_receiverCall hcall hsource
  | colorRect =>
    obtain ⟨front, piece, back, hpiece, rfl⟩ := h
    have hname : ∃ before after, piece = before ++ "ColorRect".toList ++ after := by
      rcases hpiece with ⟨⟨ws, -, -, rfl⟩ | ⟨ws, -, -, rfl⟩, -⟩ |
        ⟨-, ⟨ws, -, rfl⟩ | ⟨ws₁, ws₂, -, -, rfl⟩⟩
      · exact ⟨_, [], (List.append_nil _).symm⟩
      · exact ⟨_, [], (List.append_nil _).symm⟩
      · exact ⟨[], ws ++ "()".toList, by simp⟩
      · exact ⟨[], ws₁ ++ ".new".toList ++ ws₂ ++ "()".toList, by simp⟩
    obtain ⟨before, after, rfl⟩ := hname
    exact ⟨front ++ before, after ++ back, by simp⟩
  | material property =>
    obtain ⟨front, target, ws, c, back, hstart, htarget, -, -, rfl⟩ := h
    exact ⟨front, target, ws ++ [c] ++ back, hstart, htarget, by simp⟩

/-! ## Fixes -/

theorem withNote_ne (change : ApiChange) {text : List Char} (h : ¬ text <+: source) :
    withNote change text ≠ source := by
  rintro rfl
  unfold withNote at h
  split at h
  · exact h (List.prefix_refl text)
  · exact h (List.prefix_append text (fixNote change))

theorem applyFix?_eq_some_iff (hfix : change.fix = some strategy) (hexample : change.hasExample) :
    applyFix? change source = some fixed ↔
      strategy.AppliesTo source ∧ fixed = withNote change (strategy.edit source) := by
  simp only [applyFix?, hfix, hexample, Bool.true_and, bne_iff_ne]
  by_cases happlies : strategy.AppliesTo source
  · have hne : strategy.edit source ≠ source := by
      intro heq
      have hstarts := FixStrategy.not_prefix_edit happlies
      rw [heq] at hstarts
      exact hstarts (List.prefix_refl source)
    rw [if_pos hne, Option.some_inj]
    exact ⟨fun h => ⟨happlies, h.symm⟩, fun h => h.2.symm⟩
  · simp [FixStrategy.edit_eq_self happlies, happlies]

/-- A fix changes the script, also when a note is added, and there is one just when the strategy
applies. -/
theorem fixOrKeep_ne_iff (hfix : change.fix = some strategy) (hexample : change.hasExample) :
    fixOrKeep change source ≠ source ↔ strategy.AppliesTo source := by
  unfold fixOrKeep
  by_cases happlies : strategy.AppliesTo source
  · rw [(applyFix?_eq_some_iff hfix hexample).mpr ⟨happlies, rfl⟩, Option.getD_some]
    exact iff_of_true (withNote_ne change (FixStrategy.not_prefix_edit happlies)) happlies
  · have hnone : applyFix? change source = none := by
      rw [Option.eq_none_iff_forall_ne_some]
      exact fun fixed h => happlies ((applyFix?_eq_some_iff hfix hexample).mp h).1
    rw [hnone, Option.getD_none]
    exact iff_of_false (fun h => h rfl) happlies

/-- A fix is given only for a change that is reported for the script. -/
theorem mem_reportedChanges_of_fixed (hchange : change ∈ allChanges)
    (hfixed : applyFix? change source = some fixed) : change ∈ reportedChanges source := by
  cases hfix : change.fix with
  | none => simp [applyFix?, hfix] at hfixed
  | some strategy =>
    obtain rfl := change_eq_of_fix hchange hfix
    have happlies := ((applyFix?_eq_some_iff hfix strategy.hasExample_change).mp hfixed).1
    exact mem_reportedChanges.mpr ⟨strategy.rule, happlies.occursIn, rfl⟩

/-- Two passes, of which the second leaves what the first one wrote. -/
theorem mem_reportedChanges_of_fixed_header :
    (applyFix? hasPropertyGone "if a.has_property(\"p\"):".toList).isSome ∧
      hasPropertyGone ∈ reportedChanges "if a.has_property(\"p\"):".toList := by
  have hsome : (applyFix? hasPropertyGone "if a.has_property(\"p\"):".toList).isSome := by
    decide
  obtain ⟨fixed, hfixed⟩ := Option.isSome_iff_exists.mp hsome
  exact ⟨hsome, mem_reportedChanges_of_fixed (by decide) hfixed⟩

end EditorLink.Migration
