import EditorLink.Proofs.Migration.Fixes
import EditorLink.Proofs.Review.Findings
import EditorLink.Review.Repair

/-!
# Which repairs change a script

A review marks an error as fixable when the change behind it has a strategy, not when the strategy
has something to rewrite. So a repair of a fixable error can leave the script as it is: it changes
the script just when the strategy applies.
-/

namespace EditorLink.Review

open Migration

variable {script : List Char} {lines : List Line} {strategy : FixStrategy} {error : Error}

/-- The old symbol of a change with a strategy leads back to the change. -/
theorem findChange?_fromSymbol (strategy : FixStrategy) :
    ∃ symbol, strategy.rule.change.fromSymbol = some symbol ∧ symbol ≠ "" ∧
      findChange? symbol = some strategy.rule.change := by
  cases strategy with
  | material property => cases property <;> exact ⟨_, rfl, by decide, rfl⟩
  | _ => exact ⟨_, rfl, by decide, rfl⟩

theorem apiError_repairable (lines : List Line) (strategy : FixStrategy) :
    (apiError lines strategy.rule.change).isRepairable ∧
      (apiError lines strategy.rule.change).change? = some strategy.rule.change := by
  obtain ⟨symbol, hsymbol, hne, hfind⟩ := findChange?_fromSymbol strategy
  constructor
  · simp [Error.isRepairable, apiError, strategy.fix_change, hsymbol, hne]
  · simp [Error.change?, apiError, hsymbol, hfind]

theorem repair_singleton (script : List Char) (h : error.isRepairable) :
    repair script [error] = repairOne script error := by
  have horder : repairOrder [error] = [error] := by
    simp [repairOrder, h]
  rw [repair, horder]
  rfl

/-- The repair of the error for a change makes the fix of the change. -/
theorem repair_apiError (script : List Char) (lines : List Line) (strategy : FixStrategy) :
    repair script [apiError lines strategy.rule.change] =
      fixOrKeep strategy.rule.change script := by
  obtain ⟨hrepairable, hchange⟩ := apiError_repairable lines strategy
  rw [repair_singleton script hrepairable, repairOne, hchange]

/-- A mixed indentation is reported without a fix. -/
theorem indentErrors_not_fixable (h : error ∈ indentErrors lines) : error.fixable = false := by
  obtain ⟨index, line, -, rfl⟩ := mem_indentErrors h
  rfl

theorem rule_eq_of_fix {rule : Rule} (h : rule.change.fix = some strategy) :
    rule = strategy.rule := by
  cases rule with
  | material property =>
    cases property <;> cases h <;> rfl
  | _ => cases h <;> rfl

theorem exists_strategy_of_fixable {major : Option Int}
    (h : error ∈ (ofScript script major).errors) (hfixable : error.fixable) :
    ∃ strategy : FixStrategy, strategy.rule.change ∈ reportedChanges script ∧
      error = apiError (linesOf script) strategy.rule.change := by
  rcases List.mem_append.mp h with hapi | hindent
  · obtain ⟨change, hreported, rfl⟩ := List.mem_map.mp hapi
    obtain ⟨rule, -, rfl⟩ := mem_reportedChanges.mp hreported
    obtain ⟨strategy, hfix⟩ := Option.isSome_iff_exists.mp hfixable
    obtain rfl := rule_eq_of_fix hfix
    exact ⟨strategy, hreported, rfl⟩
  · rw [indentErrors_not_fixable hindent] at hfixable
    cases hfixable

/-- A fixable error belongs to a reported change with a strategy, and its repair changes the script
just when the strategy applies to the script. -/
theorem repair_ne_iff_appliesTo (script : List Char) (major : Option Int) (error : Error)
    (herror : error ∈ (ofScript script major).errors) (hfixable : error.fixable) :
    ∃ change strategy, error.change? = some change ∧ change.fix = some strategy ∧
      change ∈ reportedChanges script ∧
      (repair script [error] ≠ script ↔ strategy.AppliesTo script) := by
  obtain ⟨strategy, hreported, rfl⟩ := exists_strategy_of_fixable herror hfixable
  refine ⟨strategy.rule.change, strategy, (apiError_repairable _ strategy).2, strategy.fix_change,
    hreported, ?_⟩
  rw [repair_apiError]
  exact fixOrKeep_ne_iff strategy.fix_change strategy.hasExample_change

/-- A call with a quoted name is reported as fixable, and its repair changes the script. -/
theorem repair_ne_iff_appliesTo_quoted :
    ∃ error ∈ (ofScript "a.has_property(\"p\")".toList none).errors, error.fixable ∧
      repair "a.has_property(\"p\")".toList [error] ≠ "a.has_property(\"p\")".toList := by
  have hreported : hasPropertyGone ∈ reportedChanges "a.has_property(\"p\")".toList := by
    decide
  have herror := List.mem_append_left
    (indentErrors (linesOf "a.has_property(\"p\")".toList)) (List.mem_map_of_mem
      (f := apiError (linesOf "a.has_property(\"p\")".toList)) hreported)
  have happlies : FixStrategy.AppliesTo "a.has_property(\"p\")".toList .hasProperty :=
    ⟨[], ['a'], "a.has_property(".toList, ['p'], "\"p\")".toList, [],
      ⟨[], by simp, by simp [Text.isWord], by simp [Blanks], by simp⟩,
      ⟨[], '"', '"', [], by simp [Blanks], by decide, by simp, by simp [isQuote], by decide,
        by simp [Blanks], by simp⟩, by simp⟩
  refine ⟨_, herror, rfl, ?_⟩
  obtain ⟨change, strategy, hchange, hfix, -, hiff⟩ :=
    repair_ne_iff_appliesTo _ none _ herror rfl
  obtain rfl := Option.some.inj (hchange.symm.trans (apiError_repairable _ .hasProperty).2)
  obtain rfl := Option.some.inj (hfix.symm.trans FixStrategy.hasProperty.fix_change)
  exact hiff.mpr happlies

/-- A call with a name that is not quoted is reported as fixable too, and its repair leaves the
script as it is. -/
theorem fixable_without_effect :
    ∃ error ∈ (ofScript "node.has_property(name)".toList none).errors, error.fixable ∧
      repair "node.has_property(name)".toList [error] = "node.has_property(name)".toList := by
  have hreported : hasPropertyGone ∈ reportedChanges "node.has_property(name)".toList := by
    decide
  refine ⟨apiError (linesOf "node.has_property(name)".toList) hasPropertyGone,
    List.mem_append_left _ (List.mem_map_of_mem hreported), rfl, ?_⟩
  refine (repair_apiError _ _ .hasProperty).trans ?_
  decide

end EditorLink.Review
