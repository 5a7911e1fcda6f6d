import EditorLink.Proofs.Migration.Blocks
import EditorLink.Proofs.Review.RepairOrder
import EditorLink.Proofs.Review.Repairs
import EditorLink.Proofs.Tool.Answers

/-!
# The two tools that fix a whole script

The fix tool and the validator give the same fixes to a script, each one once: those of the reported
changes that have a strategy. The fix tool goes by the order of the rules and the validator from the
last line up, so where the fixes get in each other's way the two can differ. In a script of
independent blocks they differ in the order of the notes at most.
-/

namespace EditorLink

open Migration

variable {script : List Char} {changes : List ApiChange}

/-! ## Fixes of changes -/

namespace Migration

/-- The strategies of the changes that are reported for a script, in the order of the rules. -/
def reportedStrategies (script : List Char) : List FixStrategy :=
  (reportedChanges script).filterMap ApiChange.fix

theorem mem_allChanges_of_mem_reportedChanges {change : ApiChange}
    (h : change ∈ reportedChanges script) : change ∈ allChanges := by
  obtain ⟨rule, -, rfl⟩ := mem_reportedChanges.mp h
  rcases rule with _ | _ | _ | _ | _ | ⟨_ | _ | _ | _ | _⟩ <;>
    simp [Rule.change, allChanges, changeTable]

theorem nodup_reportedStrategies (script : List Char) : (reportedStrategies script).Nodup := by
  have hall : ((Rule.all.map Rule.change).filterMap ApiChange.fix).Nodup := by decide
  exact hall.sublist ((List.filter_sublist.map Rule.change).filterMap ApiChange.fix)

theorem foldl_fixOrKeep (h : changes ⊆ allChanges) (script : List Char) :
    changes.foldl (fun text change => fixOrKeep change text) script =
      fixAll (changes.filterMap ApiChange.fix) script := by
  induction changes generalizing script with
  | nil => rfl
  | cons change changes ih =>
    obtain ⟨hchange, hchanges⟩ := List.cons_subset.mp h
    rw [List.foldl_cons, ih hchanges]
    cases hfix : change.fix with
    | none => simp [hfix, fixOrKeep, applyFix?]
    | some strategy =>
      rw [List.filterMap_cons_some hfix, change_eq_of_fix hchange hfix]
      rfl

end Migration

/-! ## The order of repairs -/

namespace Review

/-- The line of the change of a strategy, as the error for the change shows it; 0 for none. -/
def lineOf (script : List Char) (strategy : FixStrategy) : Int :=
  (apiError (linesOf script) strategy.rule.change).lineKey

/-- The strategies of the reported changes from the last line up. -/
def strategiesFromLast (script : List Char) : List FixStrategy :=
  (reportedStrategies script).mergeSort fun a b => lineOf script b ≤ lineOf script a

theorem filter_isRepairable (h : changes ⊆ allChanges) (lines : List Line) :
    (changes.map (apiError lines)).filter Error.isRepairable =
      (changes.filterMap ApiChange.fix).map fun strategy => apiError lines strategy.rule.change := by
  induction changes with
  | nil => rfl
  | cons change changes ih =>
    obtain ⟨hchange, hchanges⟩ := List.cons_subset.mp h
    cases hfix : change.fix with
    | none =>
      have hnot : (apiError lines change).isRepairable = false := by
        simp [Error.isRepairable, apiError, hfix]
      rw [List.map_cons, List.filter_cons_of_neg (by simp [hnot]), List.filterMap_cons_none hfix,
        ih hchanges]
    | some strategy =>
      obtain rfl := change_eq_of_fix hchange hfix
      rw [List.map_cons, List.filter_cons_of_pos (apiError_repairable lines strategy).1,
        List.filterMap_cons_some hfix, List.map_cons, ih hchanges]

theorem repairOrder_ofScript (script : List Char) (major : Option Int) :
    repairOrder (ofScript script major).errors = (strategiesFromLast script).map fun strategy =>
      apiError (linesOf script) strategy.rule.change := by
  have hindent : (indentErrors (linesOf script)).filter Error.isRepairable = [] := by
    refine List.filter_eq_nil_iff.mpr fun error herror => ?_
    simp [Error.isRepairable, indentErrors_not_fixable herror]
  have hall : reportedChanges script ⊆ allChanges :=
    fun _ => mem_allChanges_of_mem_reportedChanges
  rw [repairOrder, ofScript, List.filter_append, hindent, List.append_nil, apiErrors,
    filter_isRepairable hall]
  exact (List.map_mergeSort (f := fun strategy : FixStrategy =>
    apiError (linesOf script) strategy.rule.change) fun _ _ _ _ => rfl).symm

/-- The repairs of a review are the fixes of the reported changes, from the last line up. -/
theorem repair_ofScript (script : List Char) (major : Option Int) :
    repair script (ofScript script major).errors = fixAll (strategiesFromLast script) script := by
  have hone (text : List Char) (strategy : FixStrategy) :
      repairOne text (apiError (linesOf script) strategy.rule.change) =
        fixOrKeep strategy.rule.change text := by
    rw [repairOne, (apiError_repairable _ strategy).2]
  rw [repair, repairOrder_ofScript, List.foldl_map, fixAll]
  simp only [hone]

theorem perm_strategiesFromLast (script : List Char) :
    (strategiesFromLast script).Perm (reportedStrategies script) :=
  List.mergeSort_perm _ _

theorem pairwise_strategiesFromLast (script : List Char) :
    (strategiesFromLast script).Pairwise fun a b => lineOf script b ≤ lineOf script a :=
  pairwise_descending (lineOf script) _

theorem strategiesFromLast_eq
    (h : (reportedStrategies script).Pairwise fun a b => lineOf script b ≤ lineOf script a) :
    strategiesFromLast script = reportedStrategies script :=
  List.mergeSort_of_pairwise (h.imp decide_eq_true)

end Review

/-! ## Answers -/

namespace MigrationTool

open Project Review

variable {fixing validating : Fields} {code : String}

/-- An answer holds a fixed script. -/
def HoldsFixed (answer : Value) (fixed : List Char) : Prop :=
  ∃ data, answer = success data ∧ data.get? "fixedCode" = some (scriptValue fixed)

theorem applyFixes_fst (script : List Char) (changes : List ApiChange) :
    (applyFixes script changes).1 =
      changes.foldl (fun text change => fixOrKeep change text) script := by
  induction changes generalizing script with
  | nil => rfl
  | cons change changes ih =>
    rw [applyFixes, List.foldl_cons, fixOrKeep]
    cases applyFix? change script with
    | none => exact ih script
    | some fixed => exact ih fixed

theorem fixReport_holdsFixed (target : Value) (script : List Char) :
    HoldsFixed (fixReport target script []) (fixAll (reportedStrategies script) script) := by
  have hall : (reportedChanges script).filter (isSelected []) = reportedChanges script :=
    List.filter_eq_self.mpr fun change _ => isSelected_nil change
  rw [fixReport, hall]
  by_cases hnil : reportedChanges script = []
  · rw [if_pos (by rw [hnil]; rfl), reportedStrategies, hnil]
    exact ⟨_, rfl, rfl⟩
  · rw [if_neg (by simpa using hnil), reportedStrategies,
      ← foldl_fixOrKeep fun _ => mem_allChanges_of_mem_reportedChanges, ← applyFixes_fst]
    exact ⟨_, rfl, rfl⟩

theorem validationAnswer_holdsFixed (review : Review) (repaired : List Char) :
    HoldsFixed (validationAnswer review (some repaired)) repaired :=
  ⟨_, rfl, rfl⟩

/-- A call of the fix tool answers with the fixed script once its target is known, and fails just as
the search for the target fails. -/
def FixesTo (room : Nat) (files : Files) (detector : Detector) (arguments : Fields)
    (fixed : List Char) : Prop :=
  let outcome := (call room .fixCompatibility files detector arguments).1
  match ((resolveTarget files arguments).run detector).1 with
  | .ok (.ok _) => ∃ answer, outcome = answer.indentedWithin room ∧ HoldsFixed answer fixed
  | .ok (.error fault) =>
    outcome = (refusal ("Fix failed: " ++ fault.message) []).indentedWithin room
  | .error fault => outcome = .error fault

/-- A call of the validator answers with the fixed script, unless the project it names is no path. -/
def RepairsTo (room : Nat) (files : Files) (detector : Detector) (arguments : Fields)
    (fixed : List Char) : Prop :=
  let outcome := (call room .validateScript files detector arguments).1
  match ((detecting arguments fun detector => detector.detect files).run detector).1 with
  | .ok _ => ∃ answer, outcome = answer.indentedWithin room ∧ HoldsFixed answer fixed
  | .error fault => outcome = .error fault

theorem fixesTo_fixAll (room : Nat) (files : Files) (detector : Detector)
    (hcode : fixing.get? "code" = some (.str code)) (hasks : AsksFor fixing []) :
    FixesTo room files detector fixing (fixAll (reportedStrategies code.toList) code.toList) := by
  unfold FixesTo
  rw [call, run_fixCompatibility files detector fixing hcode hasks]
  generalize (resolveTarget files fixing).run detector = found
  obtain ⟨⟨fault⟩ | ⟨⟨fault⟩ | target⟩, after⟩ := found
  · rfl
  · rfl
  · exact ⟨_, rfl, fixReport_holdsFixed target code.toList⟩

theorem repairsTo_fixAll (room : Nat) (files : Files) (detector : Detector)
    (hcode : validating.get? "code" = some (.str code))
    (hauto : (validating.getOrNull "autoFix").isTruthy) :
    RepairsTo room files detector validating
      (fixAll (strategiesFromLast code.toList) code.toList) := by
  have hargument : validating.argument "code" = .ok (.str code) := by
    rw [Fields.argument, hcode]
  simp only [RepairsTo, call, run, runValidate, hargument, hauto, if_true, bind, liftM, monadLift,
    MonadLift.monadLift, ExceptT.run, ExceptT.bind, ExceptT.mk, StateT.bind, pure,
    ExceptT.bindCont]
  generalize detecting validating (fun detector => detector.detect files) detector = found
  obtain ⟨fault | info, after⟩ := found
  · rfl
  · rw [← repair_ofScript]
    exact ⟨_, rfl, validationAnswer_holdsFixed _ _⟩

/-- Both tools give the fixes of the reported changes, each one once: the fix tool in the order of
the rules, the validator from the last line up. Where the lines never go up in the order of the
rules the fixed scripts are equal, and in a script of independent blocks they are equal but for the
order of the notes. -/
theorem fixedCodes_sameButNotes (room : Nat) (files : Files) (detector other : Detector)
    (hfixing : fixing.get? "code" = some (.str code)) (hasks : AsksFor fixing [])
    (hvalidating : validating.get? "code" = some (.str code))
    (hauto : (validating.getOrNull "autoFix").isTruthy) :
    ∃ fixed repaired, FixesTo room files detector fixing fixed ∧
      RepairsTo room files other validating repaired ∧
      fixed = fixAll (reportedStrategies code.toList) code.toList ∧
      (∃ order, order.Perm (reportedStrategies code.toList) ∧
        order.Pairwise (fun a b => lineOf code.toList b ≤ lineOf code.toList a) ∧
        repaired = fixAll order code.toList) ∧
      ((reportedStrategies code.toList).Pairwise
        (fun a b => lineOf code.toList b ≤ lineOf code.toList a) → repaired = fixed) ∧
      ∀ blocks, scriptOf blocks = code.toList →
        Independent (reportedStrategies code.toList) blocks → SameButNotes fixed repaired := by
  refine ⟨_, _, fixesTo_fixAll room files detector hfixing hasks,
    repairsTo_fixAll room files other hvalidating hauto, rfl,
    ⟨_, perm_strategiesFromLast _, pairwise_strategiesFromLast _, rfl⟩, ?_, ?_⟩
  · intro hlines
    rw [strategiesFromLast_eq hlines]
  · intro blocks hscript hblocks
    have hsame := fixAll_sameButNotes hblocks (nodup_reportedStrategies code.toList)
      (perm_strategiesFromLast code.toList)
    rwa [hscript] at hsame

/-! ## Two scripts -/

/-- The arguments of a call of the validator that is to fix a script. -/
def repairArguments (code : String) : Fields := [("code", .str code), ("autoFix", .bool true)]

/-- A call with accepted arguments whose answer holds a fixed script gives that answer. -/
theorem call_eq_ok {tool : MigrationTool} {arguments : Fields} {fixed : List Char}
    (haccepts : (schema tool).accepts arguments)
    (h : ∃ answer, (call 900 tool noFiles rootDetector arguments).1 = answer.indentedWithin 900 ∧
      HoldsFixed answer fixed) :
    ∃ answer, (call 900 tool noFiles rootDetector arguments).1 = .ok answer.indentedText ∧
      HoldsFixed answer fixed := by
  obtain ⟨answer, houtcome, hholds⟩ := h
  have hroom : 6 ≤ 900 := by decide
  obtain ⟨other, hother, -⟩ := call_of_accepts noFiles rootDetector hroom haccepts
  refine ⟨answer, ?_, hholds⟩
  rw [houtcome, Value.indentedWithin] at hother ⊢
  split at hother
  · next hfits => rw [if_pos hfits]
  · cases hother

theorem fixesTo_argumentsFor {fixed : List Char}
    (haccepts : (schema .fixCompatibility).accepts (argumentsFor code []))
    (h : FixesTo 900 noFiles rootDetector (argumentsFor code []) fixed) :
    ∃ answer, (call 900 .fixCompatibility noFiles rootDetector (argumentsFor code [])).1 =
      .ok answer.indentedText ∧ HoldsFixed answer fixed := by
  unfold FixesTo at h
  rw [resolveTarget_named noFiles rootDetector "4.x" rfl (by decide) (by decide) rfl] at h
  exact call_eq_ok haccepts h

/-- A call, a declared node, and two assignments that move to the node. -/
def particlesScript : String :=
  "g.get_color_at_offset(0)\nvar p = $Particles\nmaterial.lifetime = 2\nmaterial.randomness = 1"

def particlesBlocks : List Block :=
  [⟨"g.get_color_at_offset(0)".toList, .colorAtOffset,
      "g.get_color(index)  # fixed: use the index of the gradient point".toList⟩,
    ⟨"var p = $Particles\nmaterial.lifetime = 2".toList, .material .lifetime,
      ("var p = $Particles\n" ++
        "p.lifetime = 2  # fixed: moved from material.lifetime to p.lifetime").toList⟩,
    ⟨"material.randomness = 1".toList, .material .randomness,
      "p.randomness = 1  # fixed: moved from material.randomness to p.randomness".toList⟩]

theorem fixedCodes_sameButNotes_particles :
    ∃ fixed repaired,
      (∃ answer, (call 900 .fixCompatibility noFiles rootDetector
          (argumentsFor particlesScript [])).1 = .ok answer.indentedText ∧
        HoldsFixed answer fixed) ∧
      (∃ answer, (call 900 .validateScript noFiles rootDetector
          (repairArguments particlesScript)).1 = .ok answer.indentedText ∧
        HoldsFixed answer repaired) ∧
      SameButNotes fixed repaired := by
  have hcode : (argumentsFor particlesScript []).get? "code" = some (.str particlesScript) := rfl
  have hcode' : (repairArguments particlesScript).get? "code" = some (.str particlesScript) := rfl
  obtain ⟨fixed, repaired, hfixed, hrepaired, -, -, -, hsame⟩ :=
    fixedCodes_sameButNotes 900 noFiles rootDetector rootDetector hcode rfl hcode' rfl
  have hreported : reportedStrategies particlesScript.toList =
      [.colorAtOffset, .material .lifetime, .material .randomness] := by decide +kernel
  have howned : OwnedBelow [.colorAtOffset, .material .lifetime, .material .randomness] []
      particlesBlocks := by
    simp only [particlesBlocks, String.toList_append]
    repeat rw [String.toList_ofList]
    decide +kernel
  refine ⟨fixed, repaired, fixesTo_argumentsFor (by decide) hfixed,
    call_eq_ok (by decide) hrepaired, hsame particlesBlocks (by decide) ?_⟩
  rw [hreported]
  exact ⟨List.cons_ne_nil _ _, howned⟩

/-- A call whose argument, in the next line, is another call. -/
def nestedCalls : String := "x.get_color_at_offset(\nColorRect.new())"

/-- The outer call takes the inner one with it, so that the inner one is fixed if it comes first. -/
theorem fixAll_nestedCalls :
    let edited := "x.get_color(index)  # fixed: use the index of the gradient point)".toList
    fixAll [.colorAtOffset, .colorRect] nestedCalls.toList = edited ++ notesFor [.colorAtOffset] ∧
      fixAll [.colorRect, .colorAtOffset] nestedCalls.toList =
        edited ++ notesFor [.colorRect, .colorAtOffset] := by
  intro edited
  let inner := "x.get_color_at_offset(\nTextureRect.new())".toList
  have houter : fixOrKeep FixStrategy.colorAtOffset.rule.change nestedCalls.toList =
      stack [edited] ++ notesFor [.colorAtOffset] := by
    have hedit : FixStrategy.colorAtOffset.edit nestedCalls.toList = edited := by decide +kernel
    have hneeds : needsNote nestedCalls.toList .colorAtOffset = true := by decide +kernel
    rw [fixOrKeep_eq, hedit, List.filter_cons_of_pos hneeds]
    rfl
  have hinner : fixOrKeep FixStrategy.colorRect.rule.change nestedCalls.toList =
      stack [inner] ++ notesFor [.colorRect] := by
    have hedit : FixStrategy.colorRect.edit nestedCalls.toList = inner := by decide +kernel
    have hneeds : needsNote nestedCalls.toList .colorRect = true := by decide +kernel
    rw [fixOrKeep_eq, hedit, List.filter_cons_of_pos hneeds]
    rfl
  have hset : FixStrategy.colorRect.SetsOff edited ∧ FixStrategy.colorAtOffset.SetsOff inner :=
    ⟨⟨by decide +kernel, by decide +kernel⟩, ⟨by decide +kernel, by decide +kernel⟩⟩
  have hafter : eachBelow FixStrategy.colorRect.editFrom [] [edited] = [edited] ∧
      eachBelow FixStrategy.colorAtOffset.editFrom [] [inner] = [edited] := by decide +kernel
  have hneeds : needsNote (stack [edited]) .colorRect = false ∧
      needsNote (stack [inner]) .colorAtOffset = true := by decide +kernel
  constructor
  · rw [fixAll, List.foldl_cons, houter, List.foldl_cons, fixOrKeep_stack_notesFor
      (List.forall_mem_singleton.mpr hset.1) (List.cons_ne_nil _ _) (by decide), hafter.1,
      List.filter_cons_of_neg (by simp [hneeds.1])]
    rfl
  · rw [fixAll, List.foldl_cons, hinner, List.foldl_cons, fixOrKeep_stack_notesFor
      (List.forall_mem_singleton.mpr hset.2) (List.cons_ne_nil _ _) (by decide), hafter.2,
      List.filter_cons_of_pos hneeds.2]
    rfl

theorem fixedCodes_of_nestedCalls :
    ∃ fixed repaired,
      (∃ answer, (call 900 .fixCompatibility noFiles rootDetector (argumentsFor nestedCalls [])).1 =
          .ok answer.indentedText ∧ HoldsFixed answer fixed) ∧
      (∃ answer, (call 900 .validateScript noFiles rootDetector (repairArguments nestedCalls)).1 =
          .ok answer.indentedText ∧ HoldsFixed answer repaired) ∧
      ¬ SameButNotes fixed repaired := by
  have hreported : reportedStrategies nestedCalls.toList = [.colorAtOffset, .colorRect] := by
    decide
  have hlines : lineOf nestedCalls.toList .colorAtOffset = 1 ∧
      lineOf nestedCalls.toList .colorRect = 2 := by decide
  have hlast : strategiesFromLast nestedCalls.toList = [.colorRect, .colorAtOffset] := by
    rw [strategiesFromLast, hreported]
    simp [List.mergeSort, hlines]
  have hcode : (argumentsFor nestedCalls []).get? "code" = some (.str nestedCalls) := rfl
  have hcode' : (repairArguments nestedCalls).get? "code" = some (.str nestedCalls) := rfl
  have hfixed := fixesTo_fixAll 900 noFiles rootDetector hcode rfl
  have hrepaired := repairsTo_fixAll 900 noFiles rootDetector hcode' rfl
  refine ⟨_, _, fixesTo_argumentsFor (by decide) hfixed, call_eq_ok (by decide) hrepaired,
    fun hsame => ?_⟩
  have hlength := hsame.length_eq
  obtain ⟨back, hnote⟩ := exists_fixNote FixStrategy.colorRect.rule.change
  rw [hreported, hlast, fixAll_nestedCalls.1, fixAll_nestedCalls.2] at hlength
  simp [notesFor, hnote] at hlength
  omega

end MigrationTool

end EditorLink
