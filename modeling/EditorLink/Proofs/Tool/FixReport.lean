import EditorLink.Proofs.Exchange.Faults
import EditorLink.Proofs.Project.Memory
import EditorLink.Tool.MigrationTool

/-!
# Reports of the fix tool

A call of the fix tool selects changes by category, or all of them. Its answer counts the reported
changes that the call leaves out, before anything is fixed: what the fixes bring about has no part
in the count.
-/

namespace EditorLink.MigrationTool

open Migration Project

variable {arguments : Fields} {categories : List Value}

/-! ## Selected changes -/

/-- Whether a call for some categories is meant for a change; a call for none is meant for all. -/
def isSelected (categories : List Value) (change : ApiChange) : Bool :=
  categories.isEmpty || categories.any (·.isStr change.category)

theorem isSelected_nil (change : ApiChange) : isSelected [] change := rfl

/-- The list of categories that a call asks for, the empty one where it is left out. -/
def AsksFor (arguments : Fields) (categories : List Value) : Prop :=
  (arguments.getOrNull "issueIds").orElse (.arr []) = .arr categories

theorem filterM_ok {α : Type} (p : α → Bool) (items : List α) :
    items.filterM (fun item => (Except.ok (p item) : Except CallFault Bool)) =
      .ok (items.filter p) := by
  have haux : ∀ kept, List.filterAuxM (fun item => (Except.ok (p item) : Except CallFault Bool))
      items kept = .ok ((items.filter p).reverse ++ kept) := by
    induction items with
    | nil => exact fun kept => rfl
    | cons item items ih =>
      intro kept
      rw [List.filterAuxM]
      refine (ih _).trans ?_
      cases hitem : p item <;> simp [hitem]
  rw [List.filterM, haux]
  exact congrArg Except.ok (by simp)

theorem wantedChanges_eq (hasks : AsksFor arguments categories) (issues : List ApiChange) :
    wantedChanges arguments issues = .ok (issues.filter (isSelected categories)) := by
  unfold AsksFor Value.orElse at hasks
  unfold wantedChanges
  split at hasks
  · next htruthy =>
    have hne : categories.isEmpty = false := by
      rw [hasks] at htruthy
      simpa [Value.isTruthy] using htruthy
    have hselected : isSelected categories = fun change =>
        categories.any (·.isStr change.category) := by
      funext change
      rw [isSelected, hne, Bool.false_or]
    rw [if_pos htruthy, hselected]
    simp only [hasks, isWanted, filterM_ok]
  · next hfalsy =>
    rw [if_neg hfalsy]
    have hnil : categories = [] := by simpa using hasks.symm
    rw [hnil, List.filter_eq_self.mpr fun change _ => isSelected_nil change]

/-! ## Answers -/

def alreadyCompatible : Value := .str "Nothing to fix, the code is already compatible"

/-- What the data of an answer tell about a script and the categories that were asked for: whether
some reported change is selected, and then how many are not. -/
structure Reports (script : List Char) (categories : List Value) (data : Fields) : Prop where
  compatible : data.get? "summary" = some alreadyCompatible ↔
    ∀ change ∈ reportedChanges script, ¬ isSelected categories change
  counts : (data.get? "remainingIssues").isSome ↔
    ∃ change ∈ reportedChanges script, isSelected categories change
  remaining : ∀ value, data.get? "remainingIssues" = some value →
    value = .int ((reportedChanges script).countP (!isSelected categories ·))

theorem appliedSummary_ne (succeeded total : Nat) : s!"Applied {succeeded}/{total} fixes" ≠
    "Nothing to fix, the code is already compatible" := by
  intro heq
  have hhead := congrArg (fun text => text.toList.head?) heq
  simp [ToString.toString] at hhead

theorem length_sub_length_filter {α : Type} (p : α → Bool) (items : List α) :
    (items.length : Int) - (items.filter p).length = items.countP (!p ·) := by
  have hsplit := List.length_eq_countP_add_countP p (l := items)
  simp only [List.countP_eq_length_filter, decide_not, Bool.decide_eq_true] at hsplit ⊢
  omega

theorem nothingToFixAnswer_reports {script : List Char}
    (h : (reportedChanges script).filter (isSelected categories) = []) :
    ∃ data, nothingToFixAnswer script = success data ∧ Reports script categories data := by
  rw [List.filter_eq_nil_iff] at h
  refine ⟨_, rfl, iff_of_true rfl h, ?_, ?_⟩
  · simpa [Fields.get?] using h
  · intro value hvalue
    simp [Fields.get?] at hvalue

theorem fixAnswer_reports {script : List Char} (target : Value)
    (h : (reportedChanges script).filter (isSelected categories) ≠ []) :
    ∃ data, fixAnswer target script (reportedChanges script)
        ((reportedChanges script).filter (isSelected categories)) = success data ∧
      Reports script categories data := by
  obtain ⟨change, hmem⟩ := List.exists_mem_of_ne_nil _ h
  obtain ⟨hreported, hselected⟩ := List.mem_filter.mp hmem
  refine ⟨_, rfl, iff_of_false ?_ fun hnone => hnone change hreported hselected, ?_, ?_⟩
  · simpa [Fields.get?, alreadyCompatible] using appliedSummary_ne _ _
  · simpa [Fields.get?] using ⟨change, hreported, hselected⟩
  · intro value hvalue
    rw [← length_sub_length_filter]
    simpa [Fields.get?] using hvalue.symm

/-! ## Calls -/

/-- An answer that is not too deep is written. -/
theorem call_of_run {tool : MigrationTool} {room : Nat} {files : Files} {detector after : Detector}
    {answer : Value} (h : (tool.run files arguments).run detector = (.ok answer, after))
    (hroom : answer.nesting ≤ room) :
    call room tool files detector arguments = (.ok answer.indentedText, after) := by
  rw [call, h]
  exact congrArg (·, after) (Value.indentedWithin_of_le hroom)

/-- The answer of a call for a script, once its target is known. -/
def fixReport (target : Value) (script : List Char) (categories : List Value) : Value :=
  let toFix := (reportedChanges script).filter (isSelected categories)
  if toFix.isEmpty then nothingToFixAnswer script
  else fixAnswer target script (reportedChanges script) toFix

/-- A call for a script answers about the script once its target is known, and fails just as the
search for the target fails. -/
theorem run_fixCompatibility (files : Files) (detector : Detector) (arguments : Fields)
    {code : String} (hcode : arguments.get? "code" = some (.str code))
    (hasks : AsksFor arguments categories) :
    (run .fixCompatibility files arguments).run detector =
      match (resolveTarget files arguments).run detector with
      | (.ok (.ok target), after) => (.ok (fixReport target code.toList categories), after)
      | (.ok (.error fault), after) => (.ok (refusal ("Fix failed: " ++ fault.message) []), after)
      | (.error fault, after) => (.error fault, after) := by
  have hargument : arguments.argument "code" = .ok (.str code) := by
    rw [Fields.argument, hcode]
  have hwanted := wantedChanges_eq hasks (reportedChanges code.toList)
  have hpure {α : Type} (a : α) : (StateT.pure a : StateM Detector α) = fun state => (a, state) := rfl
  simp only [run, runFix, hargument, bind, liftM, monadLift, MonadLift.monadLift, ExceptT.run,
    ExceptT.bind, ExceptT.mk, StateT.bind, pure, hpure, ExceptT.bindCont]
  generalize resolveTarget files arguments detector = found
  obtain ⟨⟨fault⟩ | ⟨⟨fault⟩ | target⟩, after⟩ := found
  · rfl
  · rfl
  · change ExceptT.bindCont (m := StateM Detector) _ (wantedChanges arguments _) after = _
    rw [hwanted]
    simp only [ExceptT.bindCont, fixReport]
    split <;> rfl

theorem fixReport_reports (target : Value) (script : List Char) (categories : List Value) :
    ∃ data, fixReport target script categories = success data ∧ Reports script categories data := by
  unfold fixReport
  by_cases hnil : (reportedChanges script).filter (isSelected categories) = []
  · rw [if_pos (by rw [hnil]; rfl)]
    exact nothingToFixAnswer_reports hnil
  · rw [if_neg (by simpa using hnil)]
    exact fixAnswer_reports target hnil

/-- The report of a call for a script: it calls the script compatible just when no change that is
reported for it is selected, and the remaining issues are the reported changes that the call is not
meant for. A call fails only where the target cannot be found, or the report cannot be written. -/
theorem call_fixCompatibility_reports (room : Nat) (files : Files) (detector : Detector)
    (arguments : Fields) {code : String} (hcode : arguments.get? "code" = some (.str code))
    (hasks : AsksFor arguments categories) :
    match (resolveTarget files arguments).run detector with
    | (.ok (.ok _), after) => ∃ data,
      call room .fixCompatibility files detector arguments =
          ((success data).indentedWithin room, after) ∧
        Reports code.toList categories data
    | (.ok (.error fault), after) => call room .fixCompatibility files detector arguments =
        ((refusal ("Fix failed: " ++ fault.message) []).indentedWithin room, after)
    | (.error fault, after) =>
      call room .fixCompatibility files detector arguments = (.error fault, after) := by
  have hrun := run_fixCompatibility files detector arguments hcode hasks
  simp only [call, hrun]
  generalize (resolveTarget files arguments).run detector = found
  obtain ⟨⟨fault⟩ | ⟨⟨fault⟩ | target⟩, after⟩ := found
  · rfl
  · rfl
  · obtain ⟨data, hreport, hdata⟩ := fixReport_reports target code.toList categories
    refine ⟨data, ?_, hdata⟩
    rw [← hreport]
    rfl

/-- A call that names its target does not look for a project. -/
theorem resolveTarget_named (files : Files) (detector : Detector) (target : String)
    (htarget : arguments.getOrNull "targetVersion" = .str target) (hnamed : target ≠ "")
    (hauto : target ≠ "auto") (hproject : (arguments.getOrNull "projectPath").isTruthy = false) :
    (resolveTarget files arguments).run detector = (.ok (.ok (.str target)), detector) := by
  have hrequested : (arguments.getOrNull "targetVersion").orElse (.str "auto") = .str target := by
    simp [htarget, Value.orElse, Value.isTruthy, hnamed]
  have hisAuto : (Value.str target).isStr "auto" = false := by
    simpa [Value.isStr] using hauto
  simp only [resolveTarget, hrequested, hisAuto, hproject, Bool.or_self, Bool.false_eq_true,
    if_false]
  rfl

/-- The arguments of a call for the changes of one category in a script of a 4.x project. -/
def argumentsFor (code : String) (categories : List String) : Fields :=
  [("code", .str code), ("targetVersion", .str "4.x"), ("issueIds", .strings categories)]

/-- A call for one of two reported categories: the change of the other one remains. -/
theorem call_fixCompatibility_reports_tween :
    ∃ data, (call 900 .fixCompatibility noFiles rootDetector
        (argumentsFor "x.set_looped() # ColorRect" ["tween"])).1 =
          (success data).indentedWithin 900 ∧
      data.get? "remainingIssues" = some (.int 1) := by
  have hasks : AsksFor (argumentsFor "x.set_looped() # ColorRect" ["tween"]) [.str "tween"] := rfl
  have hreports := call_fixCompatibility_reports 900 noFiles rootDetector
    (argumentsFor "x.set_looped() # ColorRect" ["tween"]) rfl hasks
  rw [resolveTarget_named noFiles rootDetector "4.x" rfl (by decide) (by decide) rfl] at hreports
  obtain ⟨data, hcall, hdata⟩ := hreports
  have hselected : ∃ change ∈ reportedChanges "x.set_looped() # ColorRect".toList,
      isSelected [.str "tween"] change := ⟨setLoopedRemoved, by decide, by decide⟩
  obtain ⟨value, hvalue⟩ := Option.isSome_iff_exists.mp (hdata.counts.mpr hselected)
  refine ⟨data, congrArg Prod.fst hcall, hvalue.trans (congrArg some ?_)⟩
  have hcount : (reportedChanges "x.set_looped() # ColorRect".toList).countP
      (!isSelected [.str "tween"] ·) = 1 := by decide
  rw [hdata.remaining value hvalue, hcount]
  rfl

/-- A change without a strategy is not fixed: none is counted as remaining, and the fixed script is
reported as before. Where no reported change is of the wanted category, the script is called
compatible all the same. -/
theorem report_not_about_fixedCode :
    (∃ data fixed, (call 900 .fixCompatibility noFiles rootDetector
        (argumentsFor "get_shader_parameter(p) + 1" [])).1 = .ok (success data).indentedText ∧
      data.get? "fixedCode" = some (.str fixed) ∧
      data.get? "remainingIssues" = some (.int 0) ∧ (reportedChanges fixed.toList).length = 1) ∧
    ∃ data, (call 900 .fixCompatibility noFiles rootDetector
        (argumentsFor "ColorRect" ["tween"])).1 = .ok (success data).indentedText ∧
      data.get? "summary" = some alreadyCompatible ∧ reportedChanges "ColorRect".toList ≠ [] := by
  constructor
  · have hasks : AsksFor (argumentsFor "get_shader_parameter(p) + 1" []) [] := rfl
    have hrun := run_fixCompatibility noFiles rootDetector _ rfl hasks
    rw [resolveTarget_named noFiles rootDetector "4.x" rfl (by decide) (by decide) rfl] at hrun
    have hreported : reportedChanges "get_shader_parameter(p) + 1".toList =
        [shaderParameterNullable] := by decide
    simp only [fixReport, hreported] at hrun
    exact ⟨_, "get_shader_parameter(p) + 1", congrArg Prod.fst (call_of_run hrun (by decide)), rfl,
      rfl, by rw [hreported]; rfl⟩
  · have hasks : AsksFor (argumentsFor "ColorRect" ["tween"]) [.str "tween"] := rfl
    have hrun := run_fixCompatibility noFiles rootDetector _ rfl hasks
    rw [resolveTarget_named noFiles rootDetector "4.x" rfl (by decide) (by decide) rfl] at hrun
    have hreported : reportedChanges "ColorRect".toList = [colorRectDeprecated] := by decide
    simp only [fixReport, hreported] at hrun
    exact ⟨_, congrArg Prod.fst (call_of_run hrun (by decide)), rfl,
      by rw [hreported]; exact List.cons_ne_nil _ _⟩

end EditorLink.MigrationTool
