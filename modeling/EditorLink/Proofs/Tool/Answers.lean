import EditorLink.Proofs.Json.Spelling
import EditorLink.Proofs.Tool.Acceptance
import EditorLink.Proofs.Tool.FixReport
import EditorLink.Proofs.Tool.SharedDetector
import EditorLink.Server

/-!
# Answers of migration tools

A call with accepted arguments is always answered, without the editor, whatever the files and the
shared detector hold. The answer is a JSON object that tells whether the call had success; it had
none just where the check of the project file failed and the tool needs it, or where a version was
asked for and there is none.
-/

namespace EditorLink.MigrationTool

open Migration Project Tool

/-! ## Answers -/

/-- A document is an object that tells whether there was success, and is not deep. -/
def Says (answer : Value) (success : Bool) : Prop :=
  ∃ fields : Fields, answer = .obj fields ∧ answer.Plain 6 ∧ fields.keys.Nodup ∧
    fields.get? "success" = some (.bool success)

theorem says_success {data : Fields} (h : (Value.obj data).Plain 5) : Says (success data) true :=
  ⟨_, rfl, by simpa [success] using h, by simp [Fields.keys], rfl⟩

theorem says_refusal (message : String) : Says (refusal message []) false :=
  ⟨_, rfl, by simp [refusal], by simp [Fields.keys], rfl⟩

theorem says_noVersionAnswer : Says noVersionAnswer false :=
  ⟨_, rfl, by simp [noVersionAnswer, refusal], by simp [Fields.keys], rfl⟩

variable {depth : Nat}

theorem plain_version (info : VersionInfo) : info.record.Plain (depth + 2) := by
  simp [VersionInfo.record]

theorem plain_projectRecord (project : Option (Config × VersionInfo)) :
    (projectRecord project).Plain (depth + 3) := by
  refine Value.plain_ofOption ?_ project
  rintro ⟨config, info⟩
  have hautoloads : (Value.obj (config.autoloads.map fun entry =>
      (String.ofList entry.1, .str (String.ofList entry.2)))).Plain (depth + 2) := by
    rw [Value.plain_obj_iff, List.forall_mem_map]
    simp
  simpa [Config.record, plain_version] using hautoloads

theorem says_versionAnswer (info : VersionInfo) (project : Option (Config × VersionInfo)) :
    Says (versionAnswer info project) true :=
  says_success (by simp [plain_version, plain_projectRecord])

theorem plain_changeFields (change : ApiChange) : (Value.obj change.fields).Plain (depth + 1) := by
  simp [ApiChange.fields]

theorem plain_issueRecord (change : ApiChange) : (issueRecord change).Plain (depth + 1) := by
  have hfields : ∀ field ∈ change.fields, field.2.Plain depth :=
    Value.plain_obj_iff.mp (plain_changeFields change)
  rw [issueRecord, Value.plain_obj_iff, List.forall_mem_append]
  exact ⟨hfields, by simp⟩

theorem says_checkAnswer (target : String) (issues : List ApiChange) :
    Says (checkAnswer (.str target) issues) true :=
  says_success (by simp [plain_issueRecord])

theorem says_nothingToFixAnswer (script : List Char) : Says (nothingToFixAnswer script) true :=
  says_success (by simp [scriptValue])

theorem says_fixAnswer (target : String) (script : List Char) (issues toFix : List ApiChange) :
    Says (fixAnswer (.str target) script issues toFix) true :=
  says_success (by simp [scriptValue, AppliedFix.record])

theorem says_adviceAnswer (source target : String) (advice : List String) :
    Says (adviceAnswer (.str source) (.str target) advice) true :=
  says_success (by simp [breakingRecord])

theorem plain_review (review : Review) : review.record.Plain (depth + 4) := by
  simp [Review.record, Review.Error.record, Review.Warning.record, Review.Suggestion.record,
    Review.Summary.record]

theorem says_validationAnswer (review : Review) (repaired : Option (List Char)) :
    Says (validationAnswer review repaired) true := by
  cases repaired <;> exact says_success (by simp [optionalField, plain_review, scriptValue])

/-! ## Calls that have a result -/

section

variable {α β : Type} {detector : Detector} {call : Call α} {post : α → Prop}

/-- A call has a result, of which something is true. -/
def Gives (detector : Detector) (call : Call α) (post : α → Prop) : Prop :=
  ∃ a, (call.run detector).1 = .ok a ∧ post a

theorem Gives.bind {next : α → Call β} {post' : β → Prop} (hcall : Gives detector call post)
    (hnext : ∀ a, post a → ∀ after, Gives after (next a) post') :
    Gives detector (call >>= next) post' := by
  obtain ⟨a, hresult, ha⟩ := hcall
  unfold Gives
  rw [run_bind]
  generalize call.run detector = found at hresult ⊢
  obtain ⟨outcome, after⟩ := found
  obtain rfl : outcome = .ok a := hresult
  exact hnext a ha after

theorem gives_pure {a : α} (h : post a) : Gives detector (pure a) post := ⟨a, rfl, h⟩

theorem Gives.lift_bind {outcome : Except CallFault α} {a : α} {next : α → Call β}
    {post' : β → Prop} (houtcome : outcome = .ok a) (hnext : Gives detector (next a) post') :
    Gives detector (liftM outcome >>= next) post' := by
  subst houtcome
  exact hnext

end

/-! ## Accepted arguments -/

variable {arguments : Fields} {files : Files} {detector : Detector} {tool : MigrationTool}

/-- An argument is left out or a text. -/
def IsTextOrNull (arguments : Fields) (key : String) : Prop :=
  arguments.getOrNull key = .null ∨ ∃ s, arguments.getOrNull key = .str s

theorem isTextOrNull_of_accepts {key text : String} (h : tool.schema.accepts arguments)
    (hmem : textProperty key text ∈ tool.schema.properties) : IsTextOrNull arguments key :=
  (Schema.getOrNull_of_accepts h hmem).imp_right PropertyKind.Admits.eq_str

theorem projectPath_of_accepts (h : tool.schema.accepts arguments) :
    IsTextOrNull arguments "projectPath" := by
  cases tool with
  | detectVersion => exact isTextOrNull_of_accepts h (.head _)
  | checkCompatibility => exact isTextOrNull_of_accepts h (.tail _ (.tail _ (.head _)))
  | fixCompatibility => exact isTextOrNull_of_accepts h (.tail _ (.tail _ (.tail _ (.head _))))
  | migrationAdvice => exact isTextOrNull_of_accepts h (.tail _ (.tail _ (.head _)))
  | validateScript => exact isTextOrNull_of_accepts h (.tail _ (.head _))

theorem code_of_accepts {text : String} (h : tool.schema.accepts arguments)
    (hmem : textProperty "code" text ∈ tool.schema.properties)
    (hrequired : "code" ∈ tool.schema.required) : ∃ s, arguments.argument "code" = .ok (.str s) := by
  obtain ⟨value, hvalue, hadmits⟩ := Schema.argument_of_accepts h hmem hrequired
  obtain ⟨s, rfl⟩ := PropertyKind.Admits.eq_str hadmits
  exact ⟨s, hvalue⟩

theorem targetVersion_of_accepts (h : tool.schema.accepts arguments)
    (hmem : targetProperty ∈ tool.schema.properties) : IsTextOrNull arguments "targetVersion" := by
  refine (Schema.getOrNull_of_accepts h hmem).imp_right fun hadmits => ?_
  obtain ⟨s, -, hs⟩ := PropertyKind.Admits.eq_offered hadmits
  exact ⟨s, hs⟩

theorem asksFor_of_accepts (h : (schema .fixCompatibility).accepts arguments) :
    ∃ categories, AsksFor arguments categories := by
  have hissues : arguments.getOrNull "issueIds" = .null ∨
      PropertyKind.textList.Admits (arguments.getOrNull "issueIds") :=
    Schema.getOrNull_of_accepts h (.tail _ (.head _))
  unfold AsksFor
  rcases hissues with hnull | hadmits
  · exact ⟨[], by rw [hnull]; rfl⟩
  · obtain ⟨items, hitems⟩ := hadmits.eq_strings
    refine ⟨items.map .str, ?_⟩
    rw [hitems]
    cases items <;> rfl

theorem orElse_str (s fallback : String) :
    ∃ t, (Value.str s).orElse (.str fallback) = .str t := by
  rw [Value.orElse]
  split <;> exact ⟨_, rfl⟩

theorem IsTextOrNull.orElse {key : String} (h : IsTextOrNull arguments key) (fallback : String) :
    ∃ s, (arguments.getOrNull key).orElse (.str fallback) = .str s := by
  rcases h with hnull | ⟨s, hs⟩
  · exact ⟨fallback, by rw [hnull]; rfl⟩
  · rw [hs]
    exact orElse_str s fallback

/-! ## The check of the project file -/

/-- The detector that a call works with. -/
def projectOf (detector : Detector) (arguments : Fields) : Detector :=
  match arguments.getOrNull "projectPath" with
  | .str path => if path = "" then detector else { directory := .ofText path.toList }
  | _ => detector

/-- The project that a call is about. -/
def siteOf (files : Files) (detector : Detector) (arguments : Fields) : Site :=
  ⟨files, projectOf detector arguments⟩

/-- Whether a call checks that there is a project file. -/
def checksFile (arguments : Fields) : MigrationTool → Bool
  | detectVersion | validateScript => true
  | checkCompatibility | fixCompatibility =>
    ((arguments.getOrNull "targetVersion").orElse (.str "auto")).isStr "auto" ||
      (arguments.getOrNull "projectPath").isTruthy
  | migrationAdvice => (arguments.getOrNull "projectPath").isTruthy

/-- An outcome is a fault just where the project file is checked and the check fails. -/
def FailsWithCheck {α : Type} (site : Site) (checked : Bool) (found : Except FileFault α) : Prop :=
  ∀ fault, found = .error fault ↔ checked ∧ site.file? = .error fault

theorem failsWithCheck_detect (site : Site) :
    FailsWithCheck site true ((site.detector.detect site.files).map (·.1)) := by
  intro fault
  rw [← Site.detect_eq_error_iff, and_iff_right rfl]
  cases site.detector.detect site.files <;> simp [Except.map]

theorem failsWithCheck_unchecked {α : Type} (site : Site) (a : α) :
    FailsWithCheck site false (.ok a) := by
  simp [FailsWithCheck]

theorem FailsWithCheck.map {α β : Type} {site : Site} {checked : Bool}
    {found : Except FileFault α} (h : FailsWithCheck site checked found) (f : α → β) :
    FailsWithCheck site checked (found.map f) := by
  intro fault
  rw [← h fault]
  cases found <;> simp [Except.map]

theorem gives_detecting {α : Type} (h : IsTextOrNull arguments "projectPath")
    (detect : Detector → Detection α) : Gives detector (detecting arguments detect)
      (· = (detect (projectOf detector arguments)).map (·.1)) := by
  cases hnamed : (arguments.getOrNull "projectPath").isTruthy with
  | false =>
    have hproject : projectOf detector arguments = detector := by
      rcases h with hnull | ⟨path, hpath⟩
      · rw [projectOf, hnull]
      · rw [hpath] at hnamed
        simp only [projectOf, hpath]
        exact if_pos (by simpa [Value.isTruthy] using hnamed)
    rw [hproject, Gives, detecting_of_unnamed hnamed]
    cases detect detector with
    | error fault => exact ⟨_, rfl, rfl⟩
    | ok found => exact ⟨_, rfl, rfl⟩
  | true =>
    obtain hnull | ⟨path, hpath⟩ := h
    · rw [hnull] at hnamed
      cases hnamed
    · have hproject : projectOf detector arguments = { directory := .ofText path.toList } := by
        rw [hpath] at hnamed
        simp only [projectOf, hpath]
        exact if_neg (by simpa [Value.isTruthy] using hnamed)
      simp only [detecting, hnamed, if_true]
      rw [hpath, hproject]
      exact gives_pure rfl

/-- The target is found unless the check of the project file fails, and is a text. -/
theorem gives_resolveTarget (hproject : IsTextOrNull arguments "projectPath")
    (htarget : IsTextOrNull arguments "targetVersion") :
    Gives detector (resolveTarget files arguments) fun found =>
      FailsWithCheck (siteOf files detector arguments) (checksFile arguments .checkCompatibility)
        found ∧ ∀ target, found = .ok target → ∃ s, target = .str s := by
  obtain ⟨s, hs⟩ := htarget.orElse "auto"
  simp only [resolveTarget, checksFile, hs]
  split
  · next hchecked =>
    refine (gives_detecting hproject _).bind fun found hfound _ => ?_
    have hfails : FailsWithCheck (siteOf files detector arguments) true found :=
      hfound ▸ failsWithCheck_detect (siteOf files detector arguments)
    rw [hchecked]
    rcases found with fault | info | info
    · exact gives_pure ⟨hfails.map fun _ => .null, fun target htarget => by cases htarget⟩
    · refine gives_pure ⟨hfails.map fun _ => _, ?_⟩
      rintro target ⟨⟩
      split <;> exact ⟨_, rfl⟩
    · refine gives_pure ⟨hfails.map fun _ => _, ?_⟩
      rintro target ⟨⟩
      exact ⟨_, rfl⟩
  · next hunchecked =>
    rw [Bool.not_eq_true] at hunchecked
    rw [hunchecked]
    refine gives_pure ⟨failsWithCheck_unchecked _ _, ?_⟩
    rintro target ⟨⟩
    split <;> exact ⟨_, rfl⟩

/-! ## Calls of single tools -/

/-- A call has no success: the check of the project file fails, which the review of scripts puts up
with, or a version is asked for and there is none. -/
def Refuses (tool : MigrationTool) (site : Site) (arguments : Fields) : Prop :=
  tool ≠ validateScript ∧ checksFile arguments tool ∧ (∃ fault, site.file? = .error fault) ∨
    tool = detectVersion ∧ ∃ after, site.detector.detect site.files = .ok (none, after)

/-- A document says that there was success, unless the call is refused. -/
def Answers (tool : MigrationTool) (site : Site) (arguments : Fields) (answer : Value) : Prop :=
  ∃ success, Says answer success ∧ (success = false ↔ Refuses tool site arguments)

section

variable {site : Site} {answer : Value}

theorem answers_of_success (h : Says answer true) (hrefuses : ¬ Refuses tool site arguments) :
    Answers tool site arguments answer :=
  ⟨true, h, iff_of_false Bool.noConfusion hrefuses⟩

theorem answers_of_refusal (h : Says answer false) (hrefuses : Refuses tool site arguments) :
    Answers tool site arguments answer :=
  ⟨false, h, iff_of_true rfl hrefuses⟩

variable {α : Type} {found : Except FileFault α}

theorem refuses_of_fault {fault : FileFault} (htool : tool ≠ validateScript)
    (h : FailsWithCheck site (checksFile arguments tool) (.error fault : Except FileFault α)) :
    Refuses tool site arguments :=
  have ⟨hchecks, hfile⟩ := (h fault).mp rfl
  .inl ⟨htool, hchecks, fault, hfile⟩

theorem not_refuses_of_ok {a : α} (htool : tool ≠ detectVersion)
    (h : FailsWithCheck site (checksFile arguments tool) (.ok a)) :
    ¬ Refuses tool site arguments := by
  rintro (⟨-, hchecks, fault, hfile⟩ | ⟨htool', -⟩)
  · cases (h fault).mpr ⟨hchecks, hfile⟩
  · exact htool htool'

end

theorem gives_runDetectVersion (h : (schema .detectVersion).accepts arguments) :
    Gives detector (runDetectVersion files arguments)
      (Answers .detectVersion (siteOf files detector arguments) arguments) := by
  refine (gives_detecting (projectPath_of_accepts h) _).bind fun found hfound _ => ?_
  rw [show (projectOf detector arguments).survey files = _ from
    Site.survey_eq (siteOf files detector arguments)] at hfound
  generalize hcall : (siteOf files detector arguments).detector.detect
    (siteOf files detector arguments).files = outcome at hfound
  subst hfound
  rcases outcome with fault | ⟨info | info, after⟩
  · exact gives_pure (answers_of_refusal (says_refusal _)
      (.inl ⟨by decide, rfl, fault, Site.detect_eq_error_iff.mp hcall⟩))
  · exact gives_pure (answers_of_refusal says_noVersionAnswer (.inr ⟨rfl, after, hcall⟩))
  · refine gives_pure (answers_of_success (says_versionAnswer _ _) ?_)
    rintro (⟨-, -, fault, hfile⟩ | ⟨-, after', hnone⟩)
    · cases hcall.symm.trans (Site.detect_eq_error_iff.mpr hfile)
    · cases hcall.symm.trans hnone

theorem gives_runCheck (h : (schema .checkCompatibility).accepts arguments) :
    Gives detector (runCheck files arguments)
      (Answers .checkCompatibility (siteOf files detector arguments) arguments) := by
  obtain ⟨code, hcode⟩ := code_of_accepts h (.head _) (.head _)
  refine (gives_resolveTarget (projectPath_of_accepts h)
    (targetVersion_of_accepts h (.tail _ (.head _)))).bind fun found hfound _ => ?_
  obtain ⟨hfails, htext⟩ := hfound
  rcases found with fault | target
  · exact gives_pure (answers_of_refusal (says_refusal _) (refuses_of_fault (by decide) hfails))
  · obtain ⟨s, rfl⟩ := htext target rfl
    refine .lift_bind hcode (.lift_bind rfl ?_)
    exact gives_pure (answers_of_success (says_checkAnswer s _)
      (not_refuses_of_ok (by decide) hfails))

theorem gives_runFix (h : (schema .fixCompatibility).accepts arguments) :
    Gives detector (runFix files arguments)
      (Answers .fixCompatibility (siteOf files detector arguments) arguments) := by
  obtain ⟨code, hcode⟩ := code_of_accepts h (.head _) (.head _)
  obtain ⟨categories, hasks⟩ := asksFor_of_accepts h
  refine .lift_bind hcode ?_
  refine (gives_resolveTarget (projectPath_of_accepts h)
    (targetVersion_of_accepts h (.tail _ (.tail _ (.head _))))).bind fun found hfound _ => ?_
  obtain ⟨hfails, htext⟩ := hfound
  rcases found with fault | target
  · exact gives_pure (answers_of_refusal (says_refusal _) (refuses_of_fault (by decide) hfails))
  · obtain ⟨s, rfl⟩ := htext target rfl
    have hrefuses : ¬ Refuses .fixCompatibility (siteOf files detector arguments) arguments :=
      not_refuses_of_ok (by decide) hfails
    refine .lift_bind rfl (.lift_bind (wantedChanges_eq hasks _) ?_)
    split
    · exact gives_pure (answers_of_success (says_nothingToFixAnswer _) hrefuses)
    · exact gives_pure (answers_of_success (says_fixAnswer s _ _ _) hrefuses)

theorem versionsOf_eq_texts (hfrom : IsTextOrNull arguments "fromVersion")
    (hto : IsTextOrNull arguments "toVersion") (info : Option VersionInfo) :
    ∃ source target, versionsOf arguments info = (.str source, .str target) := by
  cases info with
  | none =>
    obtain ⟨source, hsource⟩ := hfrom.orElse "3.x"
    obtain ⟨target, htarget⟩ := hto.orElse "4.x"
    exact ⟨source, target, Prod.ext hsource htarget⟩
  | some info =>
    obtain ⟨source, hsource⟩ := hfrom.orElse (majorText info.release.major)
    obtain ⟨target, htarget⟩ := hto.orElse (if info.release.major = 3 then "4.x" else "3.x")
    obtain ⟨source', hsource'⟩ := orElse_str source "3.x"
    obtain ⟨target', htarget'⟩ := orElse_str target "4.x"
    refine ⟨source', target', ?_⟩
    rw [versionsOf, hsource, htarget, hsource', htarget']

theorem adviceFor_texts (source target : String) :
    ∃ advice, adviceFor (.str source) (.str target) = .ok advice := by
  cases hsource : "3.".isPrefixOf source <;> cases htarget : "4.".isPrefixOf target <;>
    exact ⟨_, by simp only [adviceFor, startsWith, hsource, htarget]; rfl⟩

theorem gives_runAdvice (h : (schema .migrationAdvice).accepts arguments) :
    Gives detector (runAdvice files arguments)
      (Answers .migrationAdvice (siteOf files detector arguments) arguments) := by
  have hlook : Gives detector
      (if (arguments.getOrNull "projectPath").isTruthy then
        detecting arguments fun detector => detector.detect files
      else pure (.ok none))
      (FailsWithCheck (siteOf files detector arguments) (checksFile arguments .migrationAdvice)) := by
    rw [checksFile]
    split
    · next hnamed =>
      rw [hnamed]
      obtain ⟨found, hgives, rfl⟩ := gives_detecting (projectPath_of_accepts h) _
      exact ⟨_, hgives, failsWithCheck_detect (siteOf files detector arguments)⟩
    · next hunnamed =>
      rw [Bool.not_eq_true] at hunnamed
      rw [hunnamed]
      exact gives_pure (failsWithCheck_unchecked _ _)
  rw [runAdvice_eq]
  refine hlook.bind fun found hfails _ => ?_
  rcases found with fault | info
  · exact gives_pure (answers_of_refusal (says_refusal _) (refuses_of_fault (by decide) hfails))
  · obtain ⟨source, target, hversions⟩ := versionsOf_eq_texts
      (isTextOrNull_of_accepts h (.head _)) (isTextOrNull_of_accepts h (.tail _ (.head _))) info
    obtain ⟨advice, hadvice⟩ := adviceFor_texts source target
    simp only [adviceOn, hversions]
    refine .lift_bind hadvice (gives_pure ?_)
    exact answers_of_success (says_adviceAnswer _ _ _)
      (not_refuses_of_ok (by decide) hfails)

theorem gives_runValidate (h : (schema .validateScript).accepts arguments) :
    Gives detector (runValidate files arguments)
      (Answers .validateScript (siteOf files detector arguments) arguments) := by
  obtain ⟨code, hcode⟩ := code_of_accepts h (.head _) (.head _)
  refine (gives_detecting (projectPath_of_accepts h) _).bind fun found _ _ => ?_
  refine .lift_bind hcode (.lift_bind rfl ?_)
  exact gives_pure (answers_of_success (says_validationAnswer _ _) (by simp [Refuses]))

/-! ## Calls -/

/-- A text is JSON for an object that tells whether there was success. -/
def Tells (text : String) (success : Bool) : Prop :=
  ∃ fields : Fields, Json.Spells text.toList (.obj fields) ∧ fields.keys.Nodup ∧
    fields.get? "success" = some (.bool success)

theorem Says.tells {answer : Value} {success : Bool} (h : Says answer success) :
    Tells answer.indentedText success := by
  obtain ⟨fields, rfl, hplain, hkeys, hsuccess⟩ := h
  exact ⟨fields, Json.spells_write Json.lawful_indented hplain 0, hkeys, hsuccess⟩

/-- Where there is room for six levels, a call with accepted arguments is answered. -/
theorem call_of_accepts (files : Files) (detector : Detector) {room : Nat} (hroom : 6 ≤ room)
    (h : (schema tool).accepts arguments) :
    ∃ answer, (tool.call room files detector arguments).1 = .ok answer.indentedText ∧
      Answers tool (siteOf files detector arguments) arguments answer := by
  have hgives : Gives detector (tool.run files arguments)
      (Answers tool (siteOf files detector arguments) arguments) := by
    cases tool with
    | detectVersion => exact gives_runDetectVersion h
    | checkCompatibility => exact gives_runCheck h
    | fixCompatibility => exact gives_runFix h
    | migrationAdvice => exact gives_runAdvice h
    | validateScript => exact gives_runValidate h
  obtain ⟨answer, hresult, hanswers⟩ := hgives
  have hnesting : answer.nesting ≤ room := by
    obtain ⟨success, ⟨fields, -, hplain, -⟩, -⟩ := hanswers
    exact Nat.le_trans hplain.nesting_le hroom
  exact ⟨answer, congrArg Prod.fst (call_of_run (Prod.ext hresult rfl) hnesting), hanswers⟩

/-- Where there is room for six levels, a call with accepted arguments sends nothing to the editor
and is answered, and the answer tells that it had success unless it is refused. -/
theorem call_answers (room : Nat) (tool : MigrationTool) (files : Files) (detector : Detector)
    (arguments : Fields) (hroom : 6 ≤ room) (h : tool.schema.accepts arguments) :
    let exchange := ((AnyTool.migration tool).call room files detector arguments).1
    (∀ editor, exchange.sent editor = []) ∧
      ∃ text success, (∀ editor, exchange.result editor = .ok text) ∧ Tells text success ∧
        (success = false ↔ Refuses tool (siteOf files detector arguments) arguments) := by
  obtain ⟨answer, hcall, success, hsays, hrefuses⟩ :=
    call_of_accepts files detector hroom h
  exact ⟨fun editor => rfl, answer.indentedText, success, fun editor => hcall, hsays.tells,
    hrefuses⟩

/-- Arguments for a project with a name that is too long for a directory. -/
def longNameArguments : Fields :=
  [("code", .str "pass"), ("projectPath", .str (String.ofList (List.replicate 256 'p')))]

/-- The check of a script is refused where the project's name is too long. -/
theorem call_answers_longName :
    let exchange :=
      ((AnyTool.migration .checkCompatibility).call 900 ({} : FileTree).files rootDetector
        longNameArguments).1
    (schema .checkCompatibility).accepts longNameArguments ∧
      (∀ editor, exchange.sent editor = []) ∧
      ∃ text, (∀ editor, exchange.result editor = .ok text) ∧ Tells text false := by
  have haccepts : (schema .checkCompatibility).accepts longNameArguments := by decide
  have hfault : ∃ fault,
      (siteOf ({} : FileTree).files rootDetector longNameArguments).file? = .error fault :=
    ⟨⟨.nameTooLong, (projectOf rootDetector longNameArguments).configPath.text⟩, by decide +kernel⟩
  obtain ⟨hsent, text, success, hresult, htells, hrefuses⟩ := call_answers 900 .checkCompatibility
    ({} : FileTree).files rootDetector longNameArguments (by decide) haccepts
  obtain rfl := hrefuses.mpr (.inl ⟨by decide, by decide, hfault⟩)
  exact ⟨haccepts, hsent, text, hresult, htells⟩

end EditorLink.MigrationTool
