import EditorLink.Proofs.Project.Memory
import EditorLink.Tool.MigrationTool

/-!
# Calls and the shared detector

A call that names a project of its own works with a detector of its own. Such calls could be left
out of any sequence: what the shared detector remembers, and what the other calls answer, would be
the same.
-/

namespace EditorLink.MigrationTool

open Project

/-! ## Effects of calls -/

section

variable {α β : Type} {R : Detector → Detector → Prop}

/-- The shared detector before a call is related to the one after it, whatever the outcome. -/
def Effect (R : Detector → Detector → Prop) (call : Call α) : Prop :=
  ∀ detector, R detector (call.run detector).2

theorem run_bind (call : Call α) (next : α → Call β) (detector : Detector) :
    (call >>= next).run detector =
      match call.run detector with
      | (.ok a, after) => (next a).run after
      | (.error fault, after) => (.error fault, after) := by
  change ExceptT.bindCont next (call detector).1 (call detector).2 = _
  change _ = match call detector with | (.ok a, after) => _ | (.error fault, after) => _
  obtain ⟨fault | a, after⟩ := call detector <;> rfl

theorem Effect.bind {call : Call α} {next : α → Call β} (htrans : ∀ a b c, R a b → R b c → R a c)
    (hcall : Effect R call) (hnext : ∀ a, Effect R (next a)) : Effect R (call >>= next) := by
  intro detector
  have hfirst := hcall detector
  rw [run_bind]
  generalize call.run detector = found at hfirst ⊢
  obtain ⟨fault | a, after⟩ := found
  · exact hfirst
  · exact htrans _ _ _ hfirst (hnext a after)

theorem effect_pure (hrefl : ∀ a, R a a) (a : α) : Effect R (pure a : Call α) :=
  fun detector => hrefl detector

theorem effect_lift (hrefl : ∀ a, R a a) (outcome : Except CallFault α) :
    Effect R (liftM outcome : Call α) :=
  fun detector => hrefl detector

variable {arguments : Fields} {files : Files}

theorem effect_resolveTarget (hrefl : ∀ a, R a a) (htrans : ∀ a b c, R a b → R b c → R a c)
    (hdetect : Effect R (detecting arguments fun detector => detector.detect files)) :
    Effect R (resolveTarget files arguments) := by
  simp only [resolveTarget]
  split
  · refine hdetect.bind htrans fun found => ?_
    rcases found with fault | info | info <;> exact effect_pure hrefl _
  · exact effect_pure hrefl _

/-- The advice once the project was looked at. -/
def adviceOn (arguments : Fields) (found : Except FileFault (Option VersionInfo)) : Call Value :=
  match found with
  | .error fault => return refusal ("Could not get migration advice: " ++ fault.message) []
  | .ok info => do
    let (source, target) := versionsOf arguments info
    return adviceAnswer source target (← adviceFor source target)

theorem runAdvice_eq (files : Files) (arguments : Fields) : runAdvice files arguments =
    (if (arguments.getOrNull "projectPath").isTruthy then
      detecting arguments fun detector => detector.detect files
    else pure (.ok none)) >>= adviceOn arguments := by
  unfold runAdvice
  split <;> rfl

/-- A tool does to the shared detector what the search for the project does to it. -/
theorem effect_run (tool : MigrationTool) (hrefl : ∀ a, R a a)
    (htrans : ∀ a b c, R a b → R b c → R a c)
    (hdetect : Effect R (detecting arguments fun detector => detector.detect files))
    (hsurvey : Effect R (detecting arguments fun detector => detector.survey files)) :
    Effect R (tool.run files arguments) := by
  have htarget := effect_resolveTarget hrefl htrans hdetect
  cases tool with
  | detectVersion =>
    refine hsurvey.bind htrans fun found => ?_
    rcases found with fault | ⟨info | info, project⟩ <;> exact effect_pure hrefl _
  | checkCompatibility =>
    refine htarget.bind htrans fun found => ?_
    rcases found with fault | target
    · exact effect_pure hrefl _
    · refine (effect_lift hrefl _).bind htrans fun code => ?_
      exact (effect_lift hrefl _).bind htrans fun script => effect_pure hrefl _
  | fixCompatibility =>
    refine (effect_lift hrefl _).bind htrans fun code => htarget.bind htrans fun found => ?_
    rcases found with fault | target
    · exact effect_pure hrefl _
    · refine (effect_lift hrefl _).bind htrans fun script => ?_
      refine (effect_lift hrefl _).bind htrans fun toFix => ?_
      split <;> exact effect_pure hrefl _
  | migrationAdvice =>
    change Effect R (runAdvice files arguments)
    rw [runAdvice_eq]
    refine Effect.bind htrans ?_ fun found => ?_
    · split
      · exact hdetect
      · exact effect_pure hrefl _
    · rcases found with fault | info
      · exact effect_pure hrefl _
      · exact (effect_lift hrefl _).bind htrans fun advice => effect_pure hrefl _
  | validateScript =>
    refine hdetect.bind htrans fun found => ?_
    refine (effect_lift hrefl _).bind htrans fun code => ?_
    exact (effect_lift hrefl _).bind htrans fun script => effect_pure hrefl _

end

/-! ## What single calls do to the shared detector -/

variable {arguments : Fields} {files : Files}

theorem effect_detecting_of_named {α : Type} (h : (arguments.getOrNull "projectPath").isTruthy)
    (detect : Detector → Detection α) :
    Effect (fun before after => after = before) (detecting arguments detect) := by
  intro detector
  simp only [detecting, h, if_true]
  cases arguments.getOrNull "projectPath" <;> rfl

theorem detecting_of_unnamed {α : Type} (h : (arguments.getOrNull "projectPath").isTruthy = false)
    (detect : Detector → Detection α) (detector : Detector) :
    (detecting arguments detect).run detector =
      match detect detector with
      | .ok (found, after) => (.ok (.ok found), after)
      | .error fault => (.ok (.error fault), detector) := by
  simp only [detecting, h, Bool.false_eq_true, if_false]
  rw [run_bind]
  change (match detect detector with
    | .ok (found, after) => _ | .error fault => _ : Call _).run detector = _
  cases detect detector <;> rfl

/-- A call that names a project leaves the shared detector alone. -/
theorem call_of_named (room : Nat) (tool : MigrationTool) (files : Files) (detector : Detector)
    (h : (arguments.getOrNull "projectPath").isTruthy) :
    (tool.call room files detector arguments).2 = detector :=
  effect_run (R := fun before after => after = before) tool (fun _ => rfl)
    (fun _ _ _ hab hbc => hbc.trans hab) (effect_detecting_of_named h _)
    (effect_detecting_of_named h _) detector

theorem effect_detecting_of_keeps {α : Type} {detect : Detector → Detection α}
    (h : ∀ {detector answer after}, detect detector = .ok (answer, after) →
      after.directory = detector.directory) (arguments : Fields) :
    Effect (fun before after => after.directory = before.directory)
      (detecting arguments detect) := by
  intro detector
  by_cases hnamed : (arguments.getOrNull "projectPath").isTruthy
  · exact congrArg _ (effect_detecting_of_named hnamed detect detector)
  · rw [detecting_of_unnamed (by simpa using hnamed)]
    cases hdetect : detect detector with
    | error fault => rfl
    | ok found => exact h hdetect

/-- No call points the shared detector at another directory. -/
theorem call_keeps_directory (room : Nat) (tool : MigrationTool) (files : Files)
    (detector : Detector) (arguments : Fields) :
    (tool.call room files detector arguments).2.directory = detector.directory := by
  refine effect_run (R := fun before after => after.directory = before.directory) tool
    (fun _ => rfl) (fun _ _ _ hab hbc => hbc.trans hab) (effect_detecting_of_keeps ?_ arguments)
    (effect_detecting_of_keeps ?_ arguments) detector
  · exact fun {detector _ _} hdetect => @Site.detect_keeps_directory ⟨files, detector⟩ _ _ hdetect
  · intro detector answer after hsurvey
    rw [Site.survey_eq ⟨files, detector⟩] at hsurvey
    cases hdetect : detector.detect files with
    | error fault =>
      rw [hdetect] at hsurvey
      cases hsurvey
    | ok found =>
      rw [hdetect] at hsurvey
      cases hsurvey
      exact @Site.detect_keeps_directory ⟨files, detector⟩ _ _ hdetect

/-! ## Sequences of calls -/

/-- A call of a tool, with the files as they are at that time. -/
structure Request where
  tool : MigrationTool
  arguments : Fields
  files : Files

def Request.namesProject (request : Request) : Bool :=
  (request.arguments.getOrNull "projectPath").isTruthy

/-- The outcomes of some calls, one after the other, and the shared detector after them. -/
def serve (room : Nat) (detector : Detector) :
    List Request → List (Request × Except CallFault String) × Detector
  | [] => ([], detector)
  | request :: requests =>
    let (outcome, after) := request.tool.call room request.files detector request.arguments
    let (outcomes, last) := serve room after requests
    ((request, outcome) :: outcomes, last)

/-- In every sequence of calls the shared detector keeps its directory, and without the calls that
name a project it would remember the same and all other calls would answer the same. -/
theorem serve_without_named (room : Nat) (detector : Detector) (requests : List Request) :
    (serve room detector requests).2.directory = detector.directory ∧
      (serve room detector (requests.filter (!·.namesProject))).2 = (serve room detector requests).2 ∧
      (serve room detector (requests.filter (!·.namesProject))).1 =
        (serve room detector requests).1.filter (!·.1.namesProject) := by
  induction requests generalizing detector with
  | nil => exact ⟨rfl, rfl, rfl⟩
  | cons request requests ih =>
    obtain ⟨hdirectory, hdetector, houtcomes⟩ :=
      ih (request.tool.call room request.files detector request.arguments).2
    refine ⟨hdirectory.trans (call_keeps_directory _ _ _ _ _), ?_⟩
    cases hnamed : request.namesProject with
    | true =>
      rw [call_of_named _ _ _ _ hnamed] at hdetector houtcomes
      simp [serve, hnamed, call_of_named _ _ _ _ hnamed, hdetector, houtcomes]
    | false => simp [serve, hnamed, hdetector, houtcomes]

end EditorLink.MigrationTool
