import Mathlib.Data.List.Induction
import EditorLink.Project.Detector
import EditorLink.Project.FileTree

/-!
# What a detector remembers

Files come, go and change while a detector is asked and reset. Its answers go back to one moment:
the first call since the last reset that could read the project file. What the file held then is
all that the detector remembers, for as long as the file is there at all.
-/

namespace EditorLink.Project

/-! ## Runs -/

def noFiles : Files := fun _ => .ok none

def rootDetector : Detector where
  directory := ⟨.root, []⟩

/-- A detector and the files it looks at. -/
structure Site where
  files : Files
  detector : Detector

/-- The files change in any way, or the detector is called. -/
inductive Event where
  | change (files : Files)
  | detect
  | config
  | hasMajor (major : Nat)
  | setDirectory (directory : List Char)
  | clear

namespace Event

def looks : Event → Bool
  | detect | config | hasMajor _ => true
  | change _ | setDirectory _ | clear => false

def resets : Event → Bool
  | setDirectory _ | clear => true
  | change _ | detect | config | hasMajor _ => false

theorem not_resets_of_looks {event : Event} (h : event.looks) : ¬ event.resets := by
  cases event <;> simp_all [looks, resets]

end Event

namespace Site

/-- A new detector of a directory. -/
def start (workingDirectory : Path) (directory : List Char) (files : Files) : Site :=
  ⟨files, .ofText workingDirectory directory⟩

/-- A call that fails leaves the detector as it was. -/
def afterCall {α : Type} (site : Site) : Except FileFault (α × Detector) → Site
  | .ok (_, detector) => { site with detector }
  | .error _ => site

def step (site : Site) : Event → Site
  | .change files => { site with files }
  | .detect => site.afterCall (site.detector.detect site.files)
  | .config => site.afterCall (site.detector.config site.files)
  | .hasMajor major => site.afterCall (site.detector.hasMajor site.files major)
  | .setDirectory directory => { site with detector := site.detector.setDirectory directory }
  | .clear => { site with detector := site.detector.clear }

def run (site : Site) (events : List Event) : Site := events.foldl step site

/-- What the check of the project file finds: the file, or that none is there. -/
def file? (site : Site) : Except FileFault (Option File) :=
  site.files site.detector.configPath

/-- The text of the project file, where it is there and can be read. -/
def content? (site : Site) : Option (List Char) :=
  match site.file? with
  | .ok (some present) => Detector.contentOf? present
  | _ => none

def versionOf (site : Site) (content : List Char) : VersionInfo :=
  versionInfo content site.detector.configText

/-- The detector when it has read some content. -/
def remembering (site : Site) (content : List Char) : Detector where
  directory := site.detector.directory
  memory := (site.detector.directory, site.versionOf content) :: site.detector.memory

variable {site : Site} {events before : List Event} {event : Event} {content : List Char}

theorem run_append_singleton (site : Site) (events : List Event) (event : Event) :
    site.run (events ++ [event]) = (site.run events).step event :=
  List.foldl_append

/-! ## Reads since the last reset -/

/-- A call among the events, with no reset after it, finds the project file readable. -/
def Reads (site : Site) (events before : List Event) (content : List Char) : Prop :=
  ∃ event after, events = before ++ event :: after ∧ event.looks ∧
    (∀ later ∈ after, ¬ later.resets) ∧ (site.run before).content? = some content

def NothingRead (site : Site) (events : List Event) : Prop :=
  ∀ before content, ¬ site.Reads events before content

/-- What the project file held at the first call since the last reset that could read it. -/
def FirstRead (site : Site) (events : List Event) (content : List Char) : Prop :=
  ∃ before, site.Reads events before content ∧
    ∀ earlier other, site.Reads events earlier other → before.length ≤ earlier.length

theorem reads_append_singleton : site.Reads (events ++ [event]) before content ↔
    site.Reads events before content ∧ ¬ event.resets ∨
      before = events ∧ event.looks ∧ (site.run events).content? = some content := by
  constructor
  · rintro ⟨call, after, heq, hlooks, hafter, hcontent⟩
    rcases List.eq_nil_or_concat after with rfl | ⟨after, last, rfl⟩
    · obtain ⟨rfl, hcall⟩ := List.append_inj' heq rfl
      obtain rfl := List.singleton_inj.mp hcall
      exact .inr ⟨rfl, hlooks, hcontent⟩
    · rw [List.concat_eq_append, ← List.cons_append, ← List.append_assoc] at heq
      obtain ⟨rfl, hlast⟩ := List.append_inj' heq rfl
      obtain rfl := List.singleton_inj.mp hlast
      rw [List.concat_eq_append, List.forall_mem_append, List.forall_mem_singleton] at hafter
      exact .inl ⟨⟨call, after, rfl, hlooks, hafter.1, hcontent⟩, hafter.2⟩
  · rintro (⟨⟨call, after, rfl, hlooks, hafter, hcontent⟩, hevent⟩ | ⟨rfl, hlooks, hcontent⟩)
    · refine ⟨call, after ++ [event], by simp, hlooks, ?_, hcontent⟩
      rw [List.forall_mem_append, List.forall_mem_singleton]
      exact ⟨hafter, hevent⟩
    · exact ⟨event, [], rfl, hlooks, List.forall_mem_nil _, hcontent⟩

theorem Reads.length_lt (h : site.Reads events before content) : before.length < events.length := by
  obtain ⟨event, after, rfl, -⟩ := h
  simp

theorem Reads.eq_of_length_eq {other : List Event} {content' : List Char}
    (h : site.Reads events before content) (h' : site.Reads events other content')
    (hlength : before.length = other.length) : content = content' := by
  obtain ⟨event, after, rfl, -, -, hcontent⟩ := h
  obtain ⟨event', after', heq, -, -, hcontent'⟩ := h'
  obtain ⟨rfl, -⟩ := List.append_inj heq hlength
  exact Option.some.inj (hcontent.symm.trans hcontent')

theorem FirstRead.unique {content' : List Char} (h : site.FirstRead events content)
    (h' : site.FirstRead events content') : content = content' := by
  obtain ⟨before, hreads, hfirst⟩ := h
  obtain ⟨before', hreads', hfirst'⟩ := h'
  exact hreads.eq_of_length_eq hreads'
    (Nat.le_antisymm (hfirst _ _ hreads') (hfirst' _ _ hreads))

theorem FirstRead.append_singleton (h : site.FirstRead events content) (hevent : ¬ event.resets) :
    site.FirstRead (events ++ [event]) content := by
  obtain ⟨before, hreads, hfirst⟩ := h
  refine ⟨before, reads_append_singleton.mpr (.inl ⟨hreads, hevent⟩), fun earlier other hother => ?_⟩
  rcases reads_append_singleton.mp hother with ⟨hother, -⟩ | ⟨rfl, -, -⟩
  · exact hfirst earlier other hother
  · exact Nat.le_of_lt hreads.length_lt

theorem NothingRead.firstRead (h : site.NothingRead events) (hlooks : event.looks)
    (hcontent : (site.run events).content? = some content) :
    site.FirstRead (events ++ [event]) content := by
  refine ⟨events, reads_append_singleton.mpr (.inr ⟨rfl, hlooks, hcontent⟩),
    fun earlier other hother => ?_⟩
  rcases reads_append_singleton.mp hother with ⟨hother, -⟩ | ⟨rfl, -, -⟩
  · exact absurd hother (h earlier other)
  · exact Nat.le_refl _

theorem NothingRead.append_singleton (h : site.NothingRead events)
    (hevent : ¬ (event.looks ∧ (site.run events).content?.isSome)) :
    site.NothingRead (events ++ [event]) := by
  intro before content hreads
  rcases reads_append_singleton.mp hreads with ⟨hreads, -⟩ | ⟨-, hlooks, hcontent⟩
  · exact h before content hreads
  · exact hevent ⟨hlooks, by rw [hcontent]; rfl⟩

theorem nothingRead_of_resets (hevent : event.resets) : site.NothingRead (events ++ [event]) := by
  intro before content hreads
  rcases reads_append_singleton.mp hreads with ⟨-, hkeeps⟩ | ⟨-, hlooks, -⟩
  · exact hkeeps hevent
  · exact Event.not_resets_of_looks hlooks hevent

/-! ## What a call does -/

theorem content?_eq_some_iff : site.content? = some content ↔
    ∃ present, site.file? = .ok (some present) ∧ Detector.contentOf? present = some content := by
  unfold content?
  split
  · next present hfile => simp [hfile]
  · next hnone =>
    refine iff_of_false (by simp) ?_
    rintro ⟨present, hfile, -⟩
    exact hnone present hfile

theorem detect_of_fault {fault : FileFault} (h : site.file? = .error fault) :
    site.detector.detect site.files = .error fault := by
  rw [file?] at h
  rw [Detector.detect, h]
  rfl

theorem detect_of_missing (h : site.file? = .ok none) :
    site.detector.detect site.files = .ok (none, site.detector) := by
  rw [file?] at h
  rw [Detector.detect, h]
  rfl

theorem detect_of_file {present : File} (h : site.file? = .ok (some present)) :
    site.detector.detect site.files =
      match site.detector.memory.lookup site.detector.directory with
      | some info => .ok (some info, site.detector)
      | none =>
        match Detector.contentOf? present with
        | none => .ok (none, site.detector)
        | some content => .ok (some (site.versionOf content), site.remembering content) := by
  rw [file?] at h
  rw [Detector.detect, h]
  rfl

/-- A call that finds its answer remembered, or finds none, leaves the detector alone; the other ones
read the file. -/
theorem detect_cases {answer : Option VersionInfo} {after : Detector}
    (h : site.detector.detect site.files = .ok (answer, after)) : after = site.detector ∨
      site.detector.memory.lookup site.detector.directory = none ∧
        ∃ content, site.content? = some content ∧ answer = some (site.versionOf content) ∧
          after = site.remembering content := by
  cases hfile : site.file? with
  | error fault =>
    rw [detect_of_fault hfile] at h
    cases h
  | ok file =>
    cases file with
    | none =>
      rw [detect_of_missing hfile] at h
      cases h
      exact .inl rfl
    | some present =>
      rw [detect_of_file hfile] at h
      split at h
      · cases h
        exact .inl rfl
      · next hlookup =>
        split at h
        · cases h
          exact .inl rfl
        · next content hcontent =>
          cases h
          have hread := content?_eq_some_iff.mpr ⟨present, hfile, hcontent⟩
          exact .inr ⟨hlookup, content, hread, rfl, rfl⟩

theorem detect_keeps_directory {answer : Option VersionInfo} {after : Detector}
    (h : site.detector.detect site.files = .ok (answer, after)) :
    after.directory = site.detector.directory := by
  rcases detect_cases h with rfl | ⟨-, content, -, -, rfl⟩ <;> rfl

/-- A version that was found is found again. -/
theorem detect_again {answer : Option VersionInfo} {after : Detector}
    (h : site.detector.detect site.files = .ok (answer, after)) :
    after.detect site.files = .ok (answer, after) := by
  rcases detect_cases h with rfl | ⟨-, content, hcontent, rfl, rfl⟩
  · exact h
  · obtain ⟨present, hfile, -⟩ := content?_eq_some_iff.mp hcontent
    have hagain : (⟨site.files, site.remembering content⟩ : Site).file? = .ok (some present) := hfile
    refine (detect_of_file hagain).trans ?_
    rw [remembering, List.lookup_cons_self]

/-- The configuration is what the file holds now, with the version that `detect` gives. -/
theorem config_eq (site : Site) : site.detector.config site.files =
    match site.detector.detect site.files with
    | .error fault => .error fault
    | .ok (answer, after) => .ok (answer.bind fun info =>
        site.content?.map fun content => (configOf content, info), after) := by
  rw [Detector.config]
  cases hdetect : site.detector.detect site.files with
  | error fault => rfl
  | ok found =>
    obtain ⟨answer, after⟩ := found
    have hpath : after.configPath = site.detector.configPath := by
      rw [Detector.configPath, detect_keeps_directory hdetect]
      rfl
    cases hfile : site.file? with
    | error fault =>
      rw [detect_of_fault hfile] at hdetect
      cases hdetect
    | ok file =>
      have hcontent : site.content? = file.bind Detector.contentOf? := by
        rw [content?, hfile]
        cases file <;> rfl
      rw [file?] at hfile
      simp only [bind, Except.bind, pure, Except.pure, hpath, hfile, hcontent]

/-- The configuration of a survey is the one that `config` gives after the version was found. -/
theorem survey_eq (site : Site) : site.detector.survey site.files =
    match site.detector.detect site.files with
    | .error fault => .error fault
    | .ok (answer, after) => .ok ((answer, answer.bind fun info =>
        site.content?.map fun content => (configOf content, info)), after) := by
  rw [Detector.survey]
  cases hdetect : site.detector.detect site.files with
  | error fault => rfl
  | ok found =>
    obtain ⟨answer, after⟩ := found
    have hcontent : (⟨site.files, after⟩ : Site).content? = site.content? := by
      rw [content?, file?, Detector.configPath, detect_keeps_directory hdetect]
      rfl
    have hconfig := config_eq ⟨site.files, after⟩
    rw [detect_again hdetect, hcontent] at hconfig
    simp only [bind, Except.bind, pure, Except.pure, hconfig]

theorem config_eq_some_iff {config : Config} {info : VersionInfo} {after : Detector} :
    site.detector.config site.files = .ok (some (config, info), after) ↔
      site.detector.detect site.files = .ok (some info, after) ∧
        ∃ content, site.content? = some content ∧ config = configOf content := by
  rw [config_eq]
  cases site.detector.detect site.files with
  | error fault => simp
  | ok found =>
    obtain ⟨answer, after'⟩ := found
    cases answer with
    | none => simp
    | some info' => cases site.content? <;> simp; grind

/-- Every call that looks at the files has the same effect on the detector. -/
theorem step_of_looks (h : event.looks) : site.step event = site.step .detect := by
  cases event with
  | detect => rfl
  | config =>
    simp only [step, config_eq]
    cases site.detector.detect site.files <;> rfl
  | hasMajor major =>
    simp only [step, Detector.hasMajor]
    cases site.detector.detect site.files <;> rfl
  | change => cases h
  | setDirectory => cases h
  | clear => cases h

/-- A call that cannot read the project file, or need not, leaves no trace. -/
theorem step_eq_self (h : event.looks)
    (hkeeps : site.content? = none ∨
      (site.detector.memory.lookup site.detector.directory).isSome) :
    site.step event = site := by
  rw [step_of_looks h, step]
  cases hdetect : site.detector.detect site.files with
  | error fault => rfl
  | ok found =>
    obtain ⟨answer, after⟩ := found
    rcases detect_cases hdetect with rfl | ⟨hlookup, content, hcontent, -⟩
    · rfl
    · simp [hlookup, hcontent] at hkeeps

theorem step_of_read (h : event.looks) (hcontent : site.content? = some content)
    (hmemory : site.detector.memory = []) :
    site.step event = { site with detector := site.remembering content } := by
  obtain ⟨present, hfile, hpresent⟩ := content?_eq_some_iff.mp hcontent
  rw [step_of_looks h, step, detect_of_file hfile, hpresent, hmemory]
  rfl

/-! ## What a run leaves remembered -/

/-- The memory is empty or holds one entry, for the directory and for the content that was read
first since the last reset. -/
def Remembers (site : Site) (events : List Event) : Prop :=
  let now := site.run events
  site.NothingRead events ∧ now.detector.memory = [] ∨
    ∃ content, site.FirstRead events content ∧
      now.detector.memory = [(now.detector.directory, now.versionOf content)]

theorem Remembers.looks (h : site.Remembers events) (hlooks : event.looks) :
    site.Remembers (events ++ [event]) := by
  have hkeeps := Event.not_resets_of_looks hlooks
  unfold Remembers
  rw [run_append_singleton]
  rcases h with ⟨hnothing, hmemory⟩ | ⟨content, hfirst, hmemory⟩
  · cases hcontent : (site.run events).content? with
    | none =>
      refine .inl ⟨hnothing.append_singleton (by simp [hcontent]), ?_⟩
      rw [step_eq_self hlooks (.inl hcontent), hmemory]
    | some content =>
      refine .inr ⟨content, hnothing.firstRead hlooks hcontent, ?_⟩
      rw [step_of_read hlooks hcontent hmemory, remembering, hmemory]
      rfl
  · refine .inr ⟨content, hfirst.append_singleton hkeeps, ?_⟩
    rw [step_eq_self hlooks (.inr (by simp [hmemory]))]
    exact hmemory

theorem Remembers.step (h : site.Remembers events) (event : Event) :
    site.Remembers (events ++ [event]) := by
  cases event with
  | change files =>
    unfold Remembers
    rw [run_append_singleton]
    refine h.imp (And.imp_left fun hnothing => hnothing.append_singleton (by simp [Event.looks])) ?_
    exact fun ⟨content, hfirst, hmemory⟩ =>
      ⟨content, hfirst.append_singleton (by simp [Event.resets]), hmemory⟩
  | detect => exact h.looks rfl
  | config => exact h.looks rfl
  | hasMajor major => exact h.looks rfl
  | setDirectory directory =>
    refine .inl ⟨nothingRead_of_resets rfl, ?_⟩
    rw [run_append_singleton]
    rfl
  | clear =>
    refine .inl ⟨nothingRead_of_resets rfl, ?_⟩
    rw [run_append_singleton]
    rfl

theorem nothingRead_nil (site : Site) : site.NothingRead [] := by
  intro before content hreads
  exact absurd hreads.length_lt (Nat.not_lt_zero _)

theorem remembers (workingDirectory : Path) (directory : List Char) (files : Files)
    (events : List Event) : (start workingDirectory directory files).Remembers events := by
  induction events using List.reverseRecOn with
  | nil => exact .inl ⟨nothingRead_nil _, rfl⟩
  | append_singleton events event ih => exact ih.step event

/-! ## Answers -/

/-- A file that tells nothing. One that can be read does so only where it is not UTF-8. -/
inductive Illegible : File → Prop
  | unreadable : Illegible .unreadable
  | notUtf8 {octets : List Nat} (h : Text.Utf8.decode? octets = none) : Illegible (.readable octets)

theorem contentOf?_eq_none_iff {present : File} :
    Detector.contentOf? present = none ↔ Illegible present := by
  constructor
  · intro h
    cases present with
    | unreadable => exact .unreadable
    | readable octets => exact .notUtf8 (Option.map_eq_none_iff.mp h)
  · intro h
    cases h with
    | unreadable => rfl
    | notUtf8 h => exact Option.map_eq_none_iff.mpr h

theorem FirstRead.not_nothingRead (h : site.FirstRead events content) :
    ¬ site.NothingRead events := by
  obtain ⟨before, hreads, -⟩ := h
  exact fun hnothing => hnothing before content hreads

/-- A version that is found goes back to the content that was read first, by this call at the
latest. -/
theorem Remembers.versionOf_firstRead {info : VersionInfo} {after : Detector}
    (h : site.Remembers events) (hlooks : event.looks)
    (hdetect : (site.run events).detector.detect (site.run events).files = .ok (some info, after)) :
    ∃ content, site.FirstRead (events ++ [event]) content ∧
      info = (site.run events).versionOf content := by
  cases hfile : (site.run events).file? with
  | error fault =>
    rw [detect_of_fault hfile] at hdetect
    cases hdetect
  | ok file =>
    cases file with
    | none =>
      rw [detect_of_missing hfile] at hdetect
      cases hdetect
    | some present =>
      rw [detect_of_file hfile] at hdetect
      rcases h with ⟨hnothing, hmemory⟩ | ⟨first, hfirst, hmemory⟩
      · rw [hmemory, List.lookup_nil] at hdetect
        cases hcontent : Detector.contentOf? present with
        | none =>
          rw [hcontent] at hdetect
          cases hdetect
        | some content =>
          rw [hcontent] at hdetect
          cases hdetect
          have hread := content?_eq_some_iff.mpr ⟨present, hfile, hcontent⟩
          exact ⟨content, hnothing.firstRead hlooks hread, rfl⟩
      · rw [hmemory, List.lookup_cons_self] at hdetect
        cases hdetect
        exact ⟨first, hfirst.append_singleton (Event.not_resets_of_looks hlooks), rfl⟩

theorem Remembers.detect_eq_none_iff {present : File} (h : site.Remembers events)
    (hfile : (site.run events).file? = .ok (some present)) :
    (∃ after, (site.run events).detector.detect (site.run events).files = .ok (none, after)) ↔
      site.NothingRead events ∧ Illegible present := by
  rw [detect_of_file hfile, ← contentOf?_eq_none_iff]
  rcases h with ⟨hnothing, hmemory⟩ | ⟨first, hfirst, hmemory⟩
  · rw [hmemory, List.lookup_nil]
    cases Detector.contentOf? present <;> simp [hnothing]
  · rw [hmemory, List.lookup_cons_self]
    simp [hfirst.not_nothingRead]

theorem exists_detect {file : Option File} (h : site.file? = .ok file) :
    ∃ answer after, site.detector.detect site.files = .ok (answer, after) := by
  cases file with
  | none => exact ⟨_, _, detect_of_missing h⟩
  | some present =>
    rw [detect_of_file h]
    split
    · exact ⟨_, _, rfl⟩
    · split <;> exact ⟨_, _, rfl⟩

/-- A call fails just as the check of the project file does. -/
theorem detect_eq_error_iff {fault : FileFault} :
    site.detector.detect site.files = .error fault ↔ site.file? = .error fault := by
  refine ⟨fun h => ?_, detect_of_fault⟩
  cases hfile : site.file? with
  | error fault' =>
    rw [detect_of_fault hfile] at h
    exact congrArg _ (Except.error.inj h)
  | ok file =>
    obtain ⟨answer, after, hdetect⟩ := exists_detect hfile
    rw [hdetect] at h
    cases h

theorem exists_detect_of_content (h : site.content? = some content) :
    ∃ info after, site.detector.detect site.files = .ok (some info, after) := by
  obtain ⟨present, hfile, hpresent⟩ := content?_eq_some_iff.mp h
  rw [detect_of_file hfile, hpresent]
  split <;> exact ⟨_, _, rfl⟩

/-- In every run a detector finds no version just when no project file is there, or when nothing was
read since the last reset and the file cannot be read or is not UTF-8. Otherwise it answers with the
version in the content that was read first since that reset, by this call at the latest. A call that
cannot read the file leaves no trace, and whatever is remembered belongs to the current directory. -/
theorem detect_answers_firstRead (workingDirectory : Path) (directory : List Char) (files : Files)
    (events : List Event) :
    let site := start workingDirectory directory files
    let now := site.run events
    (∀ file, now.file? = .ok file → ∃ answer after,
      now.detector.detect now.files = .ok (answer, after) ∧
        (answer = none ↔ file = none ∨ site.NothingRead events ∧
          ∃ present, file = some present ∧ Illegible present) ∧
        ∀ info, answer = some info → ∃ content,
          site.FirstRead (events ++ [.detect]) content ∧ info = now.versionOf content) ∧
      (∀ event, event.looks → now.content? = none → now.step event = now) ∧
      ∀ entry ∈ now.detector.memory, entry.1 = now.detector.directory ∧
        ∃ content, site.FirstRead events content ∧ entry.2 = now.versionOf content := by
  intro site now
  have hremembers : site.Remembers events := remembers workingDirectory directory files events
  refine ⟨fun file hfile => ?_, fun event hlooks hnone => step_eq_self hlooks (.inl hnone),
    fun entry hentry => ?_⟩
  · obtain ⟨answer, after, hdetect⟩ := exists_detect hfile
    refine ⟨answer, after, hdetect, ?_, ?_⟩
    · cases file with
      | none =>
        rw [detect_of_missing hfile] at hdetect
        cases hdetect
        simp
      | some present =>
        have hnone := hremembers.detect_eq_none_iff hfile
        rw [show (site.run events).detector.detect (site.run events).files = _ from hdetect] at hnone
        simpa using hnone
    · rintro info rfl
      exact hremembers.versionOf_firstRead rfl hdetect
  · rcases hremembers with ⟨-, hmemory⟩ | ⟨first, hfirst, hmemory⟩
    · rw [show now.detector.memory = [] from hmemory] at hentry
      cases hentry
    · rw [show now.detector.memory = _ from hmemory, List.mem_singleton] at hentry
      exact ⟨by rw [hentry], first, hfirst, by rw [hentry]⟩

/-- A tree with nothing but a project file in the working directory. -/
def projectTree (octets : List Nat) : FileTree where
  nodes := [(["project.godot".toList], .file (.readable octets))]

/-- A new detector of the working directory of a project. -/
def startIn (octets : List Nat) : Site := ⟨(projectTree octets).files, rootDetector⟩

def configVersionLine (digit : Char) : List Nat :=
  Text.Utf8.encode ("config_version=".toList ++ [digit])

/-- The file cannot be read at first, then it can, and then it changes once more. -/
def rewrittenFile : List Event :=
  [.detect, .change (projectTree (configVersionLine '5')).files, .hasMajor 4,
    .change (projectTree (configVersionLine '3')).files]

theorem firstRead_rewrittenFile : (startIn [0xFF]).FirstRead rewrittenFile
    "config_version=5".toList := by
  have hnothing : (startIn [0xFF]).NothingRead
      [.detect, .change (projectTree (configVersionLine '5')).files] := by
    have hunread : ¬ (Event.detect.looks ∧
        ((startIn [0xFF]).run []).content?.isSome) := by decide
    exact ((nothingRead_nil _).append_singleton hunread).append_singleton (by simp [Event.looks])
  have hlooks : (Event.hasMajor 4).looks := rfl
  have hcontent : ((startIn [0xFF]).run
      [.detect, .change (projectTree (configVersionLine '5')).files]).content? =
        some "config_version=5".toList := by decide
  exact (hnothing.firstRead hlooks hcontent).append_singleton (by simp [Event.resets])

/-- What was read first is what the detector goes on answering. -/
theorem detect_answers_firstRead_rewrittenFile :
    let now := (startIn [0xFF]).run rewrittenFile
    ∃ info after, now.detector.detect now.files = .ok (some info, after) ∧ info.release = ⟨4, 2⟩ := by
  intro now
  have hfile : now.file? = .ok (some (.readable (configVersionLine '3'))) := by decide
  obtain ⟨answer, after, hdetect, hnone, hinfo⟩ :=
    (detect_answers_firstRead ⟨.root, []⟩ [] (projectTree [0xFF]).files rewrittenFile).1 _ hfile
  have hreadable : answer ≠ none := by
    rw [Ne, hnone]
    rintro (hmissing | ⟨hnothing, -⟩)
    · cases hmissing
    · exact firstRead_rewrittenFile.not_nothingRead hnothing
  obtain ⟨info, rfl⟩ := Option.ne_none_iff_exists'.mp hreadable
  obtain ⟨content, hfirst, rfl⟩ := hinfo info rfl
  have hcontent := hfirst.unique (firstRead_rewrittenFile.append_singleton (by simp [Event.resets]))
  refine ⟨_, after, hdetect, ?_⟩
  rw [hcontent]
  decide

/-- A configuration of a file that has changed since its version was found. -/
theorem config_not_of_one_content :
    let now := (startIn (configVersionLine '5')).run
      [.detect, .change (projectTree (configVersionLine '3')).files]
    ∃ config info after content, now.detector.config now.files = .ok (some (config, info), after) ∧
      now.content? = some content ∧ info ≠ now.versionOf content := by
  intro now
  have hcontent : now.content? = some "config_version=3".toList := by decide
  have hmemory : now.detector.memory = [(⟨.root, []⟩, ⟨⟨4, 2⟩, [], "/project.godot"⟩)] := by
    decide
  have hdetect : now.detector.detect now.files =
      .ok (some ⟨⟨4, 2⟩, [], "/project.godot"⟩, now.detector) := by
    have hfile : now.file? = .ok (some (.readable (configVersionLine '3'))) := by decide
    rw [detect_of_file hfile, hmemory]
    rfl
  refine ⟨_, _, now.detector, _, config_eq_some_iff.mpr ⟨hdetect, _, hcontent, rfl⟩, hcontent, ?_⟩
  decide

/-- In every run a configuration is given just when the project file can be read now. Name,
description, version and autoloads are those of its content now; the release is that of the content
that was read first since the last reset, which is the content now when nothing was read before. -/
theorem config_of_two_contents (workingDirectory : Path) (directory : List Char) (files : Files)
    (events : List Event) :
    let site := start workingDirectory directory files
    let now := site.run events
    ((∃ found after, now.detector.config now.files = .ok (some found, after)) ↔
        now.content?.isSome) ∧
      ∀ config info after, now.detector.config now.files = .ok (some (config, info), after) →
        ∃ content first, now.content? = some content ∧
          site.FirstRead (events ++ [.config]) first ∧ config = configOf content ∧
          info = now.versionOf first ∧ (site.NothingRead events → first = content) := by
  intro site now
  have hremembers : site.Remembers events := remembers workingDirectory directory files events
  refine ⟨⟨?_, fun hsome => ?_⟩, fun config info after hconfig => ?_⟩
  · rintro ⟨⟨config, info⟩, after, hconfig⟩
    obtain ⟨-, content, hcontent, -⟩ := config_eq_some_iff.mp hconfig
    rw [hcontent]
    rfl
  · obtain ⟨content, hcontent⟩ := Option.isSome_iff_exists.mp hsome
    obtain ⟨info, after, hdetect⟩ := exists_detect_of_content hcontent
    exact ⟨_, after, config_eq_some_iff.mpr ⟨hdetect, content, hcontent, rfl⟩⟩
  · obtain ⟨hdetect, content, hcontent, rfl⟩ := config_eq_some_iff.mp hconfig
    have hlooks : Event.config.looks := rfl
    obtain ⟨first, hfirst, rfl⟩ := hremembers.versionOf_firstRead hlooks hdetect
    exact ⟨content, first, hcontent, hfirst, rfl, rfl, fun hnothing =>
      hfirst.unique (hnothing.firstRead rfl hcontent)⟩

/-- The version in a configuration is the remembered one after the file has changed. -/
theorem config_of_two_contents_rewrittenFile :
    let now := (startIn [0xFF]).run rewrittenFile
    ∃ config info after content, now.detector.config now.files = .ok (some (config, info), after) ∧
      now.content? = some content ∧ config = configOf content ∧ info.release = ⟨4, 2⟩ ∧
      info ≠ now.versionOf content := by
  intro now
  obtain ⟨hgiven, hconfig⟩ :=
    config_of_two_contents ⟨.root, []⟩ [] (projectTree [0xFF]).files rewrittenFile
  have hreadable : now.content?.isSome := by decide
  obtain ⟨⟨config, info⟩, after, hfound⟩ := hgiven.mpr hreadable
  obtain ⟨content, first, hcontent, hfirst, rfl, rfl, -⟩ := hconfig _ _ after hfound
  have hremembered :=
    hfirst.unique (firstRead_rewrittenFile.append_singleton (by simp [Event.resets]))
  have hnow : content = "config_version=3".toList := by
    have hexact : now.content? = some "config_version=3".toList := by decide
    exact Option.some.inj (hcontent.symm.trans hexact)
  refine ⟨_, _, after, content, hfound, hcontent, rfl, ?_, ?_⟩
  · rw [hremembered]
    decide
  · rw [hremembered, hnow]
    decide

end Site

end EditorLink.Project
