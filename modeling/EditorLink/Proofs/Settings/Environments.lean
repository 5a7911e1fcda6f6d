import Mathlib.Data.List.Forall2
import EditorLink.Settings

/-!
# Which environments give settings

Every setting reads one variable, and most take some texts only. An environment in which each given
text is taken gives settings, and these are in their ranges. Any other environment is refused, and
the refusal lists the settings with a bad text, each once and in their order. The texts that are
numbers are those that the reader of numbers reads, whatever it is.
-/

namespace EditorLink

/-! ## Signs of doubles -/

namespace Double

theorem unitsAt_none (exponent own : Int) : unitsAt exponent false 0 own = 0 := by
  simp [unitsAt]

/-- A finite double as a multiple of a unit: its sign, and a size that is none only of a zero. -/
theorem unitsAt_eq (exponent own : Int) (negative : Bool) (significand : Nat) :
    ∃ size : Nat, (size = 0 ↔ significand = 0) ∧
      unitsAt exponent negative significand own = if negative then -(size : Int) else size := by
  refine ⟨significand * Nat.pow 2 (own - exponent).natAbs, ?_, rfl⟩
  rw [Nat.mul_eq_zero]
  exact or_iff_left (Nat.ne_of_gt (Nat.two_pow_pos _))

theorem zero_lt (x : Double) : zero.lt x = x.isPositive := by
  cases x with
  | finite negative significand exponent =>
    obtain ⟨size, hsize, hunits⟩ :=
      unitsAt_eq (min minExponent exponent) exponent negative significand
    simp only [zero, lt, unitsAt_none, hunits, isPositive]
    cases negative <;> grind
  | infinite negative => cases negative <;> rfl
  | nan => rfl

theorem isNonnegative_eq (x : Double) : x.isNonnegative = (!x.lt zero && !x.isNaN) := by
  cases x with
  | finite negative significand exponent =>
    obtain ⟨size, hsize, hunits⟩ :=
      unitsAt_eq (min exponent minExponent) exponent negative significand
    simp only [zero, lt, unitsAt_none, hunits, isNonnegative, isPositive, isZero, isNaN]
    cases negative <;> grind
  | infinite negative => cases negative <;> rfl
  | nan => rfl

end Double

/-! ## Accepted forms -/

namespace Form.Checked

variable {α β : Type} {f : Checked (α → β)} {a : Checked α} {b : β}

theorem map_eq_accepted_iff {g : α → β} :
    g <$> a = .accepted b ↔ ∃ value, a = .accepted value ∧ g value = b := by
  cases a with
  | accepted value =>
    constructor
    · intro h
      exact ⟨value, rfl, by injection h⟩
    · rintro ⟨_, ⟨⟩, rfl⟩
      rfl
  | refused faults => exact ⟨fun h => (nomatch h), fun ⟨_, h, _⟩ => (nomatch h)⟩

theorem seq_eq_accepted_iff :
    f <*> a = .accepted b ↔ ∃ g value, f = .accepted g ∧ a = .accepted value ∧ g value = b := by
  cases f with
  | accepted g =>
    cases a with
    | accepted value =>
      constructor
      · intro h
        exact ⟨g, value, rfl, rfl, by injection h⟩
      · rintro ⟨_, _, ⟨⟩, ⟨⟩, rfl⟩
        rfl
    | refused faults => exact ⟨fun h => (nomatch h), fun ⟨_, _, _, h, _⟩ => (nomatch h)⟩
  | refused faults =>
    refine ⟨fun h => ?_, fun ⟨_, _, h, _⟩ => (nomatch h)⟩
    cases a <;> cases h

/-- Without a fault there is a value. -/
def Founded (a : Checked α) : Prop := a.faults = [] → ∃ value, a = .accepted value

theorem Founded.map (g : α → β) (h : a.Founded) : (g <$> a).Founded := by
  intro hfaults
  obtain ⟨value, rfl⟩ := h (faults_map g a ▸ hfaults)
  exact ⟨g value, rfl⟩

theorem Founded.seq (hf : f.Founded) (ha : a.Founded) : (f <*> a).Founded := by
  intro hfaults
  rw [faults_seq, List.append_eq_nil_iff] at hfaults
  obtain ⟨g, rfl⟩ := hf hfaults.1
  obtain ⟨value, rfl⟩ := ha hfaults.2
  exact ⟨g value, rfl⟩

theorem faults_accepted (value : α) : (Checked.accepted value).faults = [] := rfl

theorem founded_accepted (value : α) : (Checked.accepted value).Founded := fun _ => ⟨value, rfl⟩

theorem founded_ofField (field : String) (outcome : Except Problem α) :
    (ofField field outcome).Founded := by
  intro h
  cases outcome with
  | ok value => exact ⟨value, rfl⟩
  | error problem => cases h

theorem ofField_eq_accepted_iff {field : String} {outcome : Except Problem α} {value : α} :
    ofField field outcome = .accepted value ↔ outcome = .ok value := by
  cases outcome with
  | ok given => rw [ofField, Checked.accepted.injEq, Except.ok.injEq]
  | error problem => exact ⟨fun h => (nomatch h), fun h => (nomatch h)⟩

theorem fields_ofField (field : String) (outcome : Except Problem α) :
    (∃ value, outcome = .ok value) ∧ (ofField field outcome).faults.map Fault.field = [] ∨
      (∀ value, outcome ≠ .ok value) ∧
        (ofField field outcome).faults.map Fault.field = [field] := by
  cases outcome with
  | ok value => exact .inl ⟨⟨value, rfl⟩, rfl⟩
  | error problem => exact .inr ⟨fun _ h => (nomatch h), rfl⟩

end Form.Checked

namespace Settings

open Form

/-! ## Texts -/

def HasSocketScheme (cs : List Char) : Prop := "ws://".toList <+: cs ∨ "wss://".toList <+: cs

def UrlText (cs : List Char) (url : String) : Prop := url.toList = cs ∧ HasSocketScheme cs

def AnyText (cs : List Char) (text : String) : Prop := text.toList = cs

section

variable (reader : Number.Reader)

def PositiveText (cs : List Char) (x : Double) : Prop :=
  reader.double? cs = some x ∧ Double.zero.lt x

/-- Not-a-number is not below zero either, but does not count. -/
def NonnegativeText (cs : List Char) (x : Double) : Prop :=
  reader.double? cs = some x ∧ x.lt .zero = false ∧ x.isNaN = false

def CountText (cs : List Char) (n : Int) : Prop := reader.whole cs = .ok n ∧ 0 ≤ n

end

def SwitchText (cs : List Char) (on : Bool) : Prop := on = switchOf cs

/-- A letter and what may be written for it: itself, its small letter, or one of the two letters
beyond ASCII that have an ASCII capital. -/
inductive IsCapitalOf : Char → Char → Prop
  | itself {c : Char} : IsCapitalOf c c
  | small {c : Char} : c.isLower → IsCapitalOf c.toUpper c
  | dotlessI : IsCapitalOf 'I' 'ı'
  | longS : IsCapitalOf 'S' 'ſ'

/-- The name of a level in letters of any case. -/
def LevelText (cs : List Char) (level : String) : Prop :=
  level ∈ logLevels ∧ List.Forall₂ IsCapitalOf level.toList cs

variable {reader : Number.Reader} {cs : List Char}

theorem urlOf_iff (cs : List Char) (url : String) : urlOf cs = .ok url ↔ UrlText cs url := by
  unfold urlOf UrlText HasSocketScheme
  rw [← List.isPrefixOf_iff_prefix, ← List.isPrefixOf_iff_prefix, ← Bool.or_eq_true]
  split
  · next hurl =>
    rw [Except.ok.injEq]
    constructor
    · rintro rfl
      exact ⟨String.toList_ofList, hurl⟩
    · rintro ⟨rfl, -⟩
      exact String.ofList_toList
  · next hother => exact ⟨fun h => (nomatch h), fun h => absurd h.2 hother⟩

/-- A number with a condition on it. -/
theorem numberOf_check_iff (holds : Double → Bool) (problem : Problem) (x : Double) :
    (do let y ← numberOf reader cs; if holds y then Except.ok y else .error problem) = .ok x ↔
      reader.double? cs = some x ∧ holds x = true := by
  unfold numberOf
  cases reader.double? cs with
  | none => exact ⟨fun h => (nomatch h), fun h => (nomatch h.1)⟩
  | some y =>
    change (if holds y then Except.ok y else .error problem) = .ok x ↔ _
    rw [Option.some.injEq]
    split
    · next hy =>
      rw [Except.ok.injEq]
      exact ⟨fun h => ⟨h, h ▸ hy⟩, And.left⟩
    · next hy => exact ⟨fun h => (nomatch h), fun ⟨h, hx⟩ => absurd (h ▸ hx) hy⟩

theorem positiveOf_iff (cs : List Char) (x : Double) :
    positiveOf reader cs = .ok x ↔ PositiveText reader cs x := by
  unfold positiveOf PositiveText
  rw [numberOf_check_iff, Double.zero_lt]

theorem nonnegativeOf_iff (cs : List Char) (x : Double) :
    nonnegativeOf reader cs = .ok x ↔ NonnegativeText reader cs x := by
  unfold nonnegativeOf NonnegativeText
  rw [numberOf_check_iff, Double.isNonnegative_eq, Bool.and_eq_true, Bool.not_eq_true',
    Bool.not_eq_true']

theorem countOf_iff (cs : List Char) (n : Int) :
    countOf reader cs = .ok n ↔ CountText reader cs n := by
  unfold countOf CountText
  cases reader.whole cs with
  | error fault =>
    refine ⟨fun h => ?_, fun h => (nomatch h.1)⟩
    cases fault <;> cases h
  | ok m =>
    change (if m < 0 then Except.error Problem.negative else .ok m) = .ok n ↔ _
    rw [Except.ok.injEq]
    split
    · next hbelow =>
      refine ⟨fun h => (nomatch h), fun ⟨h, hfloor⟩ => ?_⟩
      omega
    · next hfloor =>
      rw [Except.ok.injEq]
      exact ⟨fun h => ⟨h, by omega⟩, And.left⟩

/-! ### Levels -/

theorem isUpper_of_level {level : String} (h : level ∈ logLevels) :
    ∀ c ∈ level.toList, c.isUpper :=
  (by decide : ∀ level ∈ logLevels, ∀ c ∈ level.toList, c.isUpper) level h

theorem isLower_iff {c : Char} : c.isLower ↔ 'a'.val ≤ c.val ∧ c.val ≤ 'z'.val := by
  change (decide ('a'.val ≤ c.val) && decide (c.val ≤ 'z'.val)) = true ↔ _
  rw [Bool.and_eq_true, decide_eq_true_iff, decide_eq_true_iff]

theorem toUpper_of_not_lower {c : Char} (h : ¬ c.isLower) : c.toUpper = c :=
  dif_neg (mt isLower_iff.2 h)

theorem not_lower_of_upper {c : Char} (h : c.isUpper) : ¬ c.isLower := by
  have hto : c.val ≤ 'Z'.val := (of_decide_eq_true h).2
  intro hlower
  have hfrom : 'a'.val ≤ c.val := (isLower_iff.1 hlower).1
  exact absurd (UInt32.le_trans hfrom hto) (by decide)

theorem levelCapital_of_ascii {c : Char} (h : c.isLower ∨ c.isUpper) :
    levelCapital c = c.toUpper := by
  unfold levelCapital
  rw [if_neg, if_neg] <;> rintro rfl <;> exact absurd h (by decide)

theorem levelCapital_eq_iff {capital c : Char} (h : capital.isUpper) :
    levelCapital c = capital ↔ IsCapitalOf capital c := by
  constructor
  · rintro rfl
    unfold levelCapital
    split
    · next hc => exact hc ▸ .dotlessI
    · split
      · next hc => exact hc ▸ .longS
      · by_cases hlower : c.isLower
        · exact .small hlower
        · rw [toUpper_of_not_lower hlower]
          exact .itself
  · intro hcapital
    cases hcapital with
    | itself => rw [levelCapital_of_ascii (.inr h), toUpper_of_not_lower (not_lower_of_upper h)]
    | small hlower => exact levelCapital_of_ascii (.inl hlower)
    | dotlessI => rfl
    | longS => rfl

theorem map_levelCapital_eq_iff {capitals : List Char} (h : ∀ c ∈ capitals, c.isUpper) :
    cs.map levelCapital = capitals ↔ List.Forall₂ IsCapitalOf capitals cs := by
  induction capitals generalizing cs with
  | nil => rw [List.map_eq_nil_iff, List.forall₂_nil_left_iff]
  | cons capital capitals ih =>
    rw [List.forall_mem_cons] at h
    rw [List.map_eq_cons_iff, List.forall₂_cons_left_iff]
    constructor
    · rintro ⟨c, rest, rfl, hc, hrest⟩
      exact ⟨c, rest, (levelCapital_eq_iff h.1).1 hc, (ih h.2).1 hrest, rfl⟩
    · rintro ⟨c, rest, hc, hrest, rfl⟩
      exact ⟨c, rest, rfl, (levelCapital_eq_iff h.1).2 hc, (ih h.2).2 hrest⟩

theorem ofList_capitals_eq_iff {level : String} (h : level ∈ logLevels) :
    String.ofList (cs.map levelCapital) = level ↔ List.Forall₂ IsCapitalOf level.toList cs := by
  rw [← map_levelCapital_eq_iff (isUpper_of_level h), ← String.toList_inj, String.toList_ofList]

theorem logLevelOf_iff (cs : List Char) (level : String) :
    logLevelOf cs = .ok level ↔ LevelText cs level := by
  unfold logLevelOf LevelText
  dsimp only
  split
  · next hlevel =>
    rw [Except.ok.injEq]
    constructor
    · rintro rfl
      exact ⟨hlevel, (ofList_capitals_eq_iff hlevel).1 rfl⟩
    · rintro ⟨hnamed, hwritten⟩
      exact (ofList_capitals_eq_iff hnamed).2 hwritten
  · next hother =>
    refine ⟨fun h => (nomatch h), fun ⟨hnamed, hwritten⟩ => ?_⟩
    exact absurd ((ofList_capitals_eq_iff hnamed).2 hwritten ▸ hnamed) hother

/-! ## Settings from variables -/

/-- What a setting comes to: its default where no text is given, else what the text stands for. -/
inductive Takes {α : Type} (reads : List Char → α → Prop) (default : α) :
    Option (List Char) → α → Prop
  | default : Takes reads default none default
  | given {cs : List Char} {value : α} : reads cs value → Takes reads default (some cs) value

/-- A given text that stands for nothing. -/
def Spoils {α : Type} (reads : List Char → α → Prop) (given : Option (List Char)) : Prop :=
  ∃ cs, given = some cs ∧ ∀ value, ¬ reads cs value

section
variable {α : Type} {environment : Environment} {key field : String} {check : TextCheck α}
  {reads : List Char → α → Prop} {default value : α}

theorem setting_of_none (h : given? environment key = none) :
    setting environment key field check default = .accepted default := by
  rw [setting, h]

theorem setting_of_some {cs : List Char} (h : given? environment key = some cs) :
    setting environment key field check default = .ofField field (check cs) := by
  rw [setting, h]

theorem setting_eq_accepted_iff (hcheck : ∀ cs value, check cs = .ok value ↔ reads cs value) :
    setting environment key field check default = .accepted value ↔
      Takes reads default (given? environment key) value := by
  cases hgiven : given? environment key with
  | none =>
    rw [setting_of_none hgiven]
    constructor
    · intro h
      injection h with h
      exact h ▸ .default
    · rintro ⟨⟩
      rfl
  | some cs =>
    rw [setting_of_some hgiven, Checked.ofField_eq_accepted_iff, hcheck]
    exact ⟨.given, fun | .given h => h⟩

theorem founded_setting : (setting environment key field check default).Founded := by
  cases hgiven : given? environment key with
  | none => exact setting_of_none hgiven ▸ Checked.founded_accepted _
  | some cs => exact setting_of_some hgiven ▸ Checked.founded_ofField _ _

/-- A setting is listed once when its text is bad, and else not at all. -/
theorem fields_setting (hcheck : ∀ cs value, check cs = .ok value ↔ reads cs value) :
    ¬ Spoils reads (given? environment key) ∧
        (setting environment key field check default).faults.map Fault.field = [] ∨
      Spoils reads (given? environment key) ∧
        (setting environment key field check default).faults.map Fault.field = [field] := by
  cases hgiven : given? environment key with
  | none => exact .inl ⟨fun ⟨_, h, _⟩ => (nomatch h), by rw [setting_of_none hgiven]; rfl⟩
  | some cs =>
    rw [setting_of_some hgiven]
    obtain ⟨⟨value, hvalue⟩, hfields⟩ | ⟨hnone, hfields⟩ := Checked.fields_ofField field (check cs)
    · refine .inl ⟨?_, hfields⟩
      rintro ⟨_, ⟨⟩, hspoils⟩
      exact hspoils value ((hcheck _ _).1 hvalue)
    · exact .inr ⟨⟨cs, rfl, fun value h => hnone value ((hcheck _ _).2 h)⟩, hfields⟩

theorem setting_fields_sublist (hcheck : ∀ cs value, check cs = .ok value ↔ reads cs value) :
    ((setting environment key field check default).faults.map Fault.field).Sublist [field] := by
  obtain ⟨-, h⟩ | ⟨-, h⟩ := @fields_setting α environment key field check reads default hcheck
  · exact h ▸ List.nil_sublist _
  · exact h ▸ List.Sublist.refl _

theorem mem_setting_fields (hcheck : ∀ cs value, check cs = .ok value ↔ reads cs value)
    {name : String} :
    name ∈ (setting environment key field check default).faults.map Fault.field ↔
      name = field ∧ Spoils reads (given? environment key) := by
  obtain ⟨hspoils, h⟩ | ⟨hspoils, h⟩ :=
    @fields_setting α environment key field check reads default hcheck
  · rw [h]
    exact ⟨fun h => (nomatch h), fun h => absurd h.2 hspoils⟩
  · rw [h, List.mem_singleton]
    exact ⟨fun h => ⟨h, hspoils⟩, And.left⟩

end

/-- A check that takes every text spoils no setting. -/
theorem not_spoils {α : Type} {reads : List Char → α → Prop} (h : ∀ cs, ∃ value, reads cs value)
    (given : Option (List Char)) : ¬ Spoils reads given := by
  rintro ⟨cs, -, hnone⟩
  obtain ⟨value, hvalue⟩ := h cs
  exact hnone value hvalue

theorem Takes.elim {α : Type} {reads : List Char → α → Prop} {default value : α}
    {given : Option (List Char)} {P : α → Prop} (h : Takes reads default given value)
    (hdefault : P default) (hreads : ∀ {cs value}, reads cs value → P value) : P value := by
  cases h with
  | default => exact hdefault
  | given h => exact hreads h

/-! ## All settings -/

/-- The ranges of the settings. -/
structure Valid (settings : Settings) : Prop where
  url : HasSocketScheme settings.url.toList
  commandTimeout : Double.zero.lt settings.commandTimeout ∧ settings.commandTimeout.isNaN = false
  connectTimeout : Double.zero.lt settings.connectTimeout ∧ settings.connectTimeout.isNaN = false
  maxRetries : 0 ≤ settings.maxRetries
  retryDelay : settings.retryDelay.lt .zero = false ∧ settings.retryDelay.isNaN = false
  logLevel : settings.logLevel ∈ logLevels ∧ ∀ c ∈ settings.logLevel.toList, c.isUpper

/-- Settings that are what the variables of an environment say. -/
structure Follows (reader : Number.Reader) (environment : Environment) (settings : Settings) :
    Prop where
  url : Takes UrlText "ws://localhost:9081" (given? environment "GODOT_MCP_URL") settings.url
  protocol : Takes AnyText "json" (given? environment "GODOT_MCP_PROTOCOL") settings.protocol
  commandTimeout :
    Takes (PositiveText reader) (.ofInt 20) (given? environment "GODOT_MCP_TIMEOUT")
      settings.commandTimeout
  connectTimeout :
    Takes (PositiveText reader) (.ofInt 20) (given? environment "GODOT_MCP_CONNECT_TIMEOUT")
      settings.connectTimeout
  maxRetries :
    Takes (CountText reader) 3 (given? environment "GODOT_MCP_MAX_RETRIES") settings.maxRetries
  retryDelay :
    Takes (NonnegativeText reader) (.ofInt 2) (given? environment "GODOT_MCP_RETRY_DELAY")
      settings.retryDelay
  autoConnect :
    Takes SwitchText true (given? environment "GODOT_MCP_AUTO_CONNECT") settings.autoConnect
  projectPath : Takes AnyText "" (given? environment "GODOT_PROJECT_PATH") settings.projectPath
  logLevel : Takes LevelText "INFO" (given? environment "GODOT_MCP_LOG_LEVEL") settings.logLevel

/-- The settings in their order. -/
def fieldNames : List String :=
  ["url", "protocol", "command_timeout", "connect_timeout", "max_retries", "retry_delay",
    "auto_connect", "project_path", "log_level"]

/-- The settings whose variable holds a text that they do not take. -/
inductive Offends (reader : Number.Reader) (environment : Environment) : String → Prop
  | url : Spoils UrlText (given? environment "GODOT_MCP_URL") → Offends reader environment "url"
  | commandTimeout : Spoils (PositiveText reader) (given? environment "GODOT_MCP_TIMEOUT") →
    Offends reader environment "command_timeout"
  | connectTimeout :
    Spoils (PositiveText reader) (given? environment "GODOT_MCP_CONNECT_TIMEOUT") →
    Offends reader environment "connect_timeout"
  | maxRetries : Spoils (CountText reader) (given? environment "GODOT_MCP_MAX_RETRIES") →
    Offends reader environment "max_retries"
  | retryDelay : Spoils (NonnegativeText reader) (given? environment "GODOT_MCP_RETRY_DELAY") →
    Offends reader environment "retry_delay"
  | logLevel : Spoils LevelText (given? environment "GODOT_MCP_LOG_LEVEL") →
    Offends reader environment "log_level"

variable {environment : Environment} {settings : Settings}

theorem not_nan_of_positive {x : Double} (h : Double.zero.lt x) : x.isNaN = false := by
  rw [Bool.eq_false_iff]
  intro hnan
  rw [Double.zero_lt, Double.isPositive_of_nan hnan] at h
  cases h

theorem positive_of_takes {x : Double} {given : Option (List Char)}
    (h : Takes (PositiveText reader) (.ofInt 20) given x) : Double.zero.lt x ∧ x.isNaN = false := by
  have hpositive : Double.zero.lt x :=
    h.elim (P := fun x => Double.zero.lt x) (by decide +kernel) And.right
  exact ⟨hpositive, not_nan_of_positive hpositive⟩

theorem Follows.valid (h : Follows reader environment settings) : settings.Valid where
  url :=
    h.url.elim (P := fun url => HasSocketScheme url.toList) (.inl (by decide)) fun hurl =>
      hurl.1 ▸ hurl.2
  commandTimeout := positive_of_takes h.commandTimeout
  connectTimeout := positive_of_takes h.connectTimeout
  maxRetries := h.maxRetries.elim (P := fun n => 0 ≤ n) (by decide) And.right
  retryDelay :=
    h.retryDelay.elim (P := fun x => x.lt .zero = false ∧ x.isNaN = false)
      (by decide +kernel) And.right
  logLevel := by
    have hnamed := h.logLevel.elim (P := (· ∈ logLevels)) (by decide) And.left
    exact ⟨hnamed, isUpper_of_level hnamed⟩

theorem projectPath_eq_iff {path : String} :
    (environment.lookup "GODOT_PROJECT_PATH").getD "" = path ↔
      Takes AnyText "" (given? environment "GODOT_PROJECT_PATH") path := by
  unfold given?
  cases environment.lookup "GODOT_PROJECT_PATH" with
  | none => exact ⟨fun h => h ▸ .default, fun | .default => rfl⟩
  | some text =>
    dsimp only [Option.getD_some]
    split
    · next hempty => exact ⟨fun h => h ▸ hempty ▸ .default, fun | .default => hempty⟩
    · exact ⟨fun h => .given (h ▸ rfl), fun | .given h => (String.toList_inj.1 h).symm⟩

theorem ofList_eq_iff (cs : List Char) (text : String) :
    (Except.ok (String.ofList cs) : Except Problem String) = .ok text ↔ AnyText cs text := by
  rw [Except.ok.injEq, AnyText, ← String.toList_inj, String.toList_ofList, eq_comm]

theorem switchOf_iff (cs : List Char) (on : Bool) :
    (Except.ok (switchOf cs) : Except Problem Bool) = .ok on ↔ SwitchText cs on := by
  rw [Except.ok.injEq, SwitchText, eq_comm]

theorem ofEnvironment_eq_accepted_iff :
    ofEnvironment reader environment = .accepted settings ↔ Follows reader environment settings := by
  constructor
  · intro h
    -- the last setting is the outermost one
    obtain ⟨_, _, h₁, hlogLevel, rfl⟩ := Checked.seq_eq_accepted_iff.1 h
    obtain ⟨_, _, h₂, hprojectPath, rfl⟩ := Checked.seq_eq_accepted_iff.1 h₁
    obtain ⟨_, _, h₃, hautoConnect, rfl⟩ := Checked.seq_eq_accepted_iff.1 h₂
    obtain ⟨_, _, h₄, hretryDelay, rfl⟩ := Checked.seq_eq_accepted_iff.1 h₃
    obtain ⟨_, _, h₅, hmaxRetries, rfl⟩ := Checked.seq_eq_accepted_iff.1 h₄
    obtain ⟨_, _, h₆, hconnectTimeout, rfl⟩ := Checked.seq_eq_accepted_iff.1 h₅
    obtain ⟨_, _, h₇, hcommandTimeout, rfl⟩ := Checked.seq_eq_accepted_iff.1 h₆
    obtain ⟨_, _, h₈, hprotocol, rfl⟩ := Checked.seq_eq_accepted_iff.1 h₇
    obtain ⟨_, hurl, rfl⟩ := Checked.map_eq_accepted_iff.1 h₈
    exact {
      url := (setting_eq_accepted_iff urlOf_iff).1 hurl
      protocol := (setting_eq_accepted_iff ofList_eq_iff).1 hprotocol
      commandTimeout := (setting_eq_accepted_iff positiveOf_iff).1 hcommandTimeout
      connectTimeout := (setting_eq_accepted_iff positiveOf_iff).1 hconnectTimeout
      maxRetries := (setting_eq_accepted_iff countOf_iff).1 hmaxRetries
      retryDelay := (setting_eq_accepted_iff nonnegativeOf_iff).1 hretryDelay
      autoConnect := (setting_eq_accepted_iff switchOf_iff).1 hautoConnect
      projectPath := projectPath_eq_iff.1 (Checked.accepted.inj hprojectPath)
      logLevel := (setting_eq_accepted_iff logLevelOf_iff).1 hlogLevel }
  · intro h
    rw [ofEnvironment, (setting_eq_accepted_iff urlOf_iff).2 h.url,
      (setting_eq_accepted_iff ofList_eq_iff).2 h.protocol,
      (setting_eq_accepted_iff positiveOf_iff).2 h.commandTimeout,
      (setting_eq_accepted_iff positiveOf_iff).2 h.connectTimeout,
      (setting_eq_accepted_iff countOf_iff).2 h.maxRetries,
      (setting_eq_accepted_iff nonnegativeOf_iff).2 h.retryDelay,
      (setting_eq_accepted_iff switchOf_iff).2 h.autoConnect, projectPath_eq_iff.2 h.projectPath,
      (setting_eq_accepted_iff logLevelOf_iff).2 h.logLevel]
    rfl

theorem founded_ofEnvironment (reader : Number.Reader) (environment : Environment) :
    (ofEnvironment reader environment).Founded :=
  ((((((((founded_setting.map _).seq founded_setting).seq founded_setting).seq
    founded_setting).seq founded_setting).seq founded_setting).seq founded_setting).seq
      (Checked.founded_accepted _)).seq founded_setting

theorem fields_sublist (reader : Number.Reader) (environment : Environment) :
    ((ofEnvironment reader environment).faults.map Fault.field).Sublist fieldNames := by
  simp only [ofEnvironment, Checked.faults_seq, Checked.faults_map, List.map_append]
  -- the lists of the settings are joined from the left, as the settings are
  exact ((((((((setting_fields_sublist urlOf_iff).append
    (setting_fields_sublist ofList_eq_iff)).append (setting_fields_sublist positiveOf_iff)).append
    (setting_fields_sublist positiveOf_iff)).append (setting_fields_sublist countOf_iff)).append
    (setting_fields_sublist nonnegativeOf_iff)).append
    (setting_fields_sublist switchOf_iff)).append (List.nil_sublist ["project_path"])).append
    (setting_fields_sublist logLevelOf_iff)

theorem mem_fields_iff (reader : Number.Reader) (environment : Environment) (field : String) :
    field ∈ (ofEnvironment reader environment).faults.map Fault.field ↔
      Offends reader environment field := by
  have hprotocol (given) : ¬ Spoils AnyText given :=
    not_spoils (fun cs => ⟨String.ofList cs, String.toList_ofList⟩) given
  have hautoConnect (given) : ¬ Spoils SwitchText given :=
    not_spoils (fun cs => (⟨switchOf cs, rfl⟩ : ∃ on, SwitchText cs on)) given
  simp only [ofEnvironment, Checked.faults_seq, Checked.faults_map, List.map_append,
    Checked.faults_accepted, List.append_nil, List.mem_append,
    mem_setting_fields urlOf_iff, mem_setting_fields ofList_eq_iff,
    mem_setting_fields positiveOf_iff, mem_setting_fields countOf_iff,
    mem_setting_fields nonnegativeOf_iff, mem_setting_fields switchOf_iff,
    mem_setting_fields logLevelOf_iff, hprotocol, hautoConnect, and_false, or_false]
  constructor
  · rintro (((((⟨rfl, h⟩ | ⟨rfl, h⟩) | ⟨rfl, h⟩) | ⟨rfl, h⟩) | ⟨rfl, h⟩) | ⟨rfl, h⟩)
    · exact .url h
    · exact .commandTimeout h
    · exact .connectTimeout h
    · exact .maxRetries h
    · exact .retryDelay h
    · exact .logLevel h
  · rintro (h | h | h | h | h | h) <;> simp [h]

/-- However numbers are read, an environment gives settings that are in their ranges, or a refusal of
exactly the settings with a text that they do not take. -/
theorem ofEnvironment_valid_or_refused (reader : Number.Reader) (environment : Environment) :
    (∃ settings, ofEnvironment reader environment = .accepted settings ∧ settings.Valid ∧
        Follows reader environment settings ∧ ∀ field, ¬ Offends reader environment field) ∨
      ∃ faults, ofEnvironment reader environment = .refused faults ∧ faults ≠ [] ∧
        (faults.map Fault.field).Sublist fieldNames ∧ (faults.map Fault.field).Nodup ∧
        ∀ field, field ∈ faults.map Fault.field ↔ Offends reader environment field := by
  have hfields := fields_sublist reader environment
  have hmem := mem_fields_iff reader environment
  cases h : ofEnvironment reader environment with
  | accepted settings =>
    have hfollows := ofEnvironment_eq_accepted_iff.1 h
    rw [h] at hmem
    exact .inl ⟨settings, rfl, hfollows.valid, hfollows,
      fun field hoffends => nomatch (hmem field).2 hoffends⟩
  | refused faults =>
    rw [h] at hfields hmem
    refine .inr ⟨faults, rfl, ?_, hfields, hfields.nodup (by decide), hmem⟩
    rintro rfl
    obtain ⟨settings, hsettings⟩ := founded_ofEnvironment reader environment (h ▸ rfl)
    exact nomatch h.symm.trans hsettings

example :
    (ofEnvironment Number.typed [("GODOT_MCP_RETRY_DELAY", "nan"), ("GODOT_MCP_URL", "http://host"),
      ("GODOT_MCP_MAX_RETRIES", "")]).faults.map Fault.field = ["url", "retry_delay"] := by
  decide +kernel

end Settings

end EditorLink
