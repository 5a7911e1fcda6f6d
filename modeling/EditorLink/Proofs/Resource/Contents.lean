import EditorLink.Proofs.Exchange.Faults
import EditorLink.Resource.Read

/-!
# What resources give

A URI names a fixed resource, or a script by a template. Whatever the editor then replies is given
as a text, except for replies of another shape than is read: no object where its fields are read,
files that cannot be gone through or that are no texts, and a script whose content is no text. Such
a content is passed on as it is, and everything else ends in a fault.
-/

namespace EditorLink

namespace ResourceContent

open Exchange

/-! ## What a URI names -/

inductive Target where
  | fixed (resource : Resource)
  | script (template : ResourceTemplate) (path : List Char)
deriving DecidableEq

def target? (uri : List Char) : Option Target :=
  ((Resource.ofUri? uri).map .fixed).or <|
    (ResourceTemplate.ofUri? uri).map fun (template, path) => .script template path

namespace Target

def mime : Target → String
  | .fixed resource => resource.mime
  | .script template _ => template.mime

def load : Target → Exchange (Except CallFault Value)
  | .fixed resource => resource.load
  | .script template path => template.load path

/-- What a target makes of the editor's result. -/
def reading : Target → Value → Except CallFault Value
  | .fixed .currentScript => Resource.openScript
  | .fixed .scenes => Resource.sceneList
  | .fixed .scripts => Resource.scriptList
  | .script .scriptContent _ => ResourceTemplate.scriptText
  | _ => fun result => .ok (.str result.jsonText)

/-- Whether a target reads the fields of the result, and does not only pass it on. -/
def readsFields : Target → Bool
  | .fixed .currentScript => true
  | .fixed .scenes => true
  | .fixed .scripts => true
  | .script .scriptContent _ => true
  | _ => false

theorem load_eq (target : Target) :
    ∃ name params, target.load = .asking name params target.reading := by
  cases target with
  | fixed resource => cases resource <;> exact ⟨_, _, rfl⟩
  | script template path => cases template <;> exact ⟨_, _, rfl⟩

end Target

theorem read_of_target {uri : List Char} {target : Target} (h : target? uri = some target) :
    read uri = ofMime target.mime <$> target.load := by
  unfold target? at h
  unfold read
  cases hresource : Resource.ofUri? uri with
  | some resource =>
    rw [hresource] at h
    cases h
    rfl
  | none =>
    rw [hresource] at h
    obtain ⟨⟨template, path⟩, htemplate, rfl⟩ := Option.map_eq_some_iff.mp h
    rw [htemplate]
    rfl

theorem read_of_no_target {uri : List Char} (h : target? uri = none) :
    read uri = pure (.error (.unknownResource (String.ofList uri))) := by
  obtain ⟨hresource, htemplate⟩ := Option.or_eq_none_iff.mp h
  rw [read, Option.map_eq_none_iff.mp hresource, Option.map_eq_none_iff.mp htemplate]

/-! ## Replies of another shape -/

/-- The results that a target cannot give as a text, and what its reading ends in instead: a fault,
or a content of another kind. -/
inductive Malformed : Value → Target → Except CallFault Value → Prop
  | noObject {result : Value} {target : Target} (hreads : target.readsFields)
    (hgiven : result.isTruthy) (hkind : result.asFields? = none) :
    Malformed result target (.error (.lacksMember result.kindName "get"))
  | openScript {fields : Fields} {content : Value}
    (hfound : (fields.getOrNull "script_found").isTruthy)
    (hcontent : fields.getOrNull "content" = content) (hgiven : content.isTruthy)
    (hkind : content.asString? = none) :
    Malformed (.obj fields) (.fixed .currentScript) (.ok content)
  | script {fields : Fields} {content : Value} {path : List Char}
    (hcontent : fields.get? "content" = some content) (hkind : content.asString? = none) :
    Malformed (.obj fields) (.script .scriptContent path) (.ok content)
  | flag {fields : Fields} {resource : Resource} (hresource : resource ∈ [.scenes, .scripts])
    (hfiles : fields.getOrNull "files" = .bool true) :
    Malformed (.obj fields) (.fixed resource) (.error (.notIterable "bool"))
  | number {fields : Fields} {resource : Resource} {n : Number}
    (hresource : resource ∈ [.scenes, .scripts]) (hfiles : fields.getOrNull "files" = .num n)
    (hgiven : n.isZero = false) :
    Malformed (.obj fields) (.fixed resource) (.error (.notIterable (Value.num n).kindName))
  | file {fields : Fields} {before after : List Value} {file : Value}
    (hfiles : fields.getOrNull "files" = .arr (before ++ file :: after))
    (hbefore : ∀ other ∈ before, ∃ s, other = .str s) (hkind : file.asString? = none) :
    Malformed (.obj fields) (.fixed .scripts) (.error (.lacksMember file.kindName "endswith"))

/-! ## Reading fields -/

section

open Resource

variable {result : Value} {fields : Fields} {files : List Value} {fault : CallFault}

theorem resultFields_obj (fields : Fields) : resultFields (.obj fields) = .ok fields := by
  cases fields <;> rfl

/-- A result is read as an object, as an empty one, or not at all. -/
theorem resultFields_cases (result : Value) :
    (∃ fields : Fields, result = .obj fields) ∨ resultFields result = .ok [] ∨
      result.isTruthy ∧ result.asFields? = none ∧
        resultFields result = .error (.lacksMember result.kindName "get") := by
  cases hgiven : result.isTruthy with
  | false =>
    right
    left
    rw [resultFields, Value.orElse, hgiven]
    rfl
  | true =>
    cases hkind : result.asFields? with
    | some fields =>
      left
      cases result with
      | obj own => exact ⟨own, rfl⟩
      | _ => cases hkind
    | none =>
      refine .inr (.inr ⟨rfl, rfl, ?_⟩)
      exact Value.orElse_fieldsFor_eq_error_iff.mpr ⟨hgiven, hkind, rfl⟩

theorem hasEnding_eq_error_iff {ending : String} {file : Value} :
    hasEnding ending file = .error fault ↔
      file.asString? = none ∧ fault = .lacksMember file.kindName "endswith" := by
  cases file <;> simp [hasEnding, Value.asString?, eq_comm]

theorem exists_hasEnding_iff {ending : String} {file : Value} :
    (∃ b, hasEnding ending file = .ok b) ↔ ∃ s, file = .str s := by
  cases file <;> simp [hasEnding]

/-- The test of an ending fails at the first file that is no text. -/
theorem filterM_hasEnding_eq_error_iff {ending : String} :
    files.filterM (hasEnding ending) = .error fault ↔ ∃ before file after,
      files = before ++ file :: after ∧ (∀ other ∈ before, ∃ s, other = .str s) ∧
        file.asString? = none ∧ fault = .lacksMember file.kindName "endswith" := by
  rw [filterM_eq_error_iff]
  simp only [exists_hasEnding_iff, hasEnding_eq_error_iff]

theorem namedFiles_obj (fields : Fields) :
    namedFiles (.obj fields) = ((fields.getOrNull "files").orElse (.arr [])).iterated := by
  rw [namedFiles, resultFields_obj]
  rfl

/-- The files that an object names: a list as it is, or texts only, or none that can be gone
through. -/
theorem namedFiles_cases (fields : Fields) :
    (∃ files, namedFiles (.obj fields) = .ok files ∧
      (fields.getOrNull "files" = .arr files ∨ ∀ file ∈ files, ∃ s, file = .str s)) ∨
    (fields.getOrNull "files" = .bool true ∧
      namedFiles (.obj fields) = .error (.notIterable "bool")) ∨
    ∃ n, n.isZero = false ∧ fields.getOrNull "files" = .num n ∧
      namedFiles (.obj fields) = .error (.notIterable (Value.num n).kindName) := by
  rw [namedFiles_obj]
  generalize fields.getOrNull "files" = value
  by_cases hgiven : value.isTruthy
  · rw [Value.orElse, if_pos hgiven]
    cases value with
    | null => cases hgiven
    | bool b =>
      obtain rfl : b = true := hgiven
      exact .inr (.inl ⟨rfl, rfl⟩)
    | num n => exact .inr (.inr ⟨n, by simpa [Value.isTruthy] using hgiven, rfl, rfl⟩)
    | str s =>
      refine .inl ⟨_, rfl, .inr (List.forall_mem_map.mpr fun c _ => ?_)⟩
      exact ⟨String.singleton c, rfl⟩
    | arr files => exact .inl ⟨files, rfl, .inl rfl⟩
    | obj own =>
      refine .inl ⟨_, rfl, .inr (List.forall_mem_map.mpr fun field _ => ?_)⟩
      exact ⟨field.1, rfl⟩
  · rw [Value.orElse, if_neg hgiven]
    exact .inl ⟨[], rfl, .inr (List.forall_mem_nil _)⟩

/-! ## What a target gives -/

/-- A target that reads fields reads nothing else. -/
theorem reading_of_readsFields {target : Target} (h : target.readsFields) :
    ∃ next : Fields → Except CallFault Value,
      ∀ result, target.reading result = resultFields result >>= next := by
  cases target with
  | fixed resource =>
    cases resource with
    | currentScript => exact ⟨_, fun result => rfl⟩
    | scenes | scripts => exact ⟨_, fun result => bind_assoc (resultFields result) _ _⟩
    | _ => cases h
  | script template path =>
    cases template with
    | scriptContent => exact ⟨_, fun result => rfl⟩
    | scriptMetadata => cases h

theorem reading_of_files {resource : Resource} (h : resource ∈ [.scenes, .scripts]) :
    ∃ next : List Value → Except CallFault Value,
      ∀ result, Target.reading (.fixed resource) result = namedFiles result >>= next := by
  have hlisted : resource = .scenes ∨ resource = .scripts := by simpa using h
  rcases hlisted with rfl | rfl
  · exact ⟨_, fun result => rfl⟩
  · exact ⟨_, fun result => rfl⟩

/-- A target gives a text, or the result is malformed for it. -/
def GivesText (result : Value) (target : Target) : Prop :=
  (∃ text, target.reading result = .ok (.str text)) ∨
    Malformed result target (target.reading result)

theorem not_malformed_nil {target : Target} {told : Except CallFault Value} :
    ¬ Malformed (.obj []) target told := by
  intro h
  cases h with
  | noObject _ hgiven _ => cases hgiven
  | openScript hfound _ _ _ => cases hfound
  | script hcontent _ => cases hcontent
  | flag _ hfiles => cases hfiles
  | number _ hfiles _ => cases hfiles
  | file hfiles _ _ => cases hfiles

theorem givesText_of_readsFields {target : Target} (h : target.readsFields)
    (hobject : ∀ fields : Fields, GivesText (.obj fields) target) (result : Value) :
    GivesText result target := by
  obtain ⟨next, hnext⟩ := reading_of_readsFields h
  rcases resultFields_cases result with ⟨fields, rfl⟩ | hnone | ⟨hgiven, hkind, hfault⟩
  · exact hobject fields
  · -- No result is read like an empty object.
    have hsame : target.reading result = target.reading (.obj []) := by
      rw [hnext, hnext, hnone, resultFields_obj]
    rcases hobject [] with ⟨text, htext⟩ | hmalformed
    · exact .inl ⟨text, hsame.trans htext⟩
    · exact absurd hmalformed not_malformed_nil
  · right
    rw [hnext, hfault]
    exact .noObject h hgiven hkind

theorem asString?_cases (value : Value) :
    (∃ text, value = .str text) ∨ value.asString? = none := by
  cases value with
  | str s => exact .inl ⟨s, rfl⟩
  | _ => exact .inr rfl

theorem givesText_openScript (fields : Fields) :
    GivesText (.obj fields) (.fixed .currentScript) := by
  have hread : Target.reading (.fixed .currentScript) (.obj fields) =
      if (fields.getOrNull "script_found").isTruthy && (fields.getOrNull "content").isTruthy
      then .ok (fields.getOrNull "content") else .ok (.str "") := by
    show openScript (.obj fields) = _
    rw [openScript, resultFields_obj]
    rfl
  rw [GivesText, hread]
  split
  · next hopen =>
    obtain ⟨hfound, hgiven⟩ := Bool.and_eq_true_iff.mp hopen
    rcases asString?_cases (fields.getOrNull "content") with ⟨text, htext⟩ | hkind
    · exact .inl ⟨text, congrArg _ htext⟩
    · exact .inr (.openScript hfound rfl hgiven hkind)
  · exact .inl ⟨"", rfl⟩

theorem givesText_script (fields : Fields) (path : List Char) :
    GivesText (.obj fields) (.script .scriptContent path) := by
  have hread : Target.reading (.script .scriptContent path) (.obj fields) =
      .ok ((fields.get? "content").getD (.str "")) := by
    show ResourceTemplate.scriptText (.obj fields) = _
    rw [ResourceTemplate.scriptText, resultFields_obj]
    rfl
  rw [GivesText, hread]
  cases hcontent : fields.get? "content" with
  | none => exact .inl ⟨"", rfl⟩
  | some content =>
    rcases asString?_cases content with ⟨text, rfl⟩ | hkind
    · exact .inl ⟨text, rfl⟩
    · exact .inr (.script hcontent hkind)

theorem givesText_scenes (fields : Fields) : GivesText (.obj fields) (.fixed .scenes) := by
  have hread : Target.reading (.fixed .scenes) (.obj fields) = sceneList (.obj fields) := rfl
  rw [GivesText, hread, sceneList]
  rcases namedFiles_cases fields with
    ⟨files, hfiles, -⟩ | ⟨hflag, hfault⟩ | ⟨n, hn, hnumber, hfault⟩
  · rw [hfiles]
    exact .inl ⟨_, rfl⟩
  · rw [hfault]
    exact .inr (.flag (by simp) hflag)
  · rw [hfault]
    exact .inr (.number (by simp) hnumber hn)

/-- Files that an ending cannot be asked of are a list with something else than texts in it. -/
theorem malformed_of_filterM {ending : String}
    (hfiles : fields.getOrNull "files" = .arr files ∨ ∀ file ∈ files, ∃ s, file = .str s)
    (hfault : files.filterM (hasEnding ending) = .error fault) :
    Malformed (.obj fields) (.fixed .scripts) (.error fault) := by
  obtain ⟨before, file, after, rfl, hbefore, hkind, rfl⟩ :=
    filterM_hasEnding_eq_error_iff.mp hfault
  rcases hfiles with hlist | htexts
  · exact .file hlist hbefore hkind
  · obtain ⟨s, rfl⟩ := htexts file (by simp)
    cases hkind

theorem givesText_scripts (fields : Fields) : GivesText (.obj fields) (.fixed .scripts) := by
  have hread : Target.reading (.fixed .scripts) (.obj fields) = scriptList (.obj fields) := rfl
  rw [GivesText, hread, scriptList]
  rcases namedFiles_cases fields with
    ⟨files, hfiles, hlist⟩ | ⟨hflag, hfault⟩ | ⟨n, hn, hnumber, hfault⟩
  · rw [hfiles]
    show (∃ text, (files.filterM (hasEnding ".gd") >>= _) = _) ∨
      Malformed _ _ (files.filterM (hasEnding ".gd") >>= _)
    cases hown : files.filterM (hasEnding ".gd") with
    | error fault => exact .inr (malformed_of_filterM hlist hown)
    | ok own =>
      show (∃ text, (files.filterM (hasEnding ".cs") >>= _) = _) ∨
        Malformed _ _ (files.filterM (hasEnding ".cs") >>= _)
      cases hother : files.filterM (hasEnding ".cs") with
      | error fault => exact .inr (malformed_of_filterM hlist hother)
      | ok other => exact .inl ⟨_, rfl⟩
  · rw [hfault]
    exact .inr (.flag (by simp) hflag)
  · rw [hfault]
    exact .inr (.number (by simp) hnumber hn)

theorem givesText (result : Value) (target : Target) : GivesText result target := by
  cases target with
  | fixed resource =>
    cases resource with
    | currentScript => exact givesText_of_readsFields rfl givesText_openScript result
    | scenes => exact givesText_of_readsFields rfl givesText_scenes result
    | scripts => exact givesText_of_readsFields rfl givesText_scripts result
    | _ => exact .inl ⟨_, rfl⟩
  | script template path =>
    cases template with
    | scriptMetadata => exact .inl ⟨_, rfl⟩
    | scriptContent =>
      exact givesText_of_readsFields rfl (fun fields => givesText_script fields path) result

theorem Malformed.ne_text {target : Target} {told : Except CallFault Value}
    (h : Malformed result target told) (text : String) : told ≠ .ok (.str text) := by
  intro htext
  cases h with
  | openScript _ _ _ hkind | script _ hkind =>
    cases htext
    cases hkind
  | _ => cases htext

theorem Malformed.reading_eq {target : Target} {told : Except CallFault Value}
    (h : Malformed result target told) : target.reading result = told := by
  cases h with
  | noObject hreads hgiven hkind =>
    obtain ⟨next, hnext⟩ := reading_of_readsFields hreads
    rw [hnext, resultFields, Value.orElse_fieldsFor_eq_error_iff.mpr ⟨hgiven, hkind, rfl⟩]
    rfl
  | openScript hfound hcontent hgiven hkind =>
    show Resource.openScript (Value.obj _) = _
    rw [Resource.openScript, resultFields_obj]
    show (if _ then _ else _) = _
    rw [hcontent, hfound, hgiven]
    rfl
  | script hcontent hkind =>
    show ResourceTemplate.scriptText (Value.obj _) = _
    rw [ResourceTemplate.scriptText, resultFields_obj]
    show Except.ok (Option.getD _ _) = _
    rw [hcontent]
    rfl
  | flag hresource hfiles =>
    obtain ⟨next, hnext⟩ := reading_of_files hresource
    rw [hnext, namedFiles_obj, hfiles]
    rfl
  | number hresource hfiles hgiven =>
    obtain ⟨next, hnext⟩ := reading_of_files hresource
    rw [hnext, namedFiles_obj, hfiles, Value.orElse, if_pos (by simp [Value.isTruthy, hgiven])]
    rfl
  | @file fields before after file hfiles hbefore hkind =>
    have hgiven : (Value.arr (before ++ file :: after)).isTruthy := by simp [Value.isTruthy]
    show scriptList (Value.obj fields) = _
    rw [scriptList, namedFiles_obj, hfiles, Value.orElse, if_pos hgiven]
    show (List.filterM (hasEnding ".gd") (before ++ file :: after) >>= _) = _
    rw [filterM_hasEnding_eq_error_iff.mpr ⟨_, _, _, rfl, hbefore, hkind, rfl⟩]
    rfl

end

/-! ## What a URI gives -/

theorem eq_text_of_ofMime {mime text : String} {told : Except CallFault Value}
    (h : ofMime mime told = .ok ⟨.str text, mime⟩) : told = .ok (.str text) := by
  cases told with
  | error fault => cases h
  | ok content =>
    cases h
    rfl

/-- Whatever the editor replies, a URI that names something gives a text, unless the reply is
malformed for what it names; then it ends in the fault, or gives the content, that this brings. A
failure of the link is passed on, and a URI that names nothing is unknown. -/
theorem text_unless_malformed (uri : List Char) (editor : Editor) :
    let told := (read uri).result editor
    match target? uri with
    | none => told = .error (.unknownResource (String.ofList uri))
    | some target => ∃ command, (read uri).sent editor = [command] ∧
      match editor command with
      | .error failure => told = .error failure.fault
      | .ok reply =>
        ((∃ text, told = .ok ⟨.str text, target.mime⟩) ↔
          ∀ content, ¬ Malformed reply target content) ∧
        ∀ content, Malformed reply target content → told = ofMime target.mime content := by
  intro told
  cases htarget : target? uri with
  | none => exact congrArg (Exchange.result editor) (read_of_no_target htarget)
  | some target =>
    obtain ⟨name, params, hload⟩ := target.load_eq
    have hread : read uri = ofMime target.mime <$> .asking name params target.reading :=
      (read_of_target htarget).trans (congrArg _ hload)
    have htold : told = ofMime target.mime
        ((Exchange.asking name params target.reading).result editor) :=
      (congrArg (Exchange.result editor) hread).trans (result_map editor _ _)
    refine ⟨⟨name, params⟩, by rw [hread, sent_map, sent_asking], ?_⟩
    rw [htold, result_asking]
    cases editor ⟨name, params⟩ with
    | error failure => rfl
    | ok reply =>
      refine ⟨⟨?_, ?_⟩, ?_⟩
      · rintro ⟨text, htext⟩ content hmalformed
        exact hmalformed.ne_text text (hmalformed.reading_eq.symm.trans (eq_text_of_ofMime htext))
      · intro hnone
        rcases givesText reply target with ⟨text, htext⟩ | hmalformed
        · exact ⟨text, congrArg (ofMime target.mime) htext⟩
        · exact absurd hmalformed (hnone _)
      · intro content hmalformed
        exact congrArg (ofMime target.mime) hmalformed.reading_eq

/-- The content of a script that the editor sends as null is given as it is. -/
theorem text_unless_malformed_null :
    (read "godot://script/a.gd".toList).result (fun _ => .ok (.obj [("content", .null)])) =
      .ok ⟨.null, textMime⟩ := by
  have htarget : target? "godot://script/a.gd".toList =
      some (.script .scriptContent "a.gd".toList) := by decide +kernel
  have hgives := text_unless_malformed "godot://script/a.gd".toList
    fun _ => .ok (.obj [("content", .null)])
  rw [htarget] at hgives
  obtain ⟨command, -, -, hmalformed⟩ := hgives
  exact hmalformed _ (.script rfl rfl)

end ResourceContent

end EditorLink
