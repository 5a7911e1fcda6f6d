import Mathlib.Data.List.DropRight
import Mathlib.Data.List.Infix
import EditorLink.Proofs.Text.PercentEncoding
import EditorLink.Resource.Read

/-!
# URIs of scripts

Both templates of scripts begin with the same lead, and no fixed resource has a URI with that lead.
A URI with the longer lead asks for the metadata of the script that it names, except where nothing
follows the lead: then the template of contents takes the rest of the lead for a path. A URI with
the shorter lead alone asks for the content. In both the path is read back from any percent-encoding
of it.
-/

namespace EditorLink

open Text

namespace ResourceTemplate

/-! ## Routing -/

theorem lead_scriptMetadata :
    scriptMetadata.lead.toList = scriptContent.lead.toList ++ "metadata/".toList := by
  rw [← String.toList_append]
  rfl

theorem apart_of_resource (resource : Resource) :
    ¬ resource.uri.toList <+: scriptContent.lead.toList ∧
      ¬ scriptContent.lead.toList <+: resource.uri.toList := by
  cases resource <;> decide +kernel

/-- No fixed resource has the URI of a script. -/
theorem resource_of_script (rest : List Char) :
    Resource.ofUri? (scriptContent.lead.toList ++ rest) = none := by
  rw [Resource.ofUri?, List.find?_eq_none]
  intro resource _ hsame
  have huri : resource.uri.toList = dropRightWhile (· == '/') (scriptContent.lead.toList ++ rest) :=
    eq_of_beq hsame
  have hresource : resource.uri.toList <+: scriptContent.lead.toList ++ rest := by
    rw [huri]
    exact List.rdropWhile_prefix _ _
  obtain ⟨hshort, hlong⟩ := apart_of_resource resource
  rcases List.prefix_or_prefix_of_prefix hresource (List.prefix_append _ rest) with h | h
  · exact hshort h
  · exact hlong h

theorem path?_append (template : ResourceTemplate) {rest : List Char} (h : rest ≠ []) :
    template.path? (template.lead.toList ++ rest) = some (percentDecode rest) := by
  have hafter : after? template.lead.toList (template.lead.toList ++ rest) = some rest :=
    List.isPrefixOf?_eq_some_iff_append_eq.mpr rfl
  have hpath : percentDecode rest ≠ [] := mt percentDecode_eq_nil_iff.mp h
  simp [path?, hafter, hpath]

theorem path?_lead (template : ResourceTemplate) : template.path? template.lead.toList = none := by
  have hafter : after? template.lead.toList template.lead.toList = some [] :=
    List.isPrefixOf?_eq_some_iff_append_eq.mpr (List.append_nil _)
  simp [path?, hafter, percentDecode_eq_nil_iff.mpr rfl]

theorem path?_eq_none {template : ResourceTemplate} {uri : List Char}
    (h : ¬ template.lead.toList <+: uri) : template.path? uri = none := by
  have hafter : after? template.lead.toList uri = none := by
    rw [Option.eq_none_iff_forall_ne_some]
    intro rest hrest
    exact h ⟨rest, List.isPrefixOf?_eq_some_iff_append_eq.mp hrest⟩
  simp [path?, hafter]

theorem ofUri?_of_metadata {rest : List Char} (h : rest ≠ []) :
    ofUri? (scriptMetadata.lead.toList ++ rest) = some (scriptMetadata, percentDecode rest) := by
  simp [ofUri?, all, path?_append scriptMetadata h]

theorem ofUri?_of_content {rest : List Char} (h : rest ≠ [])
    (hother : scriptMetadata.path? (scriptContent.lead.toList ++ rest) = none) :
    ofUri? (scriptContent.lead.toList ++ rest) = some (scriptContent, percentDecode rest) := by
  simp [ofUri?, all, hother, path?_append scriptContent h]

end ResourceTemplate

namespace ResourceContent

open ResourceTemplate

variable (editor : Exchange.Editor)

theorem sent_read_script {rest path : List Char} {template : ResourceTemplate}
    (h : ofUri? (scriptContent.lead.toList ++ rest) = some (template, path)) :
    (read (scriptContent.lead.toList ++ rest)).sent editor = (template.load path).sent editor := by
  rw [read, resource_of_script]
  simp only [h]
  exact Exchange.sent_map editor _ _

theorem sent_read_metadata {rest : List Char} (h : rest ≠ []) :
    (read (scriptMetadata.lead.toList ++ rest)).sent editor =
      [⟨"get_script_metadata", [("path", .str (String.ofList (percentDecode rest)))]⟩] := by
  have huri := ofUri?_of_metadata h
  rw [lead_scriptMetadata, List.append_assoc] at huri ⊢
  exact (sent_read_script editor huri).trans (Exchange.sent_asking editor _ _ _)

theorem sent_read_content {rest : List Char} (h : rest ≠ [])
    (hother : scriptMetadata.path? (scriptContent.lead.toList ++ rest) = none) :
    (read (scriptContent.lead.toList ++ rest)).sent editor =
      [⟨"get_script", [("script_path", .str (String.ofList (percentDecode rest)))]⟩] :=
  (sent_read_script editor (ofUri?_of_content h hother)).trans (Exchange.sent_asking editor _ _ _)

/-! ## What is sent -/

/-- A URI that begins with the lead of metadata asks one command: the metadata of the script that
the rest names, or where the lead is the whole URI the content of a script named after its end. -/
theorem sent_of_metadata_uri (rest : List Char) (editor : Exchange.Editor) :
    (read ("godot://script/metadata/".toList ++ rest)).sent editor =
      if rest = [] then [⟨"get_script", [("script_path", .str "metadata/")]⟩]
      else [⟨"get_script_metadata", [("path", .str (String.ofList (percentDecode rest)))]⟩] := by
  show (read (scriptMetadata.lead.toList ++ rest)).sent editor = _
  by_cases h : rest = []
  · have hdecode : percentDecode "metadata/".toList = "metadata/".toList := by decide +kernel
    have hother := path?_lead scriptMetadata
    rw [lead_scriptMetadata] at hother
    have hsent := sent_read_content editor (by decide) hother
    rw [hdecode, String.ofList_toList] at hsent
    rw [h, if_pos rfl, List.append_nil, lead_scriptMetadata]
    exact hsent
  · rw [if_neg h]
    exact sent_read_metadata editor h

/-- Whatever percent-encoding of a script's path a URI holds, the command names the path itself. -/
theorem sent_of_percentEncoded {path encoded : List Char} (hpath : path ≠ [])
    (h : PercentEncodes encoded path) (editor : Exchange.Editor) :
    (¬ "metadata/".toList <+: encoded →
      (read ("godot://script/".toList ++ encoded)).sent editor =
        [⟨"get_script", [("script_path", .str (String.ofList path))]⟩]) ∧
    (read ("godot://script/metadata/".toList ++ encoded)).sent editor =
      [⟨"get_script_metadata", [("path", .str (String.ofList path))]⟩] := by
  obtain rfl := percentDecode_of_encodes h
  have hencoded : encoded ≠ [] := mt percentDecode_eq_nil_iff.mpr hpath
  constructor
  · intro hmetadata
    refine sent_read_content editor hencoded (path?_eq_none ?_)
    rw [lead_scriptMetadata, List.prefix_append_right_inj]
    exact hmetadata
  · exact sent_read_metadata editor hencoded

/-- Escapes in both cases, of octets next to characters beyond ASCII and of the percent sign. -/
theorem sent_of_percentEncoded_mixed :
    PercentEncodes "%c3%A9中%25".toList "é中%".toList ∧
      ¬ "metadata/".toList <+: "%c3%A9中%25".toList ∧
      ∀ editor, (read ("godot://script/".toList ++ "%c3%A9中%25".toList)).sent editor =
        [⟨"get_script", [("script_path", .str "é中%")]⟩] ∧
      (read ("godot://script/metadata/".toList ++ "%c3%A9中%25".toList)).sent editor =
        [⟨"get_script_metadata", [("path", .str "é中%")]⟩] := by
  have hacute : WritesChar ['%', 'c', '3', '%', 'A', '9'] 'é' :=
    @WritesChar.escapes [['%', 'c', '3'], ['%', 'A', '9']] 'é'
      (.cons ⟨'c', by decide, '3', by decide, rfl⟩
        (.cons ⟨'A', by decide, '9', by decide, rfl⟩ .nil))
  have hpercent : WritesChar ['%', '2', '5'] '%' :=
    @WritesChar.escapes [['%', '2', '5']] '%' (.cons ⟨'2', by decide, '5', by decide, rfl⟩ .nil)
  have hencodes : PercentEncodes "%c3%A9中%25".toList "é中%".toList :=
    ⟨[['%', 'c', '3', '%', 'A', '9'], ['中'], ['%', '2', '5']], rfl,
      .cons hacute (.cons (.itself (by decide)) (.cons hpercent .nil))⟩
  have hlead : ¬ "metadata/".toList <+: "%c3%A9中%25".toList := by decide
  refine ⟨hencodes, hlead, fun editor => ?_⟩
  obtain ⟨hcontent, hmetadata⟩ := sent_of_percentEncoded (by decide) hencodes editor
  rw [String.ofList_toList] at hcontent hmetadata
  exact ⟨hcontent hlead, hmetadata⟩

end ResourceContent

end EditorLink
