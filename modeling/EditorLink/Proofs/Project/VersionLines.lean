import Mathlib.Logic.ExistsUnique
import EditorLink.Project.ConfigFile
import EditorLink.Proofs.Number.Integers
import EditorLink.Proofs.Text.LastEntry

/-!
# The two lines that tell the version

A project file is read from its first line to its last, and each line may change what the lines
before it have told. In the end two lines have told everything: the last one whose configuration
version is a whole number, and the last one with features. A configuration version that is no number
is passed over and takes nothing back. All other lines may come, go and move.
-/

namespace EditorLink.Project

/-! ## What a line tells -/

/-- The tags between the first opening parenthesis and the next closing one, without empty ones; no
tags where nothing is in parentheses. -/
def TagsIn (value : List Char) (tags : List Tag) : Prop :=
  (∃ front inner back, '(' ∉ front ∧ ')' ∉ inner ∧
      value = front ++ '(' :: (inner ++ ')' :: back) ∧
      tags = ((inner.splitOn ',').map valueOf).filter (· ≠ [])) ∨
    (∀ front inner back, value ≠ front ++ '(' :: (inner ++ ')' :: back)) ∧ tags = []

/-- A line with a configuration version that is a whole number. -/
def VersionLine (line : List Char) (version : Int) : Prop :=
  ∃ value, line = "config_version=".toList ++ value ∧ Number.Spells (valueOf value) version

/-- A line with features. -/
def FeatureLine (line : List Char) (tags : List Tag) : Prop :=
  ∃ value, line = "config/features=".toList ++ value ∧ TagsIn value tags

/-- A line that begins with one of the two keys. -/
def hasVersionKey (line : List Char) : Bool :=
  "config_version=".toList.isPrefixOf line || "config/features=".toList.isPrefixOf line

/-- What the last of some lines that tells something tells, if there is one. -/
inductive LastTold {α : Type} (tells : List Char → α → Prop) (lines : List (List Char)) :
    Option α → Prop
  | nothing : (∀ line ∈ lines, ∀ told, ¬ tells line told) → LastTold tells lines none
  | something {line : List Char} {told : α} :
      LastWith (fun line => ∃ told, tells line told) lines line → tells line told →
      LastTold tells lines (some told)

variable {α : Type} {tells : List Char → α → Prop} {lines : List (List Char)}
  {line value front inner back : List Char} {keys : VersionKeys} {tags : List Tag}

/-- Searching from the last line on finds what is told last, where `read?` reads what a line
tells. -/
theorem lastTold_iff {read? : List Char → Option α}
    (h : ∀ line told, read? line = some told ↔ tells line told) (last : Option α) :
    LastTold tells lines last ↔ last = lines.reverse.findSome? read? := by
  have hread (line : List Char) : (read? line).isSome ↔ ∃ told, tells line told := by
    rw [Option.isSome_iff_exists]
    exact exists_congr (h line)
  constructor
  · rintro (hnone | ⟨hlast, htold⟩)
    · refine (List.findSome?_eq_none_iff.mpr fun line hline => ?_).symm
      refine Option.eq_none_iff_forall_ne_some.mpr fun told hsome => ?_
      exact hnone line (List.mem_reverse.mp hline) told ((h line told).mp hsome)
    · exact (findSome?_reverse_iff.mpr
        ⟨_, (LastWith.congr hread).mpr hlast, (h _ _).mpr htold⟩).symm
  · rintro rfl
    cases hfind : lines.reverse.findSome? read? with
    | none =>
      refine .nothing fun line hline told htold => ?_
      have hnone := List.findSome?_eq_none_iff.mp hfind line (List.mem_reverse.mpr hline)
      rw [(h line told).mpr htold] at hnone
      cases hnone
    | some told =>
      obtain ⟨line, hlast, htold⟩ := findSome?_reverse_iff.mp hfind
      exact .something ((LastWith.congr hread).mp hlast) ((h line told).mp htold)

/-! ## Tags -/

theorem tagsOf_of_parenthesized (h : parenthesized? value = some inner) :
    tagsOf value = ((inner.splitOn ',').map valueOf).filter (· ≠ []) := by
  rw [tagsOf, h]
  refine List.filter_congr fun tag _ => ?_
  cases tag <;> rfl

theorem tagsOf_of_not_parenthesized (h : parenthesized? value = none) : tagsOf value = [] := by
  rw [tagsOf, h]

theorem parenthesized?_eq (value : List Char) : parenthesized? value =
    (Text.splitFirst? '(' value).bind fun parts => (Text.splitFirst? ')' parts.2).map (·.1) := by
  unfold parenthesized? Text.splitFirst?
  cases value.dropWhile (· != '(') <;> rfl

theorem parenthesized?_eq_some_iff : parenthesized? value = some inner ↔
    ∃ front back, '(' ∉ front ∧ ')' ∉ inner ∧ value = front ++ '(' :: (inner ++ ')' :: back) := by
  rw [parenthesized?_eq, Option.bind_eq_some_iff]
  simp only [Option.map_eq_some_iff, Prod.exists, Text.splitFirst?_eq_some_iff]
  constructor
  · rintro ⟨front, rest, ⟨hfront, rfl⟩, inner, back, ⟨hinner, rfl⟩, rfl⟩
    exact ⟨front, back, hfront, hinner, rfl⟩
  · rintro ⟨front, back, hfront, hinner, rfl⟩
    exact ⟨front, _, ⟨hfront, rfl⟩, inner, back, ⟨hinner, rfl⟩, rfl⟩

/-- Where anything stands in parentheses, the first opening one has a closing one behind it. -/
theorem exists_parenthesized (front inner back : List Char) :
    ∃ found, parenthesized? (front ++ '(' :: (inner ++ ')' :: back)) = some found := by
  obtain ⟨lead, rest, heq, hlead⟩ :=
    List.eq_append_cons_of_mem (List.mem_append_right front List.mem_cons_self :
      '(' ∈ front ++ '(' :: (inner ++ ')' :: back))
  -- The given parenthesis is the first one, or stands behind it; so does its closing one.
  have hclosing : ')' ∈ rest := by
    rcases List.append_eq_append_iff.mp heq with ⟨gap, rfl, hgap⟩ | ⟨gap, rfl, hgap⟩
    · cases gap with
      | nil => simp [← (List.cons_eq_cons.mp hgap).2]
      | cons c gap =>
        obtain ⟨rfl, -⟩ := List.cons_eq_cons.mp hgap
        simp at hlead
    · cases gap with
      | nil => simp [(List.cons_eq_cons.mp hgap).2]
      | cons c gap => simp [(List.cons_eq_cons.mp hgap).2]
  obtain ⟨found, after, rfl, hfound⟩ := List.eq_append_cons_of_mem hclosing
  exact ⟨found, parenthesized?_eq_some_iff.mpr ⟨lead, after, hlead, hfound, heq⟩⟩

theorem tagsIn_tagsOf (value : List Char) : TagsIn value (tagsOf value) := by
  cases hvalue : parenthesized? value with
  | none =>
    refine .inr ⟨fun front inner back heq => ?_, tagsOf_of_not_parenthesized hvalue⟩
    obtain ⟨found, hfound⟩ := exists_parenthesized front inner back
    rw [← heq, hvalue] at hfound
    cases hfound
  | some inner =>
    obtain ⟨front, back, hfront, hinner, heq⟩ := parenthesized?_eq_some_iff.mp hvalue
    exact .inl ⟨front, inner, back, hfront, hinner, heq, tagsOf_of_parenthesized hvalue⟩

theorem TagsIn.eq_tagsOf (h : TagsIn value tags) : tags = tagsOf value := by
  rcases h with ⟨front, inner, back, hfront, hinner, heq, rfl⟩ | ⟨hnone, rfl⟩
  · have hvalue := parenthesized?_eq_some_iff.mpr ⟨front, back, hfront, hinner, heq⟩
    exact (tagsOf_of_parenthesized hvalue).symm
  · rcases tagsIn_tagsOf value with ⟨front, inner, back, -, -, heq, -⟩ | ⟨-, htags⟩
    · exact absurd heq (hnone front inner back)
    · exact htags.symm

theorem tagsOf_eq_iff (value : List Char) (tags : List Tag) :
    tagsOf value = tags ↔ TagsIn value tags := by
  constructor
  · rintro rfl
    exact tagsIn_tagsOf value
  · exact fun h => h.eq_tagsOf.symm

/-! ## Lines -/

def versionTold? (line : List Char) : Option Int :=
  (Text.after? "config_version=".toList line).bind fun value => Number.readInteger? (valueOf value)

def tagsTold? (line : List Char) : Option (List Tag) :=
  (Text.after? "config/features=".toList line).map tagsOf

theorem versionTold?_eq_some_iff (line : List Char) (version : Int) :
    versionTold? line = some version ↔ VersionLine line version := by
  unfold versionTold? VersionLine
  rw [Option.bind_eq_some_iff]
  simp only [Text.after?_eq_some_iff, Number.readInteger?_eq_some_iff]

theorem tagsTold?_eq_some_iff (line : List Char) (tags : List Tag) :
    tagsTold? line = some tags ↔ FeatureLine line tags := by
  unfold tagsTold? FeatureLine
  rw [Option.map_eq_some_iff]
  simp only [Text.after?_eq_some_iff, tagsOf_eq_iff]

/-- A line tells a version, or tags, or nothing, and what it does not tell stays. -/
theorem take_eq (keys : VersionKeys) (line : List Char) : keys.take line =
    ⟨(versionTold? line).or keys.configVersion, (tagsTold? line).getD keys.tags⟩ := by
  unfold VersionKeys.take versionTold? tagsTold?
  cases hversion : Text.after? "config_version=".toList line with
  | none =>
    cases Text.after? "config/features=".toList line with
    | none => rfl
    | some value => rfl
  | some value =>
    obtain rfl := Text.after?_eq_some_iff.mp hversion
    -- No line begins with both keys, so the tags stay as they are.
    have hfeatures : Text.after? "config/features=".toList ("config_version=".toList ++ value) =
        none := rfl
    rw [hfeatures, Option.bind_some]
    cases hnumber : Number.readInteger? (valueOf value) with
    | none => simp [hnumber]
    | some n => simp [hnumber]

theorem foldl_take_eq (keys : VersionKeys) (lines : List (List Char)) :
    lines.foldl VersionKeys.take keys =
      ⟨(lines.reverse.findSome? versionTold?).or keys.configVersion,
        (lines.reverse.findSome? tagsTold?).getD keys.tags⟩ := by
  induction lines generalizing keys with
  | nil => rfl
  | cons line lines ih =>
    rw [List.foldl_cons, ih, take_eq, List.reverse_cons, List.findSome?_append,
      List.findSome?_append, List.findSome?_singleton, List.findSome?_singleton, Option.or_assoc,
      Option.getD_or]

/-- What the lines of a project file tell in the end. -/
theorem versionKeys_eq (content : List Char) : versionKeys content =
    ⟨(trimmedLines content).reverse.findSome? versionTold?,
      ((trimmedLines content).reverse.findSome? tagsTold?).getD []⟩ := by
  rw [versionKeys, foldl_take_eq, Option.or_none]

/-! ## Lines that tell nothing -/

theorem hasVersionKey_of_told (h : (versionTold? line).isSome ∨ (tagsTold? line).isSome) :
    hasVersionKey line := by
  unfold hasVersionKey
  rw [Bool.or_eq_true, List.isPrefixOf_iff_prefix, List.isPrefixOf_iff_prefix]
  rcases h with h | h
  · obtain ⟨version, hversion⟩ := Option.isSome_iff_exists.mp h
    obtain ⟨value, rfl, -⟩ := (versionTold?_eq_some_iff line version).mp hversion
    exact .inl (List.prefix_append _ _)
  · obtain ⟨tags, htags⟩ := Option.isSome_iff_exists.mp h
    obtain ⟨value, rfl, -⟩ := (tagsTold?_eq_some_iff line tags).mp htags
    exact .inr (List.prefix_append _ _)

/-- Leaving out lines that tell nothing changes nothing. -/
theorem findSome?_filter_of_told {read? : List Char → Option α} {p : List Char → Bool}
    (h : ∀ line, (read? line).isSome → p line) (lines : List (List Char)) :
    (lines.filter p).reverse.findSome? read? = lines.reverse.findSome? read? := by
  rw [← List.filter_reverse]
  induction lines.reverse with
  | nil => rfl
  | cons line lines ih =>
    by_cases hline : p line
    · rw [List.filter_cons_of_pos hline, List.findSome?_cons, List.findSome?_cons, ih]
    · have hnone : read? line = none := by simpa using mt (h line) hline
      rw [List.filter_cons_of_neg hline, List.findSome?_cons, hnone, ih]

theorem versionKeys_congr {content other : List Char}
    (h : (trimmedLines other).filter hasVersionKey = (trimmedLines content).filter hasVersionKey) :
    versionKeys other = versionKeys content := by
  have hversion : ∀ line, (versionTold? line).isSome → hasVersionKey line :=
    fun line hline => hasVersionKey_of_told (.inl hline)
  have htags : ∀ line, (tagsTold? line).isSome → hasVersionKey line :=
    fun line hline => hasVersionKey_of_told (.inr hline)
  rw [versionKeys_eq, versionKeys_eq, ← findSome?_filter_of_told hversion,
    ← findSome?_filter_of_told htags, h, findSome?_filter_of_told hversion,
    findSome?_filter_of_told htags]

theorem lastTold_version_iff (version : Option Int) : LastTold VersionLine lines version ↔
    version = lines.reverse.findSome? versionTold? :=
  lastTold_iff versionTold?_eq_some_iff version

theorem lastTold_tags_iff (tags : Option (List Tag)) : LastTold FeatureLine lines tags ↔
    tags = lines.reverse.findSome? tagsTold? :=
  lastTold_iff tagsTold?_eq_some_iff tags

/-- The version that a project file tells depends on two of its lines: the last one whose
configuration version is a whole number, and the last one with features. -/
theorem versionInfo_of_last_lines (content : List Char) (configPath : String) :
    (∃! version, LastTold VersionLine (trimmedLines content) version) ∧
    (∃! tags, LastTold FeatureLine (trimmedLines content) tags) ∧
    (∀ version tags, LastTold VersionLine (trimmedLines content) version →
      LastTold FeatureLine (trimmedLines content) tags →
      versionInfo content configPath =
        { release := releaseOf version (tags.getD [])
          features := (tags.getD []).filter (· != "4.5".toList)
          configPath } ∧
      (versionInfo content configPath).release.text =
        intText (releaseOf version (tags.getD [])).major ++ "." ++
          intText (releaseOf version (tags.getD [])).minor ++ ".0") ∧
    ∀ other : List Char,
      (trimmedLines other).filter hasVersionKey = (trimmedLines content).filter hasVersionKey →
      versionInfo other configPath = versionInfo content configPath := by
  refine ⟨?unique_version, ?unique_tags, ?told, ?other⟩
  case unique_version =>
    simp only [lastTold_version_iff, existsUnique_eq]
  case unique_tags =>
    simp only [lastTold_tags_iff, existsUnique_eq]
  case told =>
    intro version tags hversion htags
    have hinfo : versionInfo content configPath =
        { release := releaseOf version (tags.getD [])
          features := (tags.getD []).filter (· != "4.5".toList)
          configPath } := by
      rw [(lastTold_version_iff version).mp hversion, (lastTold_tags_iff tags).mp htags,
        versionInfo, versionKeys_eq]
    refine ⟨hinfo, ?_⟩
    rw [hinfo, Release.text]
  case other =>
    intro other hother
    rw [versionInfo, versionInfo, versionKeys_congr hother]

/-- The last version below is no number, so that the one above it still counts. -/
theorem versionInfo_of_last_lines_moved :
    let content := "config_version=0_5\nconfig/features=(4.5, A)\n;\nconfig_version=x".toList
    let other := "\tconfig_version=0_5\r\nconfig/features=(4.5, A)\nconfig_version=x".toList
    versionInfo content "p" = ⟨⟨4, 5⟩, ["A".toList], "p"⟩ ∧
      versionInfo other "p" = versionInfo content "p" := by
  constructor
  · exact ((versionInfo_of_last_lines _ "p").2.2.1 (some 5) (some ["4.5".toList, "A".toList])
      ((lastTold_version_iff _).mpr (by decide +kernel))
      ((lastTold_tags_iff _).mpr (by decide +kernel))).1
  · exact (versionInfo_of_last_lines _ "p").2.2.2 _ (by decide +kernel)

end EditorLink.Project
