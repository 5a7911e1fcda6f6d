import EditorLink.Proofs.Project.VersionLines
import EditorLink.Proofs.Text.Lines

/-!
# Feature tags are read back

A features line holds a list of tags, each in quotes, with commas between them and blanks around
whatever stands there. `WritesFeatures` says which lines write a list of tags. From each of them the
list is read back as it is, with the blanks inside the quotes, and a project file tells its features
and its release by the last such line.
-/

namespace EditorLink.Project

open Text

/-! ## What is written -/

/-- A tag that can stand between quotes in a list: it is not empty, does not end the quotes, the
item, the list or the line. -/
structure PlainTag (tag : Tag) : Prop where
  ne_nil : tag ≠ []
  quote : '"' ∉ tag
  comma : ',' ∉ tag
  paren : ')' ∉ tag
  within : ∀ c ∈ tag, isLineEnd c = false

/-- Blanks that do not end the line, perhaps none. -/
def Spacing (cs : List Char) : Prop := ∀ c ∈ cs, isBlank c ∧ isLineEnd c = false

/-- A tag in quotes, with blanks around it. -/
inductive WritesTag : List Char → Tag → Prop
  | quoted {left right : List Char} {tag : Tag} : Spacing left → Spacing right →
      WritesTag (left ++ '"' :: (tag ++ ['"']) ++ right) tag

/-- Tags in quotes with commas between them. -/
inductive WritesTags : List Char → List Tag → Prop
  | none {blanks : List Char} : Spacing blanks → WritesTags blanks []
  | one {item : List Char} {tag : Tag} : WritesTag item tag → WritesTags item [tag]
  | more {item inner : List Char} {tag next : Tag} {tags : List Tag} : WritesTag item tag →
      WritesTags inner (next :: tags) → WritesTags (item ++ ',' :: inner) (tag :: next :: tags)

/-- A features line, with blanks around it. -/
inductive WritesFeatures : List Char → List Tag → Prop
  | line {left inner right : List Char} {tags : List Tag} : Spacing left → Spacing right →
      WritesTags inner tags → WritesFeatures
        (left ++ ("config/features=".toList ++ ("PackedStringArray(".toList ++ inner ++ [')'])) ++
          right) tags

instance (cs : List Char) : Decidable (Spacing cs) :=
  inferInstanceAs (Decidable (∀ c ∈ cs, _))

variable {cs item inner line front back : List Char} {tag : Tag} {tags : List Tag} {c : Char}

/-! ## Which characters are written -/

theorem WritesTag.forall_mem {p : Char → Prop} (h : WritesTag item tag)
    (hspacing : ∀ c, isBlank c → isLineEnd c = false → p c) (hquote : p '"')
    (htag : ∀ c ∈ tag, p c) : ∀ c ∈ item, p c := by
  obtain ⟨hleft, hright⟩ := h
  simp only [List.forall_mem_append, List.forall_mem_cons]
  exact ⟨⟨fun c hc => hspacing c (hleft c hc).1 (hleft c hc).2, hquote, htag, hquote,
    List.forall_mem_nil _⟩, fun c hc => hspacing c (hright c hc).1 (hright c hc).2⟩

/-- Besides blanks, quotes and commas only the tags are written. -/
theorem WritesTags.forall_mem {p : Char → Prop} (h : WritesTags inner tags)
    (hspacing : ∀ c, isBlank c → isLineEnd c = false → p c) (hquote : p '"') (hcomma : p ',')
    (htags : ∀ tag ∈ tags, ∀ c ∈ tag, p c) : ∀ c ∈ inner, p c := by
  induction h with
  | none hblanks => exact fun c hc => hspacing c (hblanks c hc).1 (hblanks c hc).2
  | one hitem => exact hitem.forall_mem hspacing hquote (htags _ List.mem_cons_self)
  | more hitem _ ih =>
    obtain ⟨htag, htags⟩ := List.forall_mem_cons.mp htags
    rw [List.forall_mem_append, List.forall_mem_cons]
    exact ⟨hitem.forall_mem hspacing hquote htag, hcomma, ih htags⟩

theorem ne_of_isBlank {mark : Char} (hmark : isBlank mark = false) (c : Char)
    (hc : isBlank c = true) : c ≠ mark := by
  rintro rfl
  rw [hmark] at hc
  cases hc

theorem WritesTag.comma_not_mem (h : WritesTag item tag) (htag : PlainTag tag) : ',' ∉ item := by
  have hall : ∀ c ∈ item, c ≠ ',' := by
    refine h.forall_mem (fun c hc _ => ne_of_isBlank (by decide) c hc) (by decide) ?_
    rintro c hc rfl
    exact htag.comma hc
  exact fun hmem => hall ',' hmem rfl

theorem WritesTags.paren_not_mem (h : WritesTags inner tags) (htags : ∀ tag ∈ tags, PlainTag tag) :
    ')' ∉ inner := by
  have hall : ∀ c ∈ inner, c ≠ ')' := by
    refine h.forall_mem (fun c hc _ => ne_of_isBlank (by decide) c hc) (by decide) (by decide) ?_
    rintro tag htag c hc rfl
    exact (htags tag htag).paren hc
  exact fun hmem => hall ')' hmem rfl

theorem WritesFeatures.within (h : WritesFeatures line tags) (htags : ∀ tag ∈ tags, PlainTag tag) :
    ∀ c ∈ line, isLineEnd c = false := by
  obtain ⟨hleft, hright, hinner⟩ := h
  simp only [List.forall_mem_append]
  refine ⟨⟨fun c hc => (hleft c hc).2, by decide, ⟨by decide, ?_⟩, by decide⟩,
    fun c hc => (hright c hc).2⟩
  exact hinner.forall_mem (fun c _ hc => hc) (by decide) (by decide)
    fun tag htag => (htags tag htag).within

/-! ## Reading back -/

/-- The quotes that were written go, and the blanks inside them stay. -/
theorem WritesTag.valueOf_eq (h : WritesTag item tag) (htag : PlainTag tag) :
    valueOf item = tag := by
  obtain @⟨left, right, _, hleft, hright⟩ := h
  have htrim : trim (left ++ '"' :: (tag ++ ['"']) ++ right) = '"' :: (tag ++ ['"']) := by
    apply trimBoth_append (fun c hc => (hleft c hc).1) (fun c hc => (hright c hc).1)
    · rintro c ⟨⟩
      decide
    · intro c hc
      rw [← List.cons_append, List.getLast?_append] at hc
      obtain rfl := Option.some.inj hc
      decide
  have hends : ∀ c ∈ tag, (c == '"') = false := by
    intro c hc
    simpa using fun heq : c = '"' => htag.quote (heq ▸ hc)
  have hquotes : ∀ c ∈ ['"'], (c == '"') = true := by decide
  rw [valueOf, htrim, unquoted]
  exact trimBoth_append hquotes hquotes (fun c hc => hends c (List.mem_of_mem_head? hc))
    (fun c hc => hends c (List.mem_of_mem_getLast? hc))

theorem valueOf_of_spacing (h : Spacing cs) : valueOf cs = [] := by
  have hdrop : cs.dropWhile isBlank = [] := by
    rw [← List.append_nil cs, List.dropWhile_append_of_pos fun c hc => (h c hc).1]
    rfl
  rw [valueOf, trim, trimBoth, hdrop]
  rfl

/-- Every comma that is written stands between two tags. An empty list leaves one empty item. -/
theorem WritesTags.items_eq (h : WritesTags inner tags) (htags : ∀ tag ∈ tags, PlainTag tag) :
    ((inner.splitOn ',').map valueOf).filter (· ≠ []) = tags := by
  induction h with
  | none hblanks =>
    have hcomma : ',' ∉ _ := fun hmem => ne_of_isBlank (by decide) ',' (hblanks ',' hmem).1 rfl
    rw [List.splitOn_eq_singleton hcomma, List.map_singleton, valueOf_of_spacing hblanks]
    rfl
  | one hitem =>
    have htag := htags _ List.mem_cons_self
    rw [List.splitOn_eq_singleton (hitem.comma_not_mem htag), List.map_singleton,
      hitem.valueOf_eq htag, List.filter_cons_of_pos (by simpa using htag.ne_nil)]
    rfl
  | more hitem _ ih =>
    obtain ⟨htag, htags⟩ := List.forall_mem_cons.mp htags
    rw [List.splitOn_append_cons_self_of_not_mem (hitem.comma_not_mem htag), List.map_cons,
      hitem.valueOf_eq htag, List.filter_cons_of_pos (by simpa using htag.ne_nil), ih htags]

theorem WritesTags.tagsOf_eq (h : WritesTags inner tags) (htags : ∀ tag ∈ tags, PlainTag tag) :
    tagsOf ("PackedStringArray(".toList ++ inner ++ [')']) = tags := by
  have hinner : parenthesized? ("PackedStringArray(".toList ++ inner ++ [')']) = some inner :=
    parenthesized?_eq_some_iff.mpr
      ⟨"PackedStringArray".toList, [], by decide, h.paren_not_mem htags, by simp⟩
  rw [tagsOf_of_parenthesized hinner, h.items_eq htags]

theorem WritesFeatures.exists_value (h : WritesFeatures line tags)
    (htags : ∀ tag ∈ tags, PlainTag tag) :
    ∃ value, trim line = "config/features=".toList ++ value ∧ tagsOf value = tags := by
  obtain @⟨left, inner, right, _, hleft, hright, hinner⟩ := h
  refine ⟨_, ?_, hinner.tagsOf_eq htags⟩
  apply trimBoth_append (fun c hc => (hleft c hc).1) (fun c hc => (hright c hc).1)
  · intro c hc
    obtain rfl : 'c' = c := Option.some.inj hc
    decide
  · intro c hc
    rw [← List.append_assoc, List.getLast?_append] at hc
    obtain rfl := Option.some.inj hc
    decide

/-! ## In a project file -/

theorem WritesFeatures.standsAlone (h : WritesFeatures line tags)
    (htags : ∀ tag ∈ tags, PlainTag tag) (hbefore : ∀ c ∈ front.getLast?, isLineEnd c)
    (hbehind : ∀ c ∈ back.head?, isLineEnd c) : StandsAlone front line back where
  before := hbefore
  within := h.within htags
  ne_nil := by
    obtain ⟨-, -, -⟩ := h
    simp
  behind := hbehind

/-- A features line that no other one follows is the one that tells the tags. -/
theorem WritesFeatures.lastTold (h : WritesFeatures line tags)
    (htags : ∀ tag ∈ tags, PlainTag tag) (hbefore : ∀ c ∈ front.getLast?, isLineEnd c)
    (hbehind : ∀ c ∈ back.head?, isLineEnd c)
    (hlast : ∀ later ∈ trimmedLines back, ¬ "config/features=".toList <+: later) :
    LastTold FeatureLine (trimmedLines (front ++ (line ++ back))) (some tags) := by
  obtain ⟨value, hvalue, htold⟩ := h.exists_value htags
  have hline : FeatureLine (trim line) tags := ⟨value, hvalue, (tagsOf_eq_iff value tags).mp htold⟩
  have hlines : trimmedLines (front ++ (line ++ back)) =
      trimmedLines front ++ trim line :: (trimmedLines back).tail := by
    rw [trimmedLines, (h.standsAlone htags hbefore hbehind).lines_eq, List.map_append,
      List.map_cons, List.map_tail]
    rfl
  rw [hlines]
  refine .something ⟨_, _, rfl, ⟨tags, hline⟩, ?_⟩ hline
  rintro later hlater ⟨told, value, rfl, -⟩
  exact hlast _ (List.mem_of_mem_tail hlater) (List.prefix_append _ _)

/-- Feature tags that are written in the last features line of a project file are read back: all of
them, in order, with their blanks. The features are the tags but for `4.5`, which tells the
release. -/
theorem featureTags_read_back {content : List Char} (configPath : String)
    (htags : ∀ tag ∈ tags, PlainTag tag) (hline : WritesFeatures line tags)
    (hcontent : content = front ++ (line ++ back))
    (hbefore : ∀ c ∈ front.getLast?, isLineEnd c) (hbehind : ∀ c ∈ back.head?, isLineEnd c)
    (hlast : ∀ later ∈ trimmedLines back, ¬ "config/features=".toList <+: later) :
    (∃ value, trim line = "config/features=".toList ++ value ∧ tagsOf value = tags) ∧
    (versionKeys content).tags = tags ∧
    (versionInfo content configPath).features = tags.filter (· != "4.5".toList) ∧
    ∀ version, LastTold VersionLine (trimmedLines content) version →
      (versionInfo content configPath).release = releaseOf version tags ∧
      (version = some 5 → (versionInfo content configPath).release.major = 4 ∧
        ((versionInfo content configPath).release.minor = 5 ↔ "4.5".toList ∈ tags)) := by
  subst hcontent
  have htold := (lastTold_tags_iff _).mp (hline.lastTold htags hbefore hbehind hlast)
  have hkeys : (versionKeys (front ++ (line ++ back))).tags = tags := by
    rw [versionKeys_eq, ← htold, Option.getD_some]
  refine ⟨hline.exists_value htags, hkeys, ?features, ?release⟩
  case features =>
    rw [versionInfo, hkeys]
  case release =>
    intro version hversion
    have hrelease : (versionInfo (front ++ (line ++ back)) configPath).release =
        releaseOf version tags := by
      rw [versionInfo, hkeys, versionKeys_eq, ← (lastTold_version_iff version).mp hversion]
    refine ⟨hrelease, ?_⟩
    rintro rfl
    rw [hrelease, releaseOf, if_pos rfl]
    exact ⟨rfl, by simp⟩

/-- The second tag holds an opening parenthesis, and begins and ends with a blank. -/
theorem featureTags_read_back_spaced :
    let line := "\tconfig/features=PackedStringArray( \"4.5\" ,\u00a0\" A(B \",\"4.5\")  ".toList
    let content := "config_version=5\r\n".toList ++ (line ++ "\n[x]".toList)
    (versionInfo content "p").features = [" A(B ".toList] ∧
      (versionInfo content "p").release.minor = 5 := by
  intro line content
  have hfirst : WritesTag ([' '] ++ '"' :: ("4.5".toList ++ ['"']) ++ [' ']) "4.5".toList :=
    .quoted (by decide) (by decide)
  have hsecond : WritesTag (['\u00a0'] ++ '"' :: (" A(B ".toList ++ ['"']) ++ []) " A(B ".toList :=
    .quoted (by decide) (by decide)
  have hthird : WritesTag ([] ++ '"' :: ("4.5".toList ++ ['"']) ++ []) "4.5".toList :=
    .quoted (by decide) (by decide)
  have hspelled : line = ['\t'] ++ ("config/features=".toList ++ ("PackedStringArray(".toList ++
      (([' '] ++ '"' :: ("4.5".toList ++ ['"']) ++ [' ']) ++ ',' ::
        ((['\u00a0'] ++ '"' :: (" A(B ".toList ++ ['"']) ++ []) ++ ',' ::
          ([] ++ '"' :: ("4.5".toList ++ ['"']) ++ []))) ++ [')'])) ++ [' ', ' '] := by
    decide
  have hline : WritesFeatures line ["4.5".toList, " A(B ".toList, "4.5".toList] := by
    rw [hspelled]
    exact .line (by decide) (by decide) (.more hfirst (.more hsecond (.one hthird)))
  have htags : ∀ tag ∈ ["4.5".toList, " A(B ".toList, "4.5".toList], PlainTag tag := by
    simp only [List.forall_mem_cons, List.not_mem_nil, false_imp_iff, implies_true, and_true]
    exact ⟨⟨by decide, by decide, by decide, by decide, by decide⟩,
      ⟨by decide, by decide, by decide, by decide, by decide⟩,
      ⟨by decide, by decide, by decide, by decide, by decide⟩⟩
  have hbefore : ∀ c ∈ "config_version=5\r\n".toList.getLast?, isLineEnd c := by
    rintro c ⟨⟩
    decide
  have hbehind : ∀ c ∈ "\n[x]".toList.head?, isLineEnd c := by
    rintro c ⟨⟩
    decide
  have hlast : ∀ later ∈ trimmedLines "\n[x]".toList, ¬ "config/features=".toList <+: later := by
    decide +kernel
  have hversion : LastTold VersionLine (trimmedLines content) (some 5) :=
    (lastTold_version_iff _).mpr (by decide +kernel)
  obtain ⟨-, -, hfeatures, hrelease⟩ :=
    featureTags_read_back "p" htags hline (rfl : content = _) hbefore hbehind hlast
  exact ⟨hfeatures.trans (by decide), ((hrelease (some 5) hversion).2 rfl).2.mpr (by decide)⟩

end EditorLink.Project
