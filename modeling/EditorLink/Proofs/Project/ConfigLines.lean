import Mathlib.Data.List.Induction
import EditorLink.Proofs.Project.VersionLines

/-!
# The lines that tell the configuration

Name, description and version of a project are told by the last line with their key, in whatever
section it stands. The autoloads are told by the pairs of the autoload section, which may be opened
more than once: each key has the path of its last pair and the place of its first one. The section
of a line is that of the last header above it, so the lines are followed from the first one on, and
`Lists` says what has been listed after some of them.
-/

namespace EditorLink.Project

/-! ## What a line says -/

/-- A line that opens the section of a name. -/
def Opens (line name : List Char) : Prop := line = '[' :: (name ++ [']'])

def IsHeader (line : List Char) : Prop := ∃ name, Opens line name

def nameLeads : List String := ["config/name="]

def descriptionLeads : List String := ["config/description="]

def versionLeads : List String := ["config/version=", "config/display_version="]

/-- A line that begins with one of some leads and gives the value behind it. -/
def GivesValue (leads : List String) (line value : List Char) : Prop :=
  ∃ lead ∈ leads, ∃ text, line = lead.toList ++ text ∧ value = valueOf text

/-- A line that begins with none of the leads and opens no section. -/
structure BareLine (line : List Char) : Prop where
  header : ¬ IsHeader line
  lead : ∀ lead ∈ nameLeads ++ descriptionLeads ++ versionLeads, ¬ lead.toList <+: line

/-- A line that gives a key a path, where it stands in the autoload section. -/
structure PairLine (line key path : List Char) : Prop extends BareLine line where
  comment : ¬ [';'] <+: line
  pair : ∃ front back, '=' ∉ front ∧ line = front ++ '=' :: back ∧ key = Text.trim front ∧
    path = (valueOf back).dropWhile (· == '*')

/-- What a trimmed line says, by its form. -/
inductive Says (line : List Char) : Entry → Prop
  | header {name : List Char} : Opens line name → Says line (.header name)
  | name {value : List Char} : GivesValue nameLeads line value → Says line (.name value)
  | description {value : List Char} : GivesValue descriptionLeads line value →
      Says line (.description value)
  | version {value : List Char} : GivesValue versionLeads line value → Says line (.version value)
  | pair {key path : List Char} : PairLine line key path → Says line (.pair key path)
  | other : BareLine line → [';'] <+: line ∨ '=' ∉ line → Says line .other

variable {line name value key path : List Char} {lines : List (List Char)} {n : Nat}
  {entries : List (List Char × List Char)} {entry : Entry}

theorem sectionName?_eq_some_iff : sectionName? line = some name ↔ Opens line name := by
  unfold sectionName? Opens Text.endsWith
  rw [Option.ite_none_right_eq_some, Bool.and_eq_true, List.isPrefixOf_iff_prefix,
    List.isSuffixOf_iff_suffix, Option.some_inj]
  constructor
  · rintro ⟨⟨⟨rest, rfl⟩, front, hfront⟩, rfl⟩
    -- The bracket at the end is another one than the bracket in front.
    cases front with
    | nil => cases hfront
    | cons c front =>
      obtain ⟨-, rfl⟩ : c = '[' ∧ front ++ [']'] = rest := List.cons_eq_cons.mp hfront
      show '[' :: (front ++ [']']) = '[' :: ((front ++ [']']).dropLast ++ [']'])
      rw [List.dropLast_concat]
  · rintro rfl
    refine ⟨⟨⟨name ++ [']'], rfl⟩, '[' :: name, rfl⟩, ?_⟩
    exact List.dropLast_concat

theorem sectionName?_eq_none_iff : sectionName? line = none ↔ ¬ IsHeader line := by
  rw [Option.eq_none_iff_forall_ne_some, IsHeader, not_exists]
  exact forall_congr' fun name => not_congr sectionName?_eq_some_iff

theorem says_pairOf (h : BareLine line) : Says line (pairOf line) := by
  unfold pairOf
  split
  · next hcomment => exact .other h (.inl (List.isPrefixOf_iff_prefix.mp hcomment))
  · next hcomment =>
    split
    · next front back hsplit =>
      obtain ⟨hfront, hline⟩ := Text.splitFirst?_eq_some_iff.mp hsplit
      refine .pair ⟨h, ?_, front, back, hfront, hline, rfl, rfl⟩
      exact fun hprefix => hcomment (List.isPrefixOf_iff_prefix.mpr hprefix)
    · next hsplit => exact .other h (.inr (Text.splitFirst?_eq_none_iff.mp hsplit))

theorem says_entryOf (line : List Char) : Says line (entryOf line) := by
  unfold entryOf
  split
  · next name hname => exact .header (sectionName?_eq_some_iff.mp hname)
  · next hheader =>
    split
    · next value hvalue =>
      exact .name ⟨_, List.mem_cons_self, value, Text.after?_eq_some_iff.mp hvalue, rfl⟩
    · next hname =>
      split
      · next value hvalue =>
        exact .description ⟨_, List.mem_cons_self, value, Text.after?_eq_some_iff.mp hvalue, rfl⟩
      · next hdescription =>
        split
        · next value hvalue =>
          rw [Option.orElse_eq_or, Option.or_eq_some_iff] at hvalue
          rcases hvalue with hvalue | ⟨-, hvalue⟩
          · exact .version ⟨_, List.mem_cons_self, value, Text.after?_eq_some_iff.mp hvalue, rfl⟩
          · exact .version ⟨_, List.mem_cons_of_mem _ List.mem_cons_self, value,
              Text.after?_eq_some_iff.mp hvalue, rfl⟩
        · next hversion =>
          rw [Option.orElse_eq_or, Option.or_eq_none_iff] at hversion
          refine says_pairOf ⟨sectionName?_eq_none_iff.mp hheader, ?_⟩
          simp only [nameLeads, descriptionLeads, versionLeads, List.cons_append, List.nil_append,
            List.forall_mem_cons, List.not_mem_nil, false_imp_iff, implies_true, and_true,
            ← Text.after?_eq_none_iff]
          exact ⟨hname, hdescription, hversion⟩

theorem BareLine.entryOf_eq (h : BareLine line) : entryOf line = pairOf line := by
  have hlead (lead : String) (hmem : lead ∈ nameLeads ++ descriptionLeads ++ versionLeads) :
      Text.after? lead.toList line = none :=
    Text.after?_eq_none_iff.mpr (h.lead lead hmem)
  rw [entryOf, sectionName?_eq_none_iff.mpr h.header, hlead "config/name=" (by decide),
    hlead "config/description=" (by decide), hlead "config/version=" (by decide),
    hlead "config/display_version=" (by decide)]
  rfl

theorem PairLine.pairOf_eq (h : PairLine line key path) : pairOf line = .pair key path := by
  obtain ⟨front, back, hfront, hline, rfl, rfl⟩ := h.pair
  rw [pairOf, if_neg (by simpa using h.comment),
    Text.splitFirst?_eq_some_iff.mpr ⟨hfront, hline⟩]

/-- A line has one form only. No lead begins like another one, or like a header. -/
theorem Says.entryOf_eq (h : Says line entry) : entryOf line = entry := by
  cases h with
  | header hopens => rw [entryOf, sectionName?_eq_some_iff.mpr hopens]
  | name hgives =>
    obtain ⟨lead, hlead, text, rfl, rfl⟩ := hgives
    obtain rfl := List.mem_singleton.mp hlead
    rfl
  | description hgives =>
    obtain ⟨lead, hlead, text, rfl, rfl⟩ := hgives
    obtain rfl := List.mem_singleton.mp hlead
    rfl
  | version hgives =>
    obtain ⟨lead, hlead, text, rfl, rfl⟩ := hgives
    simp only [versionLeads, List.mem_cons, List.not_mem_nil, or_false] at hlead
    rcases hlead with rfl | rfl
    · rfl
    · rfl
  | pair hpair => rw [hpair.entryOf_eq, hpair.pairOf_eq]
  | other hbare hrest =>
    rw [hbare.entryOf_eq, pairOf]
    split
    · rfl
    · next hcomment =>
      have hequals : '=' ∉ line := hrest.resolve_left (by simpa using hcomment)
      rw [Text.splitFirst?_eq_none_iff.mpr hequals]

theorem entryOf_eq_iff : entryOf line = entry ↔ Says line entry := by
  constructor
  · rintro rfl
    exact says_entryOf line
  · exact Says.entryOf_eq

/-! ## What the last line with a key tells -/

def Entry.header? : Entry → Option (List Char)
  | .header name => some name
  | _ => none

def Entry.name? : Entry → Option (List Char)
  | .name value => some value
  | _ => none

def Entry.description? : Entry → Option (List Char)
  | .description value => some value
  | _ => none

def Entry.version? : Entry → Option (List Char)
  | .version value => some value
  | _ => none

theorem header?_entryOf_iff (line name : List Char) :
    (entryOf line).header? = some name ↔ Opens line name := by
  have hentry : (entryOf line).header? = some name ↔ entryOf line = .header name := by
    cases entryOf line <;> simp [Entry.header?]
  rw [hentry, entryOf_eq_iff]
  exact ⟨fun | .header h => h, .header⟩

theorem name?_entryOf_iff (line value : List Char) :
    (entryOf line).name? = some value ↔ GivesValue nameLeads line value := by
  have hentry : (entryOf line).name? = some value ↔ entryOf line = .name value := by
    cases entryOf line <;> simp [Entry.name?]
  rw [hentry, entryOf_eq_iff]
  exact ⟨fun | .name h => h, .name⟩

theorem description?_entryOf_iff (line value : List Char) :
    (entryOf line).description? = some value ↔ GivesValue descriptionLeads line value := by
  have hentry : (entryOf line).description? = some value ↔ entryOf line = .description value := by
    cases entryOf line <;> simp [Entry.description?]
  rw [hentry, entryOf_eq_iff]
  exact ⟨fun | .description h => h, .description⟩

theorem version?_entryOf_iff (line value : List Char) :
    (entryOf line).version? = some value ↔ GivesValue versionLeads line value := by
  have hentry : (entryOf line).version? = some value ↔ entryOf line = .version value := by
    cases entryOf line <;> simp [Entry.version?]
  rw [hentry, entryOf_eq_iff]
  exact ⟨fun | .version h => h, .version⟩

/-- An empty version counts as `1.0`. -/
def shownVersion (value : List Char) : List Char := if value = [] then "1.0".toList else value

/-- What some lines of a project file have come to. -/
def readingOf (lines : List (List Char)) : ConfigReading := lines.foldl ConfigReading.take {}

/-- Besides the autoloads, each line sets one thing or nothing. -/
theorem take_fields (reading : ConfigReading) (line : List Char) :
    (reading.take line).openSection = (entryOf line).header?.getD reading.openSection ∧
    (reading.take line).config.name = (entryOf line).name?.getD reading.config.name ∧
    (reading.take line).config.description =
      (entryOf line).description?.getD reading.config.description ∧
    (reading.take line).config.version =
      ((entryOf line).version?.map shownVersion).getD reading.config.version := by
  unfold ConfigReading.take
  cases entryOf line with
  | pair key path =>
    dsimp only
    split
    · exact ⟨rfl, rfl, rfl, rfl⟩
    · exact ⟨rfl, rfl, rfl, rfl⟩
  | version value =>
    cases value with
    | nil => exact ⟨rfl, rfl, rfl, rfl⟩
    | cons c value => exact ⟨rfl, rfl, rfl, rfl⟩
  | _ => exact ⟨rfl, rfl, rfl, rfl⟩

theorem openSection_eq (lines : List (List Char)) : (readingOf lines).openSection =
    (lines.reverse.findSome? fun line => (entryOf line).header?).getD [] :=
  foldl_field_eq ConfigReading.openSection (fun reading line => (take_fields reading line).1) {}
    lines

/-- A field that each line with one of some leads sets is what the last of them gives. -/
theorem exists_told {told? : Entry → Option (List Char)} {leads : List String}
    (field : ConfigReading → List Char)
    (htold : ∀ line value, told? (entryOf line) = some value ↔ GivesValue leads line value)
    (hfield : ∀ reading line,
      field (reading.take line) = (told? (entryOf line)).getD (field reading))
    (lines : List (List Char)) :
    ∃ value, LastTold (GivesValue leads) lines value ∧
      field (readingOf lines) = value.getD (field {}) :=
  ⟨_, (lastTold_iff htold _).mpr rfl, foldl_field_eq field hfield {} lines⟩

theorem exists_name (lines : List (List Char)) :
    ∃ name, LastTold (GivesValue nameLeads) lines name ∧
      (readingOf lines).config.name = name.getD [] :=
  exists_told (fun reading => reading.config.name) name?_entryOf_iff
    (fun reading line => (take_fields reading line).2.1) lines

theorem exists_description (lines : List (List Char)) :
    ∃ description, LastTold (GivesValue descriptionLeads) lines description ∧
      (readingOf lines).config.description = description.getD [] :=
  exists_told (fun reading => reading.config.description) description?_entryOf_iff
    (fun reading line => (take_fields reading line).2.2.1) lines

theorem exists_version (lines : List (List Char)) :
    ∃ version, LastTold (GivesValue versionLeads) lines version ∧
      (readingOf lines).config.version = shownVersion (version.getD []) := by
  refine ⟨_, (lastTold_iff version?_entryOf_iff _).mpr rfl, ?_⟩
  have hversion : (readingOf lines).config.version =
      (lines.reverse.findSome? fun line => (entryOf line).version?.map shownVersion).getD
        "1.0".toList :=
    foldl_field_eq (fun reading => reading.config.version)
      (fun reading line => (take_fields reading line).2.2.2) {} lines
  have hmap : (lines.reverse.findSome? fun line => (entryOf line).version?.map shownVersion) =
      (lines.reverse.findSome? fun line => (entryOf line).version?).map shownVersion :=
    List.map_findSome?.symm
  rw [hversion, hmap]
  cases lines.reverse.findSome? fun line => (entryOf line).version? with
  | none => rfl
  | some version => rfl

/-- The section that is open behind some lines is the autoload section just when the last header
among them opens it. -/
theorem openSection_iff (lines : List (List Char)) :
    (readingOf lines).openSection = "autoload".toList ↔
      LastWith IsHeader lines "[autoload]".toList := by
  have hheader (line : List Char) : (entryOf line).header?.isSome ↔ IsHeader line := by
    rw [Option.isSome_iff_exists]
    exact exists_congr (header?_entryOf_iff line)
  have hopens (line : List Char) :
      Opens line "autoload".toList ↔ line = "[autoload]".toList := Iff.rfl
  have hfind : (lines.reverse.findSome? fun line => (entryOf line).header?).getD [] =
      "autoload".toList ↔
      (lines.reverse.findSome? fun line => (entryOf line).header?) = some "autoload".toList := by
    cases lines.reverse.findSome? fun line => (entryOf line).header? with
    | none => simp
    | some name => simp
  rw [openSection_eq, hfind, findSome?_reverse_iff]
  simp only [LastWith.congr hheader, header?_entryOf_iff, hopens]
  exact ⟨fun ⟨line, hlast, hline⟩ => hline ▸ hlast, fun hlast => ⟨_, hlast, rfl⟩⟩

/-! ## Which lines give paths to keys -/

/-- Line number `n`, counted from 0, stands in the autoload section and gives a key a path. -/
def GivesAt (lines : List (List Char)) (n : Nat) (key path : List Char) : Prop :=
  ∃ line, lines[n]? = some line ∧ LastWith IsHeader (lines.take n) "[autoload]".toList ∧
    PairLine line key path

def Gives (lines : List (List Char)) (n : Nat) (key : List Char) : Prop :=
  ∃ path, GivesAt lines n key path

/-- The path of the last line that gives the key one. -/
def LastGiven (lines : List (List Char)) (key path : List Char) : Prop :=
  ∃ n, GivesAt lines n key path ∧ ∀ later, n < later → ¬ Gives lines later key

/-- The first line for a key stands above each line for the other key. -/
def GivenBefore (lines : List (List Char)) (key other : List Char) : Prop :=
  ∃ n, Gives lines n key ∧ ∀ earlier ≤ n, ¬ Gives lines earlier other

/-- Entries that list what some lines give: each key once, with the path given last, in the order
in which they are given first. -/
structure Lists (lines : List (List Char)) (entries : List (List Char × List Char)) : Prop where
  keys : ∀ key, key ∈ entries.map Prod.fst ↔ ∃ n, Gives lines n key
  last : ∀ key path, (key, path) ∈ entries ↔ LastGiven lines key path
  order : (entries.map Prod.fst).Pairwise (GivenBefore lines)

theorem PairLine.unique {other path' : List Char} (h : PairLine line key path)
    (h' : PairLine line other path') : key = other ∧ path = path' := by
  have heq := (Says.pair h).entryOf_eq.symm.trans (Says.pair h').entryOf_eq
  cases heq
  exact ⟨rfl, rfl⟩

theorem GivesAt.lt_length (h : GivesAt lines n key path) : n < lines.length := by
  obtain ⟨line, hline, -⟩ := h
  exact (List.getElem?_eq_some_iff.mp hline).1

theorem Gives.lt_length (h : Gives lines n key) : n < lines.length := by
  obtain ⟨path, h⟩ := h
  exact h.lt_length

theorem givesAt_append_of_lt (hn : n < lines.length) :
    GivesAt (lines ++ [line]) n key path ↔ GivesAt lines n key path := by
  unfold GivesAt
  rw [List.getElem?_append_left hn, List.take_append_of_le_length (Nat.le_of_lt hn)]

theorem givesAt_append_length : GivesAt (lines ++ [line]) lines.length key path ↔
    LastWith IsHeader lines "[autoload]".toList ∧ PairLine line key path := by
  unfold GivesAt
  rw [List.getElem?_concat_length, List.take_left]
  exact ⟨fun ⟨_, hline, h⟩ => Option.some.inj hline ▸ h, fun h => ⟨line, rfl, h⟩⟩

/-- One more line gives what it gives, and leaves alone what the lines above it give. -/
theorem givesAt_append : GivesAt (lines ++ [line]) n key path ↔ GivesAt lines n key path ∨
    n = lines.length ∧ LastWith IsHeader lines "[autoload]".toList ∧ PairLine line key path := by
  rcases Nat.lt_trichotomy n lines.length with hn | rfl | hn
  · rw [givesAt_append_of_lt hn]
    exact ⟨.inl, fun h => h.resolve_right fun h => Nat.ne_of_lt hn h.1⟩
  · rw [givesAt_append_length]
    refine ⟨fun h => .inr ⟨rfl, h⟩, fun h => ?_⟩
    exact (h.resolve_left fun h => Nat.ne_of_lt h.lt_length rfl).2
  · refine ⟨fun h => ?_, fun h => ?_⟩
    · have hlt := h.lt_length
      rw [List.length_append, List.length_singleton] at hlt
      omega
    · rcases h with h | ⟨hlength, -⟩
      · have hlt := h.lt_length
        omega
      · omega

theorem gives_append_of_lt (hn : n < lines.length) :
    Gives (lines ++ [line]) n key ↔ Gives lines n key :=
  exists_congr fun _ => givesAt_append_of_lt hn

theorem GivenBefore.append {other : List Char} (h : GivenBefore lines key other)
    (line : List Char) : GivenBefore (lines ++ [line]) key other := by
  obtain ⟨n, hkey, hother⟩ := h
  have hn := hkey.lt_length
  refine ⟨n, (gives_append_of_lt hn).mpr hkey, fun earlier hearlier => ?_⟩
  rw [gives_append_of_lt (by omega)]
  exact hother earlier hearlier

theorem GivenBefore.ne {other : List Char} (h : GivenBefore lines key other) : key ≠ other := by
  rintro rfl
  obtain ⟨n, hkey, hother⟩ := h
  exact hother n (Nat.le_refl n) hkey

theorem Lists.nodup (h : Lists lines entries) : (entries.map Prod.fst).Nodup :=
  h.order.imp GivenBefore.ne

/-! ## Listing -/

theorem map_fst_putAutoload (key path : List Char) (entries : List (List Char × List Char)) :
    (putAutoload key path entries).map Prod.fst =
      if key ∈ entries.map Prod.fst then entries.map Prod.fst
      else entries.map Prod.fst ++ [key] := by
  induction entries with
  | nil => rfl
  | cons entry entries ih =>
    rw [putAutoload]
    by_cases hkey : entry.1 = key
    · simp [hkey]
    · have hmem : key ∈ (entry :: entries).map Prod.fst ↔ key ∈ entries.map Prod.fst := by
        rw [List.map_cons, List.mem_cons]
        exact or_iff_right (Ne.symm hkey)
      rw [if_neg hkey, List.map_cons, ih]
      simp only [hmem]
      split
      · rfl
      · rfl

theorem mem_putAutoload {entry : List Char × List Char} (hnodup : (entries.map Prod.fst).Nodup) :
    entry ∈ putAutoload key path entries ↔
      entry = (key, path) ∨ entry.1 ≠ key ∧ entry ∈ entries := by
  induction entries with
  | nil => simp [putAutoload]
  | cons first entries ih =>
    obtain ⟨hfirst, hnodup⟩ := List.nodup_cons.mp hnodup
    rw [putAutoload]
    by_cases hkey : first.1 = key
    · have hne (h : entry ∈ entries) : entry.1 ≠ key := by
        rintro rfl
        exact hfirst (hkey ▸ List.mem_map_of_mem h)
      rw [if_pos hkey, List.mem_cons, List.mem_cons]
      refine or_congr_right ⟨fun h => ⟨hne h, .inr h⟩, ?_⟩
      rintro ⟨hother, rfl | h⟩
      · exact absurd hkey hother
      · exact h
    · rw [if_neg hkey, List.mem_cons, List.mem_cons, ih hnodup, or_left_comm]
      refine or_congr_right ⟨?_, ?_⟩
      · rintro (rfl | ⟨hne, h⟩)
        · exact ⟨hkey, .inl rfl⟩
        · exact ⟨hne, .inr h⟩
      · rintro ⟨hne, h⟩
        exact h.imp_right fun h => ⟨hne, h⟩

/-- A line that gives nothing leaves the list as it is. -/
theorem Lists.append_of_not (h : Lists lines entries)
    (hnone : ∀ key path, ¬ (LastWith IsHeader lines "[autoload]".toList ∧ PairLine line key path)) :
    Lists (lines ++ [line]) entries := by
  have hat (n : Nat) (key path : List Char) :
      GivesAt (lines ++ [line]) n key path ↔ GivesAt lines n key path := by
    rw [givesAt_append]
    exact or_iff_left fun h => hnone key path h.2
  have hgives (n : Nat) (key : List Char) : Gives (lines ++ [line]) n key ↔ Gives lines n key :=
    exists_congr (hat n key)
  refine ⟨fun key => ?_, fun key path => ?_, h.order.imp fun h => h.append line⟩
  · simp only [hgives]
    exact h.keys key
  · unfold LastGiven
    simp only [hat, hgives]
    exact h.last key path

/-! ### A new pair -/

section
variable {other otherPath : List Char} (hsection : LastWith IsHeader lines "[autoload]".toList)
  (hpair : PairLine line key path)
include hsection hpair

theorem givesAt_append_pair : GivesAt (lines ++ [line]) n other otherPath ↔
    GivesAt lines n other otherPath ∨ n = lines.length ∧ other = key ∧ otherPath = path := by
  rw [givesAt_append]
  refine or_congr_right (and_congr_right fun _ => ⟨fun ⟨_, hother⟩ => hother.unique hpair, ?_⟩)
  rintro ⟨rfl, rfl⟩
  exact ⟨hsection, hpair⟩

theorem gives_append_pair : Gives (lines ++ [line]) n other ↔
    Gives lines n other ∨ n = lines.length ∧ other = key := by
  unfold Gives
  simp only [givesAt_append_pair hsection hpair, exists_or, exists_and_left, exists_eq, and_true]

/-- No line stands behind the new one, and each older one stands above it. -/
theorem lastGiven_append_pair_self : LastGiven (lines ++ [line]) key otherPath ↔
    otherPath = path := by
  constructor
  · rintro ⟨n, hgiven, hlast⟩
    rcases (givesAt_append_pair hsection hpair).mp hgiven with hgiven | ⟨-, -, hpath⟩
    · have hnew := (gives_append_pair hsection hpair).mpr (.inr ⟨rfl, rfl⟩)
      exact absurd hnew (hlast _ hgiven.lt_length)
    · exact hpath
  · rintro rfl
    have hnew := (givesAt_append_pair hsection hpair).mpr (.inr ⟨rfl, rfl, rfl⟩)
    refine ⟨lines.length, hnew, fun later hlater hlate => ?_⟩
    have hlt := hlate.lt_length
    rw [List.length_append, List.length_singleton] at hlt
    omega

theorem lastGiven_append_pair_of_ne (hother : other ≠ key) :
    LastGiven (lines ++ [line]) other otherPath ↔ LastGiven lines other otherPath := by
  unfold LastGiven
  simp only [givesAt_append_pair hsection hpair, gives_append_pair hsection hpair, hother,
    false_and, and_false, or_false]

/-- A key that is new comes behind the ones that are there. -/
theorem givenBefore_append_pair (hgiven : Gives lines n other)
    (hnew : ¬ ∃ earlier, Gives lines earlier key) : GivenBefore (lines ++ [line]) other key := by
  refine ⟨n, (gives_append_pair hsection hpair).mpr (.inl hgiven), fun earlier hearlier => ?_⟩
  rw [gives_append_of_lt (Nat.lt_of_le_of_lt hearlier hgiven.lt_length)]
  exact fun hearly => hnew ⟨earlier, hearly⟩

/-- A line that gives a key a path puts the two into the list. -/
theorem Lists.append_of_pair (h : Lists lines entries) :
    Lists (lines ++ [line]) (putAutoload key path entries) where
  keys other := by
    simp only [gives_append_pair hsection hpair, exists_or, exists_eq_left, ← h.keys]
    rw [map_fst_putAutoload]
    split
    · next hkey => exact ⟨.inl, fun h => h.elim id fun heq => heq ▸ hkey⟩
    · rw [List.mem_append, List.mem_singleton]
  last other otherPath := by
    rw [mem_putAutoload h.nodup, Prod.mk.injEq]
    by_cases hother : other = key
    · subst hother
      rw [lastGiven_append_pair_self hsection hpair]
      simp
    · rw [lastGiven_append_pair_of_ne hsection hpair hother, ← h.last]
      simp [hother]
  order := by
    have hkept := h.order.imp fun h => h.append line
    rw [map_fst_putAutoload]
    split
    · exact hkept
    · next hkey =>
      refine List.pairwise_append.mpr ⟨hkept, List.pairwise_singleton _ _, ?_⟩
      intro other hother _ hmem
      obtain rfl := List.mem_singleton.mp hmem
      obtain ⟨n, hgiven⟩ := (h.keys other).mp hother
      exact givenBefore_append_pair hsection hpair hgiven (mt (h.keys _).mpr hkey)

end

theorem readingOf_append (lines : List (List Char)) (line : List Char) :
    readingOf (lines ++ [line]) = (readingOf lines).take line := by
  rw [readingOf, List.foldl_append]
  rfl

theorem pair_entryOf_iff : entryOf line = .pair key path ↔ PairLine line key path := by
  rw [entryOf_eq_iff]
  exact ⟨fun | .pair h => h, .pair⟩

/-- Only a pair in the autoload section changes the autoloads. -/
theorem take_autoloads (reading : ConfigReading) (line : List Char) :
    (∃ key path, reading.openSection = "autoload".toList ∧ PairLine line key path ∧
      (reading.take line).config.autoloads = putAutoload key path reading.config.autoloads) ∨
    (∀ key path, ¬ (reading.openSection = "autoload".toList ∧ PairLine line key path)) ∧
      (reading.take line).config.autoloads = reading.config.autoloads := by
  unfold ConfigReading.take
  simp only [← pair_entryOf_iff]
  cases hentry : entryOf line with
  | pair key path =>
    dsimp only
    split
    · next hsection => exact .inl ⟨key, path, hsection, rfl, rfl⟩
    · next hsection => exact .inr ⟨fun _ _ h => hsection h.1, rfl⟩
  | _ => exact .inr ⟨fun _ _ h => (nomatch h.2), rfl⟩

/-- What the lines of a project file have listed so far. -/
theorem lists_readingOf (lines : List (List Char)) :
    Lists lines (readingOf lines).config.autoloads := by
  induction lines using List.reverseRecOn with
  | nil =>
    have hnone (n : Nat) (key : List Char) : ¬ Gives [] n key :=
      fun h => Nat.not_lt_zero n h.lt_length
    refine ⟨fun key => ?_, fun key path => ?_, .nil⟩
    · exact ⟨fun h => (nomatch h), fun ⟨n, h⟩ => absurd h (hnone n key)⟩
    · exact ⟨fun h => (nomatch h), fun ⟨n, h, _⟩ => absurd ⟨path, h⟩ (hnone n key)⟩
  | append_singleton lines line ih =>
    rw [readingOf_append]
    rcases take_autoloads (readingOf lines) line with ⟨key, path, hsection, hpair, htake⟩ |
      ⟨hnone, htake⟩
    · rw [htake]
      exact Lists.append_of_pair ((openSection_iff lines).mp hsection) hpair ih
    · rw [htake]
      simp only [openSection_iff] at hnone
      exact ih.append_of_not hnone

/-- The configuration of a project file, by its lines. -/
theorem config_of_lines (content : List Char) :
    let lines := trimmedLines content
    let config := configOf content
    (config.autoloads.map Prod.fst).Nodup ∧
    (∀ key, key ∈ config.autoloads.map Prod.fst ↔ ∃ n, Gives lines n key) ∧
    (∀ key path, (key, path) ∈ config.autoloads ↔ LastGiven lines key path) ∧
    (config.autoloads.map Prod.fst).Pairwise (GivenBefore lines) ∧
    (∃ name, LastTold (GivesValue nameLeads) lines name ∧ config.name = name.getD []) ∧
    (∃ description, LastTold (GivesValue descriptionLeads) lines description ∧
      config.description = description.getD []) ∧
    ∃ version, LastTold (GivesValue versionLeads) lines version ∧
      config.version = if version.getD [] = [] then "1.0".toList else version.getD [] := by
  intro lines config
  have hlists := lists_readingOf lines
  exact ⟨hlists.nodup, hlists.keys, hlists.last, hlists.order, exists_name lines,
    exists_description lines, exists_version lines⟩

/-- The second `A` stands in the section as well, so `A` has its path and the place of the first. -/
example : (configOf "[autoload]\nA=1\nB=\"*2\"\n[x]\nC=3\n [autoload]\nA = **4".toList).autoloads =
    [("A".toList, "4".toList), ("B".toList, "2".toList)] := by
  decide +kernel

end EditorLink.Project
