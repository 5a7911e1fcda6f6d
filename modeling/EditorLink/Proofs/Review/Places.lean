import EditorLink.Proofs.Migration.Repeated
import EditorLink.Proofs.Review.Findings

/-!
# Places of reported changes

The error for a change stands where the old symbol of the change is found first, line by line. Here
that place is tied to an index of the whole text: `placeAt` counts the line breaks before an index
and the characters after the last of them, and `Place.offset` leads back from a place to its index.
A symbol without a line break is found at the place of the least index at which it occurs. The rules
that look for their symbol letter by letter fire only where it occurs. The rules for materials allow
blanks around the point, so theirs may be missing, and then the error has no place.
-/

namespace EditorLink.Review

open Migration

/-- The least index of a text at which a piece begins. -/
def FirstAt (piece text : List Char) (index : Nat) : Prop :=
  piece <+: text.drop index ∧ ∀ earlier < index, ¬ piece <+: text.drop earlier

/-- The place of an index: lines and columns count from 1, and only line breaks end a line. -/
def placeAt (text : List Char) (index : Nat) : Place :=
  let before := text.take index
  ⟨before.count '\n' + 1, (before.reverse.takeWhile (· != '\n')).length + 1⟩

/-- The index of a place: all lines above it with their line breaks, and what stands before it on
its own line. -/
def Place.offset (lines : List Line) (place : Place) : Nat :=
  (lines.take (place.line - 1)).foldr (fun line total => line.length + 1 + total) (place.column - 1)

variable {piece symbol text line rest source : List Char} {index : Nat} {c : Char} {error : Error}

/-! ## Texts line by line -/

/-- A text is its only line, or a line and the text after the first line break. -/
theorem text_induction {motive : List Char → Prop}
    (last : ∀ line, '\n' ∉ line → motive line)
    (more : ∀ line rest, '\n' ∉ line → motive rest → motive (line ++ '\n' :: rest))
    (text : List Char) : motive text := by
  induction hn : text.length using Nat.strongRecOn generalizing text with
  | ind n ih =>
    by_cases hbreak : '\n' ∈ text
    · obtain ⟨line, rest, rfl, hline⟩ := List.eq_append_cons_of_mem hbreak
      refine more line rest hline (ih rest.length ?_ rest rfl)
      rw [← hn, List.length_append, List.length_cons]
      omega
    · exact last text hbreak

theorem linesOf_last (h : '\n' ∉ line) : linesOf line = [line] :=
  List.splitOn_eq_singleton h

theorem linesOf_append_break (h : '\n' ∉ line) (rest : List Char) :
    linesOf (line ++ '\n' :: rest) = line :: linesOf rest :=
  List.splitOn_append_cons_self_of_not_mem h rest

/-! ## First occurrences -/

theorem firstAt_zero : FirstAt piece text 0 ↔ piece <+: text := by
  simp [FirstAt]

theorem firstAt_succ :
    FirstAt piece (c :: text) (index + 1) ↔ ¬ piece <+: c :: text ∧ FirstAt piece text index := by
  constructor
  · rintro ⟨hhere, hbefore⟩
    exact ⟨hbefore 0 (Nat.succ_pos index), hhere,
      fun earlier hlt => hbefore (earlier + 1) (Nat.succ_lt_succ hlt)⟩
  · rintro ⟨hfirst, hhere, hbefore⟩
    refine ⟨hhere, fun earlier hlt => ?_⟩
    cases earlier with
    | zero => exact hfirst
    | succ earlier => exact hbefore earlier (Nat.lt_of_succ_lt_succ hlt)

theorem FirstAt.lt_length (h : FirstAt piece text index) (hne : piece ≠ []) :
    index < text.length := by
  by_contra hle
  have hpiece := h.1
  rw [List.drop_eq_nil_of_le (Nat.le_of_not_lt hle)] at hpiece
  exact hne (List.prefix_nil.mp hpiece)

theorem indexOf?_nil (hne : piece ≠ []) : Text.indexOf? piece [] = none := by
  simp [Text.indexOf?, hne]

theorem indexOf?_eq_zero (h : piece <+: text) : Text.indexOf? piece text = some 0 := by
  cases text with
  | nil => simp [Text.indexOf?, List.prefix_nil.mp h]
  | cons c text => simp [Text.indexOf?, h]

theorem indexOf?_cons (h : ¬ piece <+: c :: text) :
    Text.indexOf? piece (c :: text) = (Text.indexOf? piece text).map (· + 1) := by
  simp [Text.indexOf?, h]

theorem indexOf?_eq_some_iff :
    Text.indexOf? piece text = some index ↔ FirstAt piece text index := by
  induction text generalizing index with
  | nil =>
    cases index with
    | zero => simp [Text.indexOf?, firstAt_zero, List.isEmpty_iff]
    | succ index =>
      have hnot : ¬ FirstAt piece [] (index + 1) :=
        fun h => h.2 0 (Nat.succ_pos index) (by simpa using h.1)
      simp [Text.indexOf?, hnot]
  | cons c text ih =>
    by_cases hlead : piece <+: c :: text
    · rw [indexOf?_eq_zero hlead]
      cases index with
      | zero => simp [hlead, firstAt_zero]
      | succ index => simp [hlead, firstAt_succ]
    · rw [indexOf?_cons hlead]
      cases index with
      | zero => simp [hlead, firstAt_zero]
      | succ index => simp [hlead, firstAt_succ, ih]

theorem indexOf?_eq_none_iff : Text.indexOf? piece text = none ↔ ¬ piece <:+: text := by
  rw [← contains_iff, Text.contains]
  simp

/-- A piece without a line break begins before a line break only if it lies before it. -/
theorem prefix_append_break (hbreak : '\n' ∉ piece) (rest : List Char) :
    piece <+: line ++ '\n' :: rest ↔ piece <+: line := by
  constructor
  · rintro ⟨back, heq⟩
    rcases List.append_eq_append_iff.mp heq with ⟨gap, rfl, -⟩ | ⟨gap, rfl, hgap⟩
    · exact List.prefix_append piece gap
    · cases gap with
      | nil => simp
      | cons c gap =>
        obtain ⟨rfl, -⟩ := List.cons_eq_cons.mp hgap
        simp at hbreak
  · exact fun h => h.trans (List.prefix_append line _)

/-- A piece without a line break is found in the first line, or else behind it. -/
theorem indexOf?_append_break (hbreak : '\n' ∉ piece) (hne : piece ≠ []) (line rest : List Char) :
    Text.indexOf? piece (line ++ '\n' :: rest) =
      (Text.indexOf? piece line).or
        ((Text.indexOf? piece rest).map (line.length + 1 + ·)) := by
  induction line with
  | nil =>
    have hnot : ¬ piece <+: '\n' :: rest := by
      rw [← List.nil_append ('\n' :: rest), prefix_append_break hbreak, List.prefix_nil]
      exact hne
    rw [indexOf?_nil hne, Option.none_or, List.nil_append, indexOf?_cons hnot]
    simp [Nat.add_comm]
  | cons c line ih =>
    by_cases hhere : piece <+: c :: line
    · have hbroken := (prefix_append_break hbreak rest).mpr hhere
      rw [indexOf?_eq_zero hhere, indexOf?_eq_zero hbroken]
      rfl
    · have hnot : ¬ piece <+: c :: (line ++ '\n' :: rest) :=
        fun h => hhere ((prefix_append_break hbreak rest).mp h)
      rw [List.cons_append, indexOf?_cons hnot, indexOf?_cons hhere, ih]
      cases Text.indexOf? piece line with
      | some index => rfl
      | none =>
        cases Text.indexOf? piece rest with
        | none => rfl
        | some index =>
          simp only [Option.map_none, Option.map_some, Option.none_or, List.length_cons,
            Option.some_inj]
          omega

/-! ## Places and indices -/

theorem placeAt_of_le (hline : '\n' ∉ line) (h : index ≤ line.length) (back : List Char) :
    placeAt (line ++ back) index = ⟨1, index + 1⟩ := by
  have hbreak : '\n' ∉ line.take index := fun hmem => hline (List.mem_of_mem_take hmem)
  have hall : ∀ c ∈ (line.take index).reverse, (c != '\n') = true := by
    intro c hc
    simpa using fun heq : c = '\n' => hbreak (heq ▸ List.mem_reverse.mp hc)
  rw [placeAt, List.take_append_of_le_length h, List.takeWhile_eq_self_iff.mpr hall,
    List.count_eq_zero.mpr hbreak, List.length_reverse, List.length_take, Nat.min_eq_left h]

/-- Behind a line break the lines count from the next one. -/
theorem placeAt_append_break (hline : '\n' ∉ line) (rest : List Char) (index : Nat) :
    placeAt (line ++ '\n' :: rest) (line.length + 1 + index) =
      ⟨(placeAt rest index).line + 1, (placeAt rest index).column⟩ := by
  have htake : (line ++ '\n' :: rest).take (line.length + 1 + index) =
      line ++ '\n' :: rest.take index := by
    have hlength : line.length + 1 + index = (line ++ ['\n']).length + index := by simp
    rw [List.append_cons line _ rest, List.append_cons line _ (rest.take index), hlength,
      List.take_length_add_append]
  have hstop : ∀ back : List Char, (back ++ '\n' :: line.reverse).takeWhile (· != '\n') =
      back.takeWhile (· != '\n') := by
    intro back
    induction back with
    | nil => rfl
    | cons c back ih => rw [List.cons_append, List.takeWhile_cons, List.takeWhile_cons, ih]
  simp only [placeAt, htake, List.count_append, List.count_cons_self, List.reverse_append,
    List.reverse_cons, List.append_assoc, List.singleton_append, hstop,
    List.count_eq_zero.mpr hline, Nat.zero_add]

/-- The place of an index leads back to the index. -/
theorem offset_placeAt (h : index ≤ text.length) :
    (placeAt text index).offset (linesOf text) = index := by
  induction text using text_induction generalizing index with
  | last line hline =>
    have hplace := placeAt_of_le hline h []
    rw [List.append_nil] at hplace
    rw [hplace]
    simp [Place.offset]
  | more line rest hline ih =>
    rcases Nat.lt_or_ge line.length index with hlt | hle
    · obtain ⟨later, rfl⟩ := Nat.exists_eq_add_of_lt hlt
      rw [Nat.add_right_comm] at h ⊢
      have hlater : later ≤ rest.length := by
        rw [List.length_append, List.length_cons] at h
        omega
      have hrest := ih hlater
      rw [placeAt_append_break hline, linesOf_append_break hline]
      simp only [Place.offset, placeAt, Nat.add_sub_cancel, List.take_succ_cons,
        List.foldr_cons] at hrest ⊢
      rw [hrest]
    · rw [placeAt_of_le hline hle, linesOf_append_break hline]
      simp [Place.offset]

theorem firstPlace?_cons (symbol : List Char) (line : Line) (lines : List Line) :
    firstPlace? symbol (line :: lines) =
      ((Text.indexOf? symbol line).map fun index => ⟨1, index + 1⟩).or
        ((firstPlace? symbol lines).map fun place => ⟨place.line + 1, place.column⟩) := by
  unfold firstPlace?
  rw [List.zipIdx_cons, List.findSome?_cons, List.zipIdx_succ, List.findSome?_map,
    List.map_findSome?]
  cases hindex : Text.indexOf? symbol line with
  | some index => simp [hindex]
  | none =>
    simp only [hindex, Option.map_none, Option.none_or]
    congr 1
    funext entry
    simp [Function.comp_def]

/-- The search line by line finds the place of the first occurrence in the whole text. -/
theorem firstPlace?_linesOf (hbreak : '\n' ∉ symbol) (hne : symbol ≠ []) (text : List Char) :
    firstPlace? symbol (linesOf text) = (Text.indexOf? symbol text).map (placeAt text) := by
  have hfirst : ∀ line back, '\n' ∉ line → ∀ index ∈ Text.indexOf? symbol line,
      placeAt (line ++ back) index = ⟨1, index + 1⟩ := fun line back hline index hindex =>
    placeAt_of_le hline (Nat.le_of_lt ((indexOf?_eq_some_iff.mp hindex).lt_length hne)) back
  induction text using text_induction with
  | last line hline =>
    rw [linesOf_last hline, firstPlace?_cons]
    cases hindex : Text.indexOf? symbol line with
    | none => rfl
    | some index =>
      have hplace := hfirst line [] hline index hindex
      rw [List.append_nil] at hplace
      simp [hplace]
  | more line rest hline ih =>
    rw [linesOf_append_break hline, firstPlace?_cons, ih, indexOf?_append_break hbreak hne]
    cases hindex : Text.indexOf? symbol line with
    | some index => simp [hfirst line _ hline index hindex]
    | none =>
      cases Text.indexOf? symbol rest with
      | none => rfl
      | some index => simp [placeAt_append_break hline]

/-! ## Symbols of reported changes -/

/-- The symbols of the rules that look for them letter by letter. -/
def exactSymbols : List String :=
  ["has_property", "set_looped", "get_color_at_offset", "ColorRect", "get_shader_parameter"]

/-- The old symbol of a reported change has letters and no line break. -/
theorem exists_symbol (rule : Rule) : ∃ symbol, rule.change.fromSymbol = some symbol ∧
    '\n' ∉ symbol.toList ∧ symbol.toList ≠ [] := by
  cases rule with
  | material property => cases property <;> exact ⟨_, rfl, by decide, by decide⟩
  | _ => exact ⟨_, rfl, by decide, by decide⟩

theorem CallOccurs.isInfix {name : String} (h : CallOccurs name source) :
    name.toList <:+: source := by
  obtain ⟨front, ws, back, -, rfl⟩ := h
  exact ⟨front ++ ".".toList, ws ++ "(".toList ++ back, by simp⟩

theorem isInfix_of_occursIn {rule : Rule} {symbol : String} (h : rule.OccursIn source)
    (hsymbol : rule.change.fromSymbol = some symbol) (hexact : symbol ∈ exactSymbols) :
    symbol.toList <:+: source := by
  cases rule with
  | hasProperty =>
    cases hsymbol
    exact CallOccurs.isInfix h
  | setLooped =>
    cases hsymbol
    exact CallOccurs.isInfix h
  | colorAtOffset =>
    cases hsymbol
    exact CallOccurs.isInfix h
  | colorRect =>
    cases hsymbol
    obtain ⟨front, back, rfl⟩ := h
    exact ⟨front, back, rfl⟩
  | shaderParameter =>
    cases hsymbol
    obtain ⟨front, argument, ws, sign, back, -, -, -, -, rfl⟩ := h
    exact ⟨front, "(".toList ++ argument ++ ")".toList ++ ws ++ [sign] ++ back, by simp⟩
  | material property => cases property <;> cases hsymbol <;> exact absurd hexact (by decide)

theorem kind_of_mem_indentErrors {lines : List Line} (h : error ∈ indentErrors lines) :
    error.kind = .badSyntax := by
  obtain ⟨index, line, -, rfl⟩ := mem_indentErrors h
  rfl

/-- An error about a change stands at the place of the first occurrence of the change's old symbol
in the whole script, and the place leads back to the index of that occurrence. The error has no
place just when the symbol does not occur, which happens for the changes of materials only. -/
theorem errors_stand_at_first_occurrence (source : List Char) (major : Option Int) (error : Error)
    (herror : error ∈ (ofScript source major).errors) (hkind : error.kind = .apiCompatibility) :
    ∃ change ∈ reportedChanges source, ∃ symbol, change.fromSymbol = some symbol ∧
      error.code = some symbol ∧
      (error.line = none ↔ ¬ symbol.toList <:+: source) ∧
      (error.column = none ↔ ¬ symbol.toList <:+: source) ∧
      (symbol.toList <:+: source → ∃ index, FirstAt symbol.toList source index ∧
        error.line = some ((placeAt source index).line : Int) ∧
        error.column = some ((placeAt source index).column : Int) ∧
        (placeAt source index).offset (linesOf source) = index) ∧
      (symbol ∈ exactSymbols → symbol.toList <:+: source) := by
  rcases List.mem_append.mp herror with hapi | hindent
  · obtain ⟨change, hreported, rfl⟩ := List.mem_map.mp hapi
    obtain ⟨rule, hoccurs, rfl⟩ := mem_reportedChanges.mp hreported
    obtain ⟨symbol, hsymbol, hbreak, hne⟩ := exists_symbol rule
    have hplace := firstPlace?_linesOf hbreak hne source
    have hline : (apiError (linesOf source) rule.change).line =
        (Text.indexOf? symbol.toList source).map
          fun index => ((placeAt source index).line : Int) := by
      simp [apiError, hsymbol, hplace, Function.comp_def]
    have hcolumn : (apiError (linesOf source) rule.change).column =
        (Text.indexOf? symbol.toList source).map
          fun index => ((placeAt source index).column : Int) := by
      simp [apiError, hsymbol, hplace, Function.comp_def]
    refine ⟨rule.change, hreported, symbol, hsymbol, ?_, ?_, ?_, ?_, ?_⟩
    · simp [apiError, hsymbol]
    · rw [hline, Option.map_eq_none_iff, indexOf?_eq_none_iff]
    · rw [hcolumn, Option.map_eq_none_iff, indexOf?_eq_none_iff]
    · intro hinfix
      obtain ⟨index, hindex⟩ : ∃ index, Text.indexOf? symbol.toList source = some index := by
        rw [← Option.ne_none_iff_exists', Ne, indexOf?_eq_none_iff, not_not]
        exact hinfix
      have hfirst := indexOf?_eq_some_iff.mp hindex
      refine ⟨index, hfirst, by rw [hline, hindex]; rfl, by rw [hcolumn, hindex]; rfl, ?_⟩
      exact offset_placeAt (Nat.le_of_lt (hfirst.lt_length hne))
    · exact isInfix_of_occursIn hoccurs hsymbol
  · rw [kind_of_mem_indentErrors hindent] at hkind
    cases hkind

/-- The call is on the second line, and the error stands at the comment above it. -/
theorem errors_stand_at_first_occurrence_comment :
    ∃ error ∈ (ofScript "# get_color_at_offset\nx = g.get_color_at_offset(0)".toList none).errors,
      error.kind = .apiCompatibility ∧ error.line = some 1 ∧ error.column = some 3 := by
  have hreported : colorAtOffsetRemoved ∈
      reportedChanges "# get_color_at_offset\nx = g.get_color_at_offset(0)".toList := by
    decide
  refine ⟨_, List.mem_append_left _ (List.mem_map_of_mem hreported), rfl, ?_⟩
  obtain ⟨change, -, symbol, -, hcode, -, -, hplace, hexact⟩ :=
    errors_stand_at_first_occurrence _ none _
      (List.mem_append_left _ (List.mem_map_of_mem hreported)) rfl
  obtain rfl : "get_color_at_offset" = symbol := Option.some.inj hcode
  obtain ⟨index, hfirst, hline, hcolumn, -⟩ := hplace (hexact (by decide))
  have hindex : Text.indexOf? "get_color_at_offset".toList
      "# get_color_at_offset\nx = g.get_color_at_offset(0)".toList = some 2 := by
    decide
  obtain rfl : 2 = index :=
    Option.some.inj (hindex.symm.trans (indexOf?_eq_some_iff.mpr hfirst))
  rw [hline, hcolumn]
  decide

/-- The rule for a material allows blanks around the point, and the symbol is not there. -/
example : (ofScript "material . lifetime = 2".toList none).errors.map
    (fun error => (error.line, error.column)) = [(none, none)] := by
  decide +kernel

end EditorLink.Review
