import EditorLink.Proofs.Review.Places
import EditorLink.Proofs.Review.Findings

/-!
# Verdicts, counts and places of a review

The checks of a review know nothing of each other, and its summary counts what they give by weight:
an error that is only a warning by its level counts among the warnings. The counts add up because no
check gives an error of any third level. A place is a line of the script and a character of that
line, because a symbol has at least one letter.
-/

namespace EditorLink.Review

open Migration

/-- The findings of a review, its summary and the lines of the script agree. -/
structure Consistent (lines : List Line) (review : Review) : Prop where
  isValid_iff : review.isValid ↔ review.errors = []
  total_eq_counts : review.summary.total =
    review.summary.errors + review.summary.warnings + review.summary.suggestions
  total_eq_lengths : review.summary.total =
    review.errors.length + review.warnings.length + review.suggestions.length
  breakingChanges_iff : review.summary.compatibility = .breakingChanges ↔
    ∃ error ∈ review.errors, error.level = .error
  fullyCompatible_iff : review.summary.compatibility = .fullyCompatible ↔
    review.errors = [] ∧ review.warnings = []
  needsAttention_iff : review.summary.compatibility = .needsAttention ↔
    (¬ ∃ error ∈ review.errors, error.level = .error) ∧
      ¬ (review.errors = [] ∧ review.warnings = [])
  error_line : ∀ error ∈ review.errors, ∀ number, error.line = some number →
    1 ≤ number ∧ number ≤ lines.length
  error_column : ∀ error ∈ review.errors, ∀ column, error.column = some column →
    ∃ (number : Nat) (line : Line), error.line = some (number + 1 : Int) ∧
      lines[number]? = some line ∧ 1 ≤ column ∧ column ≤ line.length
  warning_line : ∀ warning ∈ review.warnings, 1 ≤ warning.line ∧ warning.line ≤ lines.length

variable {source symbol : List Char} {major : Option Int} {lines : List Line} {error : Error}
  {review : Review} {place : Place}

/-! ## Counts -/

/-- Every error counts for something: none is mere information. -/
def Weighty (review : Review) : Prop :=
  ∀ error ∈ review.errors, error.level = .error ∨ error.level = .warning

theorem weighty_ofScript (source : List Char) (major : Option Int) :
    Weighty (ofScript source major) := by
  intro error herror
  rcases List.mem_append.mp herror with hapi | hindent
  · obtain ⟨change, -, rfl⟩ := List.mem_map.mp hapi
    exact ite_eq_or_eq _ _ _
  · obtain ⟨index, line, -, rfl⟩ := mem_indentErrors hindent
    exact .inl rfl

theorem Weighty.length_eq (h : Weighty review) :
    review.errors.length = review.countLevel .error + review.countLevel .warning := by
  rw [List.length_eq_countP_add_countP (fun error : Error => decide (error.level = .error))]
  congr 1
  apply List.countP_congr
  intro error herror
  rcases h error herror with hlevel | hlevel <;> simp [hlevel]

theorem countLevel_ne_zero_iff (level : Level) :
    review.countLevel level ≠ 0 ↔ ∃ error ∈ review.errors, error.level = level := by
  unfold countLevel
  rw [← Nat.pos_iff_ne_zero, List.countP_pos_iff]
  simp only [decide_eq_true_eq]

theorem breakingChanges_iff_count :
    review.summary.compatibility = .breakingChanges ↔ review.countLevel .error ≠ 0 := by
  unfold summary
  dsimp only
  split
  · simp_all
  · split <;> simp_all

theorem fullyCompatible_iff_counts : review.summary.compatibility = .fullyCompatible ↔
    review.countLevel .error = 0 ∧ review.warnings.length + review.countLevel .warning = 0 := by
  unfold summary
  dsimp only
  split
  · simp_all
  · split <;> simp_all

theorem Weighty.fullyCompatible_iff (h : Weighty review) :
    review.summary.compatibility = .fullyCompatible ↔
      review.errors = [] ∧ review.warnings = [] := by
  have hlength := h.length_eq
  rw [fullyCompatible_iff_counts, ← List.length_eq_zero_iff, ← List.length_eq_zero_iff]
  omega

/-! ## Places -/

theorem indexed_of_firstPlace? (hne : symbol ≠ []) (h : firstPlace? symbol lines = some place) :
    ∃ (number : Nat) (line : Line), place.line = number + 1 ∧ lines[number]? = some line ∧
      1 ≤ place.column ∧ place.column ≤ line.length := by
  obtain ⟨⟨line, number⟩, hmem, hplace⟩ := List.exists_of_findSome?_eq_some h
  obtain ⟨index, hindex, rfl⟩ := Option.map_eq_some_iff.mp hplace
  obtain ⟨hle, hline⟩ := List.mem_zipIdx_iff_le_and_getElem?_sub.mp hmem
  have hlt : index < line.length := (indexOf?_eq_some_iff.mp hindex).lt_length hne
  dsimp only at hle hline ⊢
  exact ⟨number - 1, line, by omega, hline, by omega, by omega⟩

/-- An error has no place, or a line of the script and no column outside that line. -/
def Placed (lines : List Line) (error : Error) : Prop :=
  error.line = none ∧ error.column = none ∨
    ∃ (number : Nat) (line : Line), error.line = some (number + 1 : Int) ∧
      lines[number]? = some line ∧
      ∀ column, error.column = some column → 1 ≤ column ∧ column ≤ line.length

theorem placed_apiError (rule : Rule) (lines : List Line) :
    Placed lines (apiError lines rule.change) := by
  obtain ⟨symbol, hsymbol, -, hne⟩ := exists_symbol rule
  cases hplace : firstPlace? symbol.toList lines with
  | none => exact .inl ⟨by simp [apiError, hsymbol, hplace], by simp [apiError, hsymbol, hplace]⟩
  | some place =>
    obtain ⟨number, line, hnumber, hline, hfirst, hlast⟩ := indexed_of_firstPlace? hne hplace
    refine .inr ⟨number, line, ?_, hline, fun column hcolumn => ?_⟩
    · simp [apiError, hsymbol, hplace, hnumber]
    · obtain rfl : (place.column : Int) = column := by
        simpa [apiError, hsymbol, hplace] using hcolumn
      omega

theorem placed_indentErrors (h : error ∈ indentErrors lines) : Placed lines error := by
  obtain ⟨index, line, hline, rfl⟩ := mem_indentErrors h
  exact .inr ⟨index, line, rfl, hline, nofun⟩

theorem placed_of_mem_errors (h : error ∈ (ofScript source major).errors) :
    Placed (linesOf source) error := by
  rcases List.mem_append.mp h with hapi | hindent
  · obtain ⟨change, hreported, rfl⟩ := List.mem_map.mp hapi
    obtain ⟨rule, -, rfl⟩ := mem_reportedChanges.mp hreported
    exact placed_apiError rule (linesOf source)
  · exact placed_indentErrors hindent

/-- A review is consistent, whatever the script and the project's version. -/
theorem consistent_ofScript (source : List Char) (major : Option Int) :
    Consistent (linesOf source) (ofScript source major) := by
  have hweighty := weighty_ofScript source major
  refine
    { isValid_iff := List.isEmpty_iff
      total_eq_counts := ?_
      total_eq_lengths := rfl
      breakingChanges_iff := ?_
      fullyCompatible_iff := hweighty.fullyCompatible_iff
      needsAttention_iff := ?_
      error_line := fun error herror number hnumber => ?_
      error_column := fun error herror column hcolumn => ?_
      warning_line := fun warning hwarning => ?_ }
  · have hlength := hweighty.length_eq
    simp only [summary]
    omega
  · rw [breakingChanges_iff_count, countLevel_ne_zero_iff]
  · rw [← countLevel_ne_zero_iff, ← breakingChanges_iff_count, ← hweighty.fullyCompatible_iff]
    cases (ofScript source major).summary.compatibility <;> simp
  · rcases placed_of_mem_errors herror with ⟨hnone, -⟩ | ⟨index, line, hline, hindex, -⟩
    · rw [hnone] at hnumber
      cases hnumber
    · obtain rfl := Option.some.inj (hline.symm.trans hnumber)
      obtain ⟨hlt, -⟩ := List.getElem?_eq_some_iff.mp hindex
      omega
  · rcases placed_of_mem_errors herror with ⟨-, hnone⟩ | ⟨index, line, hline, hindex, hcolumns⟩
    · rw [hnone] at hcolumn
      cases hcolumn
    · exact ⟨index, line, hline, hindex, hcolumns column hcolumn⟩
  · obtain ⟨hfirst, hlast⟩ := mem_warnings hwarning
    omega

end EditorLink.Review
