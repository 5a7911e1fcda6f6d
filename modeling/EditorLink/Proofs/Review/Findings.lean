import EditorLink.Review.Report

/-!
# Which findings the line checks give

Each check of lines gives findings of its own kinds, and each finding names one of the lines that
the check went through. Checks that count the lines as they go are followed from any line number on.
-/

namespace EditorLink.Review

/-- A number that some lines have, when the first of them has the number `first`. -/
def Numbers (first : Nat) (lines : List Line) (number : Nat) : Prop :=
  first ≤ number ∧ number < first + lines.length

variable {lines : List Line} {line : Line} {first number index : Nat} {given : Warning}

theorem Numbers.of_tail (h : Numbers (first + 1) lines number) :
    Numbers first (line :: lines) number := by
  unfold Numbers at h ⊢
  rw [List.length_cons]
  omega

theorem Numbers.head (first : Nat) (line : Line) (lines : List Line) :
    Numbers first (line :: lines) first := by
  unfold Numbers
  rw [List.length_cons]
  omega

theorem Numbers.of_takeWhile {p : Line → Bool} (h : Numbers first (lines.takeWhile p) number) :
    Numbers first lines number := by
  have hle : (lines.takeWhile p).length ≤ lines.length := (List.takeWhile_sublist p).length_le
  unfold Numbers at h ⊢
  omega

theorem Numbers.of_getElem? (h : lines[index]? = some line) (first : Nat) :
    Numbers first lines (first + index) := by
  obtain ⟨hlt, -⟩ := List.getElem?_eq_some_iff.mp h
  unfold Numbers
  omega

/-- What a check of single lines finds belongs to a line that it looks for. -/
theorem exists_line_of_mem {α : Type} {looksFor : Line → Bool} {finding : Nat → α} {found : α}
    (h : found ∈ (lines.zipIdx first).filterMap fun (line, number) =>
      if looksFor line then some (finding number) else none) :
    ∃ index line, lines[index]? = some line ∧ looksFor line ∧ found = finding (first + index) := by
  obtain ⟨⟨line, number⟩, hmem, hfound⟩ := List.mem_filterMap.mp h
  obtain ⟨hlooks, hfound⟩ := Option.ite_none_right_eq_some.mp hfound
  obtain ⟨hle, hline⟩ := List.mem_zipIdx_iff_le_and_getElem?_sub.mp hmem
  refine ⟨number - first, line, hline, hlooks, ?_⟩
  rw [Nat.add_sub_cancel' hle]
  exact (Option.some.inj hfound).symm

theorem mem_indentErrors {error : Error} (h : error ∈ indentErrors lines) :
    ∃ index line, lines[index]? = some line ∧ error = mixedIndent (index + 1) := by
  obtain ⟨index, line, hline, -, rfl⟩ := exists_line_of_mem h
  exact ⟨index, line, hline, by rw [Nat.add_comm]⟩

theorem mem_nodeWarnings (h : given ∈ nodeWarnings lines) :
    ∃ number, Numbers 1 lines number ∧ given = uncheckedNode number := by
  obtain ⟨index, line, hline, -, rfl⟩ := exists_line_of_mem h
  exact ⟨1 + index, .of_getElem? hline 1, rfl⟩

theorem mem_bodyWarnings (h : given ∈ bodyWarnings first lines) :
    ∃ number, Numbers first lines number ∧ given = heavyCall number := by
  obtain ⟨index, line, hline, -, rfl⟩ := exists_line_of_mem h
  exact ⟨first + index, (Numbers.of_getElem? hline first).of_takeWhile, rfl⟩

theorem mem_performanceWarningsFrom (h : given ∈ performanceWarningsFrom first lines) :
    ∃ number, Numbers first lines number ∧
      (given = heavyCall number ∨ given = repeatedFetch number) := by
  induction lines generalizing first with
  | nil => cases h
  | cons line lines ih =>
    rw [performanceWarningsFrom, List.mem_append, List.mem_append] at h
    rcases h with (hbody | hfetch) | hlater
    · obtain ⟨-, hbody⟩ := List.mem_ite_nil_right.mp hbody
      obtain ⟨number, hnumber, hgiven⟩ := mem_bodyWarnings hbody
      exact ⟨number, hnumber.of_tail, .inl hgiven⟩
    · obtain ⟨-, hfetch⟩ := List.mem_ite_nil_right.mp hfetch
      exact ⟨first, .head first line lines, .inr (List.mem_singleton.mp hfetch)⟩
    · obtain ⟨number, hnumber, hgiven⟩ := ih hlater
      exact ⟨number, hnumber.of_tail, hgiven⟩

theorem mem_safetyWarningsFrom {above : List Line}
    (h : given ∈ safetyWarningsFrom first above lines) :
    ∃ number, Numbers first lines number ∧
      (given = freedInHandler number ∨ given = lastingConnection number) := by
  induction lines generalizing first above with
  | nil => cases h
  | cons line lines ih =>
    rw [safetyWarningsFrom, List.mem_append, List.mem_append] at h
    rcases h with (hfreed | hlasting) | hlater
    · obtain ⟨-, hfreed⟩ := List.mem_ite_nil_right.mp hfreed
      exact ⟨first, .head first line lines, .inl (List.mem_singleton.mp hfreed)⟩
    · obtain ⟨-, hlasting⟩ := List.mem_ite_nil_right.mp hlasting
      exact ⟨first, .head first line lines, .inr (List.mem_singleton.mp hlasting)⟩
    · obtain ⟨number, hnumber, hgiven⟩ := ih hlater
      exact ⟨number, hnumber.of_tail, hgiven⟩

/-- Every warning of a review is about a line of the script. -/
theorem mem_warnings {source : List Char} {major : Option Int}
    (h : given ∈ (ofScript source major).warnings) : Numbers 1 (linesOf source) given.line := by
  rcases List.mem_append.mp h with hnodes | hsafety
  · rcases List.mem_append.mp hnodes with hnode | hperformance
    · obtain ⟨number, hnumber, rfl⟩ := mem_nodeWarnings hnode
      exact hnumber
    · obtain ⟨number, hnumber, rfl | rfl⟩ := mem_performanceWarningsFrom hperformance
      · exact hnumber
      · exact hnumber
  · obtain ⟨number, hnumber, rfl | rfl⟩ := mem_safetyWarningsFrom hsafety
    · exact hnumber
    · exact hnumber

end EditorLink.Review
