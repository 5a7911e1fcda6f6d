import EditorLink.Text.Basic

/-!
# Lines of a text

A text that is cut behind a line end has the lines of its two parts, unless the cut goes through a
CR LF. So a piece without line ends that stands between line ends is a line of its own.
-/

namespace EditorLink.Text

/-- A piece that stands in a text as a line of its own: it has no line end, one stands before it or
nothing does, and one stands behind it or nothing does. -/
structure StandsAlone (front line back : List Char) : Prop where
  before : ∀ c ∈ front.getLast?, isLineEnd c
  within : ∀ c ∈ line, isLineEnd c = false
  ne_nil : line ≠ []
  behind : ∀ c ∈ back.head?, isLineEnd c

variable {front line piece back rest : List Char} {c : Char}

theorem linesFrom_cons (h : isLineEnd c = false) (line cs : List Char) :
    linesFrom line (c :: cs) = linesFrom (c :: line) cs := by
  have hcr : c ≠ '\r' := by
    rintro rfl
    cases h
  rw [linesFrom, h]
  · rfl
  · rintro cs rfl
    exact absurd rfl hcr

theorem linesFrom_append_of_within (hpiece : ∀ c ∈ piece, isLineEnd c = false)
    (line rest : List Char) :
    linesFrom line (piece ++ rest) = linesFrom (piece.reverse ++ line) rest := by
  induction piece generalizing line with
  | nil => rfl
  | cons c piece ih =>
    obtain ⟨hc, hpiece⟩ := List.forall_mem_cons.mp hpiece
    rw [List.cons_append, linesFrom_cons hc, ih hpiece, List.reverse_cons, List.append_assoc,
      List.singleton_append]

/-- A line that has begun ends with the line end that comes next, or with the text. -/
theorem linesFrom_of_ends (hback : ∀ c ∈ back.head?, isLineEnd c) (hline : line ≠ []) :
    linesFrom line back = line.reverse :: (lines back).tail := by
  unfold lines
  cases back with
  | nil => simp [linesFrom, hline]
  | cons c cs =>
    have hc : isLineEnd c = true := hback c rfl
    by_cases hpair : ∃ more, c :: cs = '\r' :: '\n' :: more
    · obtain ⟨more, hmore⟩ := hpair
      rw [hmore, linesFrom, linesFrom]
      rfl
    · rw [linesFrom, linesFrom, if_pos hc, if_pos hc]
      · rfl
      · rintro more rfl rfl
        exact hpair ⟨more, rfl⟩
      · rintro more rfl rfl
        exact hpair ⟨more, rfl⟩

theorem getLast?_tail {cs : List Char} (h : ∀ d ∈ (c :: cs).getLast?, isLineEnd d) :
    ∀ d ∈ cs.getLast?, isLineEnd d := by
  cases cs with
  | nil => simp
  | cons d cs => rwa [List.getLast?_cons_cons] at h

/-- Behind a line end the lines begin anew. A LF behind a CR would belong to the same line end. -/
theorem linesFrom_append (hfront : ∀ c ∈ front.getLast?, isLineEnd c)
    (hrest : rest.head? ≠ some '\n') (hline : front ≠ [] ∨ line = []) :
    linesFrom line (front ++ rest) = linesFrom line front ++ lines rest := by
  fun_induction linesFrom line front with
  | case1 line hempty =>
    obtain rfl : line = [] := by simpa using hempty
    rfl
  | case2 line hne =>
    obtain rfl : line = [] := hline.resolve_left (by simp)
    exact absurd rfl hne
  | case3 line cs ih =>
    rw [List.cons_append, List.cons_append, linesFrom,
      ih (getLast?_tail (getLast?_tail hfront)) (.inr rfl), List.cons_append]
  | case4 line c cs hpair hc ih =>
    -- The cut may come directly behind a CR, but then no LF follows it.
    have hcut : ∀ more, c = '\r' → cs ++ rest = '\n' :: more → False := by
      intro more hcr hmore
      cases cs with
      | nil =>
        rw [List.nil_append] at hmore
        simp [hmore] at hrest
      | cons d cs =>
        obtain ⟨rfl, -⟩ := List.cons_eq_cons.mp hmore
        exact hpair cs hcr rfl
    rw [List.cons_append, linesFrom, if_pos hc, ih (getLast?_tail hfront) (.inr rfl),
      List.cons_append]
    exact hcut
  | case5 line c cs hpair hc ih =>
    have hne : cs ≠ [] := by
      rintro rfl
      exact hc (hfront c rfl)
    rw [List.cons_append, linesFrom_cons (by simpa using hc),
      ih (getLast?_tail hfront) (.inl hne)]

/-- A piece that stands alone is a line of the text. The text behind it has an empty line before
its first line end, which is not a line of the whole. -/
theorem StandsAlone.lines_eq (h : StandsAlone front line back) :
    lines (front ++ (line ++ back)) = lines front ++ line :: (lines back).tail := by
  have hhead : (line ++ back).head? ≠ some '\n' := by
    obtain ⟨c, cs, rfl⟩ := List.exists_cons_of_ne_nil h.ne_nil
    rintro hc
    obtain rfl : c = '\n' := Option.some.inj hc
    cases h.within '\n' List.mem_cons_self
  have hline : lines (line ++ back) = line :: (lines back).tail := by
    rw [lines, linesFrom_append_of_within h.within, List.append_nil,
      linesFrom_of_ends h.behind (by simpa using h.ne_nil), List.reverse_reverse]
  rw [lines, linesFrom_append h.before hhead (.inr rfl), hline]
  rfl

example : lines "a\r\nb\n".toList = lines "a\r\n".toList ++ ["b".toList] := by decide

end EditorLink.Text
