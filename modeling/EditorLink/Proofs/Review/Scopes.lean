import EditorLink.Proofs.Review.Findings
import EditorLink.Proofs.Review.Places
import EditorLink.Proofs.Text.Cuts
import EditorLink.Proofs.Text.LastEntry

/-!
# The function that a line belongs to

Two checks depend on headers. A heavy call counts in the body of `_process`, which is looked for
from a header down to the next one; freeing a node counts in a signal handler, which is looked for
from a line up to the header above it. Here both are read off one scan of the lines from first to
last that remembers the header it met last. What the scan remembers at a line is the last header of
the lines before it, so each warning is tied to the lines of the script alone.
-/

namespace EditorLink.Review

open Migration

/-! ## What the checks look for -/

/-- The last header of some lines. -/
def LastHeader (lines : List Line) (header : Line) : Prop :=
  LastWith (fun line => "func ".toList <:+: line) lines header

/-- A line with a call of `find` or `get_children` on something, or of a function `create_…` without
arguments. -/
def HasHeavyCall (line : Line) : Prop :=
  CallOccurs "find" line ∨ CallOccurs "get_children" line ∨
    ∃ front word back, (∀ c ∈ word, Text.isWord c) ∧
      line = front ++ "create_".toList ++ word ++ "()".toList ++ back

/-- A header with `func _on_` and a word character at its start. -/
def StartsHandler (header : Line) : Prop :=
  ∃ c rest, header = "func _on_".toList ++ c :: rest ∧ Text.isWord c

/-- The numbers of the lines that get a kind of warning, in the order of the warnings. -/
def warnedLines (warning : Nat → Warning) (warnings : List Warning) : List Nat :=
  (warnings.filter fun given => given = warning given.line).map (·.line)

variable {lines : List Line} {line header : Line} {number : Nat} {warning : Nat → Warning}

theorem mentions_iff (line : Line) (s : String) : mentions line s ↔ s.toList <:+: line :=
  contains_iff

theorem isHeader_iff (line : Line) : isHeader line ↔ "func ".toList <:+: line :=
  mentions_iff line "func "

theorem isHeader_of_isProcessHeader (h : isProcessHeader line) : isHeader line := by
  have hlead : "func ".toList <:+: "func _process(".toList := ⟨[], "_process(".toList, by decide⟩
  exact (isHeader_iff line).mpr (hlead.trans ((mentions_iff line "func _process(").mp h))

theorem creatingCall_eq_some_iff {before rest after : List Char} {captured : Unit} :
    creatingCall before rest = some (captured, after) ↔
      ∃ word, (∀ c ∈ word, Text.isWord c) ∧
        rest = "create_".toList ++ word ++ "()".toList ++ after := by
  simp only [creatingCall, Option.bind_eq_bind, Option.bind_eq_some_iff, literal?_eq_some_iff,
    Option.pure_def, Option.some_inj, Prod.mk.injEq, true_and]
  constructor
  · rintro ⟨back, rfl, _, hback, rfl⟩
    refine ⟨back.takeWhile Text.isWord, fun c hc => mem_takeWhile hc, ?_⟩
    rw [List.append_assoc, List.append_assoc, ← hback, List.takeWhile_append_dropWhile]
  · rintro ⟨word, hword, rfl⟩
    refine ⟨word ++ ("()".toList ++ after), by simp, after, ?_, rfl⟩
    exact dropWhile_append_of_leaves hword (leaves_cons (by decide) _)

theorem creatingCall_occurs_iff (line : Line) : creatingCall.occurs line ↔
    ∃ front word back, (∀ c ∈ word, Text.isWord c) ∧
      line = front ++ "create_".toList ++ word ++ "()".toList ++ back := by
  rw [Pattern.occurs_iff fun before => by rfl]
  constructor
  · rintro ⟨front, captured, piece, after, rfl, hmatch⟩
    obtain ⟨word, hword, rfl⟩ := creatingCall_eq_some_iff.mp hmatch
    exact ⟨front, word, after, hword, by simp⟩
  · rintro ⟨front, word, back, hword, rfl⟩
    refine ⟨front, (), _, back, ?_, creatingCall_eq_some_iff.mpr ⟨word, hword, rfl⟩⟩
    simp

theorem isHeavy_iff (line : Line) : isHeavy line ↔ HasHeavyCall line := by
  unfold isHeavy HasHeavyCall
  rw [Bool.or_eq_true, Bool.or_eq_true, methodCall_occurs_iff, methodCall_occurs_iff,
    creatingCall_occurs_iff, or_assoc]

theorem isHandlerHeader_iff (header : Line) : isHandlerHeader header ↔ StartsHandler header := by
  unfold isHandlerHeader StartsHandler
  constructor
  · intro h
    split at h
    · next c rest heq => exact ⟨c, rest, Text.after?_eq_some_iff.mp heq, h⟩
    · cases h
  · rintro ⟨c, rest, heq, hword⟩
    rw [Text.after?_eq_some_iff.mpr heq]
    exact hword

theorem find?_isHeader_iff :
    lines.reverse.find? isHeader = some header ↔ LastHeader lines header := by
  rw [find?_reverse_iff]
  exact LastWith.congr isHeader_iff

/-! ## The scan -/

/-- A line as the scan meets it, with its number and the last header above it. -/
structure Visit where
  number : Nat
  line : Line
  above : Option Line

namespace Visit

/-- The header that the line belongs to; a header belongs to itself. -/
def scope (visit : Visit) : Option Line :=
  if isHeader visit.line then some visit.line else visit.above

/-- A heavy call in the body of `_process`. -/
def isCostly (visit : Visit) : Bool :=
  isHeavy visit.line && !isHeader visit.line && visit.above.any isProcessHeader

/-- A node that is freed in a signal handler. -/
def freesInHandler (visit : Visit) : Bool :=
  mentions visit.line "queue_free()" && visit.scope.any isHandlerHeader

theorem scope_eq (visit : Visit) :
    visit.scope = ([visit.line].find? isHeader).or visit.above := by
  unfold scope
  by_cases h : isHeader visit.line
  · simp [h]
  · simp [h]

end Visit

/-- Goes through lines, the first of which has the given number, and remembers the last header. -/
def scanFrom (above : Option Line) (number : Nat) : List Line → List Visit
  | [] => []
  | line :: lines =>
    let visit : Visit := ⟨number, line, above⟩
    visit :: scanFrom visit.scope (number + 1) lines

def scan (lines : List Line) : List Visit := scanFrom none 1 lines

variable {above : Option Line} {visit : Visit}

theorem mem_scanFrom : visit ∈ scanFrom above number lines ↔
    ∃ front back, lines = front ++ visit.line :: back ∧ visit.number = number + front.length ∧
      visit.above = (front.reverse.find? isHeader).or above := by
  induction lines generalizing above number with
  | nil => simp [scanFrom]
  | cons line lines ih =>
    rw [scanFrom, List.mem_cons, ih]
    constructor
    · rintro (rfl | ⟨front, back, rfl, hnumber, habove⟩)
      · exact ⟨[], lines, rfl, rfl, rfl⟩
      · refine ⟨line :: front, back, rfl, ?_, ?_⟩
        · rw [hnumber, List.length_cons]
          omega
        · rw [habove, List.reverse_cons, List.find?_append, Visit.scope_eq, Option.or_assoc]
    · rintro ⟨front, back, hlines, hnumber, habove⟩
      cases front with
      | nil =>
        obtain ⟨rfl, rfl⟩ := List.cons_eq_cons.mp hlines
        left
        cases visit
        simp_all
      | cons first front =>
        obtain ⟨rfl, rfl⟩ := List.cons_eq_cons.mp hlines
        refine .inr ⟨front, back, rfl, ?_, ?_⟩
        · rw [hnumber, List.length_cons]
          omega
        · rw [habove, List.reverse_cons, List.find?_append, Visit.scope_eq, Option.or_assoc]

/-- The scan meets every line with its number, and remembers the last header above it. -/
theorem mem_scan : visit ∈ scan lines ↔
    ∃ front back, lines = front ++ visit.line :: back ∧ visit.number = front.length + 1 ∧
      visit.above = front.reverse.find? isHeader := by
  simp only [scan, mem_scanFrom, Option.or_none, Nat.add_comm]

theorem number_scanFrom (above : Option Line) (number : Nat) (lines : List Line) :
    (scanFrom above number lines).map Visit.number = List.range' number lines.length := by
  induction lines generalizing above number with
  | nil => rfl
  | cons line lines ih => rw [scanFrom, List.map_cons, ih, List.length_cons, List.range'_succ]

theorem pairwise_scan (p : Visit → Bool) (lines : List Line) :
    (((scan lines).filter p).map Visit.number).Pairwise (· < ·) := by
  have hsublist : (((scan lines).filter p).map Visit.number).Sublist
      (List.range' 1 lines.length) := by
    rw [← number_scanFrom none 1 lines]
    exact List.filter_sublist.map _
  exact List.Pairwise.sublist hsublist List.pairwise_lt_range'

/-! ## Warnings of one kind -/

theorem warnedLines_nil (warning : Nat → Warning) : warnedLines warning [] = [] := rfl

theorem warnedLines_heavyCall_singleton (number : Nat) :
    warnedLines heavyCall [heavyCall number] = [number] := by
  simp [warnedLines, heavyCall]

theorem warnedLines_append (warning : Nat → Warning) (front back : List Warning) :
    warnedLines warning (front ++ back) = warnedLines warning front ++ warnedLines warning back := by
  simp [warnedLines]

theorem warnedLines_eq_nil {warnings : List Warning}
    (h : ∀ given ∈ warnings, given ≠ warning given.line) : warnedLines warning warnings = [] := by
  simpa [warnedLines, List.filter_eq_nil_iff] using h

theorem warnedLines_ite {given : Warning} {c : Prop} [Decidable c]
    (h : given ≠ warning given.line) : warnedLines warning (if c then [given] else []) = [] := by
  apply warnedLines_eq_nil
  intro other hother
  obtain ⟨-, hother⟩ := List.mem_ite_nil_right.mp hother
  rwa [List.mem_singleton.mp hother]

theorem bodyWarnings_of_header (h : isHeader line) (number : Nat) (lines : List Line) :
    bodyWarnings number (line :: lines) = [] := by
  simp [bodyWarnings, h]

theorem bodyWarnings_cons (h : isHeader line = false) (number : Nat) (lines : List Line) :
    bodyWarnings number (line :: lines) =
      (if isHeavy line then [heavyCall number] else []) ++ bodyWarnings (number + 1) lines := by
  by_cases hheavy : isHeavy line
  · simp [bodyWarnings, h, hheavy]
  · simp [bodyWarnings, h, hheavy]

/-- Where a scan stands in the middle of a body, the rest of that body has been warned about from
its header; the other warnings come from the headers that are still to come. -/
theorem warnedLines_performanceWarningsFrom (above : Option Line) (number : Nat)
    (lines : List Line) :
    warnedLines heavyCall (if above.any isProcessHeader then bodyWarnings number lines else []) ++
        warnedLines heavyCall (performanceWarningsFrom number lines) =
      ((scanFrom above number lines).filter Visit.isCostly).map Visit.number := by
  induction lines generalizing above number with
  | nil => simp [bodyWarnings, performanceWarningsFrom, scanFrom, warnedLines]
  | cons line lines ih =>
    have hfetch : warnedLines heavyCall
        (if fetchesInLoop line then [repeatedFetch number] else []) = [] :=
      warnedLines_ite (by simp [heavyCall, repeatedFetch])
    rw [performanceWarningsFrom, warnedLines_append, warnedLines_append, hfetch, List.append_nil,
      scanFrom, List.filter_cons]
    by_cases hheader : isHeader line
    · have hscope : (⟨number, line, above⟩ : Visit).scope = some line := by
        simp [Visit.scope, hheader]
      have hcostly : (⟨number, line, above⟩ : Visit).isCostly = false := by
        simp [Visit.isCostly, hheader]
      have hrest := ih (some line) (number + 1)
      rw [Option.any_some] at hrest
      -- the body before the header ends, and the one behind it begins
      rw [hscope, hcostly, bodyWarnings_of_header hheader, ite_self, hrest]
      rfl
    · have hprocess : isProcessHeader line = false := by
        simpa using fun h => hheader (isHeader_of_isProcessHeader h)
      have hscope : (⟨number, line, above⟩ : Visit).scope = above := by
        simp [Visit.scope, hheader]
      have hcostly : (⟨number, line, above⟩ : Visit).isCostly =
          (isHeavy line && above.any isProcessHeader) := by
        simp [Visit.isCostly, hheader]
      have hrest := ih above (number + 1)
      rw [hscope, hcostly, hprocess, bodyWarnings_cons (by simpa using hheader)]
      by_cases hbody : above.any isProcessHeader
      · rw [if_pos hbody] at hrest ⊢
        rw [warnedLines_append, List.append_assoc]
        by_cases hheavy : isHeavy line
        · simp [hbody, hheavy, warnedLines_heavyCall_singleton, ← hrest, warnedLines_nil]
        · simp [hheavy, ← hrest, warnedLines_nil]
      · rw [if_neg hbody] at hrest ⊢
        simp [hbody, ← hrest, warnedLines_nil]

theorem inHandler_eq (line : Line) (number : Nat) (above : List Line) :
    inHandler (line :: above) =
      (⟨number, line, above.find? isHeader⟩ : Visit).scope.any isHandlerHeader := by
  unfold inHandler Visit.scope
  by_cases hheader : isHeader line
  · simp [hheader]
  · cases hfind : above.find? isHeader <;> simp [hheader, hfind]

theorem warnedLines_safetyWarningsFrom (above : List Line) (number : Nat) (lines : List Line) :
    warnedLines freedInHandler (safetyWarningsFrom number above lines) =
      ((scanFrom (above.find? isHeader) number lines).filter Visit.freesInHandler).map
        Visit.number := by
  induction lines generalizing above number with
  | nil => rfl
  | cons line lines ih =>
    have hlasting : warnedLines freedInHandler
        (if mentions line "connect(" && !mentions line "CONNECT_ONE_SHOT" then
          [lastingConnection number] else []) = [] :=
      warnedLines_ite (by simp [freedInHandler, lastingConnection])
    have hscope : (⟨number, line, above.find? isHeader⟩ : Visit).scope =
        (line :: above).find? isHeader := by
      unfold Visit.scope
      by_cases hheader : isHeader line
      · simp [hheader]
      · simp [hheader]
    rw [safetyWarningsFrom, warnedLines_append, warnedLines_append, hlasting, List.append_nil, ih,
      scanFrom, List.filter_cons, hscope, inHandler_eq line number]
    by_cases hfrees : (⟨number, line, above.find? isHeader⟩ : Visit).freesInHandler
    · have hfreed : (mentions line "queue_free()" &&
          (⟨number, line, above.find? isHeader⟩ : Visit).scope.any isHandlerHeader) = true := hfrees
      rw [if_pos hfrees, if_pos hfreed]
      simp [warnedLines, freedInHandler]
    · have hfreed : ¬ (mentions line "queue_free()" &&
          (⟨number, line, above.find? isHeader⟩ : Visit).scope.any isHandlerHeader) = true := hfrees
      rw [if_neg hfrees, if_neg hfreed]
      rfl

/-- The lines with a heavy call in the body of `_process`. -/
theorem warnedLines_heavyCall (source : List Char) (major : Option Int) :
    warnedLines heavyCall (ofScript source major).warnings =
      ((scan (linesOf source)).filter Visit.isCostly).map Visit.number := by
  have hnodes : warnedLines heavyCall (nodeWarnings (linesOf source)) = [] := by
    refine warnedLines_eq_nil fun given hgiven => ?_
    obtain ⟨number, -, rfl⟩ := mem_nodeWarnings hgiven
    simp [uncheckedNode, heavyCall]
  have hsafety : warnedLines heavyCall (safetyWarnings (linesOf source)) = [] := by
    refine warnedLines_eq_nil fun given hgiven => ?_
    obtain ⟨number, -, rfl | rfl⟩ := mem_safetyWarningsFrom hgiven
    · simp [freedInHandler, heavyCall]
    · simp [lastingConnection, heavyCall]
  have hperformance := warnedLines_performanceWarningsFrom none 1 (linesOf source)
  calc warnedLines heavyCall (ofScript source major).warnings
      = warnedLines heavyCall (performanceWarnings (linesOf source)) := by
        simp only [ofScript, warnedLines_append, hnodes, hsafety, List.nil_append, List.append_nil]
    _ = ((scan (linesOf source)).filter Visit.isCostly).map Visit.number :=
        hperformance

theorem warnedLines_freedInHandler (source : List Char) (major : Option Int) :
    warnedLines freedInHandler (ofScript source major).warnings =
      ((scan (linesOf source)).filter Visit.freesInHandler).map Visit.number := by
  have hnodes : warnedLines freedInHandler (nodeWarnings (linesOf source)) = [] := by
    refine warnedLines_eq_nil fun given hgiven => ?_
    obtain ⟨number, -, rfl⟩ := mem_nodeWarnings hgiven
    simp [uncheckedNode, freedInHandler]
  have hperformance : warnedLines freedInHandler (performanceWarnings (linesOf source)) = [] := by
    refine warnedLines_eq_nil fun given hgiven => ?_
    obtain ⟨number, -, rfl | rfl⟩ := mem_performanceWarningsFrom hgiven
    · simp [heavyCall, freedInHandler]
    · simp [repeatedFetch, freedInHandler]
  have hsafety := warnedLines_safetyWarningsFrom [] 1 (linesOf source)
  simp only [ofScript, warnedLines_append, hnodes, hperformance, List.nil_append]
  exact hsafety

/-! ## Scopes -/

theorem isCostly_iff (visit : Visit) : visit.isCostly ↔ HasHeavyCall visit.line ∧
    ¬ "func ".toList <:+: visit.line ∧
      ∃ header, visit.above = some header ∧ "func _process(".toList <:+: header := by
  unfold Visit.isCostly
  rw [Bool.and_eq_true, Bool.and_eq_true, isHeavy_iff, Bool.not_eq_true', ← Bool.not_eq_true,
    isHeader_iff, Option.any_eq_true, and_assoc]
  simp only [isProcessHeader, mentions_iff]

theorem freesInHandler_iff (visit : Visit) : visit.freesInHandler ↔
    "queue_free()".toList <:+: visit.line ∧
      ∃ header, visit.scope = some header ∧ StartsHandler header := by
  unfold Visit.freesInHandler
  rw [Bool.and_eq_true, mentions_iff, Option.any_eq_true]
  simp only [isHandlerHeader_iff]

/-- A line belongs to the last header of the lines up to it. -/
theorem scope_eq_some_iff {front : List Line} :
    (⟨number, line, front.reverse.find? isHeader⟩ : Visit).scope = some header ↔
      LastHeader (front ++ [line]) header := by
  rw [Visit.scope_eq, ← find?_isHeader_iff, List.reverse_append, List.find?_append]
  rfl

theorem mem_map_filter_scan {p : Visit → Bool} :
    number ∈ ((scan lines).filter p).map Visit.number ↔
      ∃ front line back, lines = front ++ line :: back ∧ number = front.length + 1 ∧
        p ⟨number, line, front.reverse.find? isHeader⟩ := by
  rw [List.mem_map]
  constructor
  · rintro ⟨visit, hvisit, rfl⟩
    obtain ⟨hscan, hp⟩ := List.mem_filter.mp hvisit
    obtain ⟨front, back, hlines, hnumber, habove⟩ := mem_scan.mp hscan
    refine ⟨front, visit.line, back, hlines, hnumber, ?_⟩
    rw [← habove]
    exact hp
  · rintro ⟨front, line, back, hlines, hnumber, hp⟩
    refine ⟨_, List.mem_filter.mpr ⟨mem_scan.mpr ⟨front, back, hlines, hnumber, rfl⟩, hp⟩, rfl⟩

/-- The warnings about scopes are those of one scan from the first line to the last. A heavy call is
warned about just when its line is no header and the last header above it is that of `_process`; a
freed node, when the last header up to its line is that of a signal handler. The numbers grow, so
each such line is warned about once. -/
theorem scoped_warnings_of_scan (source : List Char) (major : Option Int) :
    warnedLines heavyCall (ofScript source major).warnings =
        ((scan (linesOf source)).filter Visit.isCostly).map Visit.number ∧
      warnedLines freedInHandler (ofScript source major).warnings =
        ((scan (linesOf source)).filter Visit.freesInHandler).map Visit.number ∧
      (warnedLines heavyCall (ofScript source major).warnings).Pairwise (· < ·) ∧
      (warnedLines freedInHandler (ofScript source major).warnings).Pairwise (· < ·) ∧
      (∀ number, number ∈ warnedLines heavyCall (ofScript source major).warnings ↔
        ∃ front line back header, linesOf source = front ++ line :: back ∧
          number = front.length + 1 ∧ HasHeavyCall line ∧ ¬ "func ".toList <:+: line ∧
          LastHeader front header ∧ "func _process(".toList <:+: header) ∧
      (∀ number, number ∈ warnedLines freedInHandler (ofScript source major).warnings ↔
        ∃ front line back header, linesOf source = front ++ line :: back ∧
          number = front.length + 1 ∧ "queue_free()".toList <:+: line ∧
          LastHeader (front ++ [line]) header ∧ StartsHandler header) := by
  rw [warnedLines_heavyCall, warnedLines_freedInHandler]
  refine ⟨rfl, rfl, pairwise_scan _ _, pairwise_scan _ _, fun number => ?_, fun number => ?_⟩
  · rw [mem_map_filter_scan]
    simp only [isCostly_iff, find?_isHeader_iff]
    constructor
    · rintro ⟨front, line, back, hlines, hnumber, hheavy, hbody, header, hheader, hprocess⟩
      exact ⟨front, line, back, header, hlines, hnumber, hheavy, hbody, hheader, hprocess⟩
    · rintro ⟨front, line, back, header, hlines, hnumber, hheavy, hbody, hheader, hprocess⟩
      exact ⟨front, line, back, hlines, hnumber, hheavy, hbody, header, hheader, hprocess⟩
  · rw [mem_map_filter_scan]
    simp only [freesInHandler_iff, scope_eq_some_iff]
    constructor
    · rintro ⟨front, line, back, hlines, hnumber, hfree, header, hheader, hhandler⟩
      exact ⟨front, line, back, header, hlines, hnumber, hfree, hheader, hhandler⟩
    · rintro ⟨front, line, back, header, hlines, hnumber, hfree, hheader, hhandler⟩
      exact ⟨front, line, back, hlines, hnumber, hfree, header, hheader, hhandler⟩

/-- Two headers of `_process` one after the other, and one more at the end. -/
example : warnedLines heavyCall (ofScript ("func _process(d):\nfunc _process(d):\n\ta.find(1)\n" ++
    "\tcreate_b()\nfunc c():\n\ta.find(1)\nfunc _process(d):").toList none).warnings = [3, 4] := by
  decide +kernel

end EditorLink.Review
