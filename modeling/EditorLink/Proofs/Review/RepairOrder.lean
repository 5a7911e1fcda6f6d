import Mathlib.Data.List.Nodup
import EditorLink.Review.Repair

/-!
# The order in which errors are listed

Repairs do not commute: a fix works on what the fixes before it have left. A repair is still
independent of the order in which its errors are listed, as long as no two repairable errors share a
line, because sorting brings every listing to one and the same sequence. Errors that are not
repairable, and those whose code names no change, stand for nothing wherever they are listed. For
that the sort has to be stable: leaving entries out before it is the same as leaving them out after.
-/

namespace EditorLink.Review

/-! ## Stable sorting -/

section

variable {α : Type} {le : α → α → Bool}

/-- A list splits in one way only into entries that fail a test and entries that pass it. -/
theorem append_inj_of_test (test : α → Bool) {front back front' back' : List α}
    (hfront : ∀ entry ∈ front, test entry = false) (hback : ∀ entry ∈ back, test entry = true)
    (hfront' : ∀ entry ∈ front', test entry = false)
    (hback' : ∀ entry ∈ back', test entry = true) (h : front ++ back = front' ++ back') :
    front = front' ∧ back = back' := by
  have hkept : ∀ front back : List α, (∀ entry ∈ front, test entry = false) →
      (∀ entry ∈ back, test entry = true) → (front ++ back).filter test = back := by
    intro front back hfront hback
    rw [List.filter_append, List.filter_eq_nil_iff.mpr (by simpa using hfront),
      List.filter_eq_self.mpr hback, List.nil_append]
  have hsame : back = back' := by
    rw [← hkept front back hfront hback, h, hkept front' back' hfront' hback']
  subst hsame
  exact ⟨List.append_cancel_right h, rfl⟩

/-- An entry is sorted in before those that it precedes, and behind all others. -/
theorem mergeSort_cons_spec (trans : ∀ a b c, le a b → le b c → le a c)
    (total : ∀ a b, le a b || le b a) (entry : α) (entries : List α) :
    ∃ front back, (entry :: entries).mergeSort le = front ++ entry :: back ∧
      entries.mergeSort le = front ++ back ∧ (∀ other ∈ front, le entry other = false) ∧
      ∀ other ∈ back, le entry other = true := by
  obtain ⟨front, back, hsorted, hothers, hfront⟩ := List.mergeSort_cons trans total entry entries
  have hpairwise := List.pairwise_mergeSort trans total (entry :: entries)
  rw [hsorted] at hpairwise
  refine ⟨front, back, hsorted, hothers, fun other hother => by simpa using hfront other hother, ?_⟩
  exact (List.pairwise_cons.mp (List.pairwise_append.mp hpairwise).2.1).1

/-- Entries may be left out before sorting or after it. -/
theorem filter_mergeSort (trans : ∀ a b c, le a b → le b c → le a c)
    (total : ∀ a b, le a b || le b a) (p : α → Bool) (entries : List α) :
    (entries.mergeSort le).filter p = (entries.filter p).mergeSort le := by
  induction entries with
  | nil => simp
  | cons entry entries ih =>
    obtain ⟨front, back, hsorted, hothers, hfront, hback⟩ :=
      mergeSort_cons_spec trans total entry entries
    rw [hothers, List.filter_append] at ih
    rw [hsorted, List.filter_append]
    by_cases hp : p entry
    · obtain ⟨front', back', hsorted', hothers', hfront', hback'⟩ :=
        mergeSort_cons_spec trans total entry (entries.filter p)
      rw [hothers'] at ih
      -- Both sides split the other entries by whether `entry` comes before them.
      obtain ⟨hsame, hsame'⟩ := append_inj_of_test (le entry)
        (fun other hother => hfront other (List.mem_of_mem_filter hother))
        (fun other hother => hback other (List.mem_of_mem_filter hother)) hfront' hback' ih
      rw [List.filter_cons_of_pos hp, List.filter_cons_of_pos hp, hsorted', hsame, hsame']
    · rw [List.filter_cons_of_neg hp, List.filter_cons_of_neg hp, ih]

theorem descending_trans (key : α → Int) (a b c : α) (hab : decide (key b ≤ key a))
    (hbc : decide (key c ≤ key b)) : decide (key c ≤ key a) := by
  simp only [decide_eq_true_eq] at hab hbc ⊢
  exact Int.le_trans hbc hab

theorem descending_total (key : α → Int) (a b : α) :
    decide (key b ≤ key a) || decide (key a ≤ key b) := by
  simpa using Int.le_total (key b) (key a)

theorem pairwise_descending (key : α → Int) (entries : List α) :
    (entries.mergeSort fun a b => key b ≤ key a).Pairwise fun a b => key b ≤ key a :=
  (List.pairwise_mergeSort (descending_trans key) (descending_total key) entries).imp
    of_decide_eq_true

end

/-! ## Repairs -/

/-- An error that a repair acts on. -/
def Error.isActedOn (error : Error) : Bool := error.isRepairable && error.change?.isSome

variable {errors others : List Error}

theorem pairwise_repairOrder (errors : List Error) :
    (repairOrder errors).Pairwise fun a b => b.lineKey ≤ a.lineKey :=
  pairwise_descending Error.lineKey _

theorem perm_repairOrder (errors : List Error) :
    (repairOrder errors).Perm (errors.filter Error.isRepairable) :=
  List.mergeSort_perm _ _

/-- Two listings of the same errors are repaired in the same order, when the lines tell the
repairable ones apart. -/
theorem repairOrder_eq_of_perm (hperm : errors.Perm others)
    (hlines : (errors.filter Error.isRepairable).Pairwise fun a b => a.lineKey ≠ b.lineKey) :
    repairOrder errors = repairOrder others := by
  have hnodup : ((errors.filter Error.isRepairable).map Error.lineKey).Nodup :=
    List.pairwise_map.mpr hlines
  have hsame : (repairOrder errors).Perm (repairOrder others) :=
    ((perm_repairOrder errors).trans (hperm.filter _)).trans (perm_repairOrder others).symm
  refine hsame.eq_of_pairwise ?_ (pairwise_repairOrder errors) (pairwise_repairOrder others)
  -- Entries that may stand either way have one key, and a key has one entry.
  intro a b ha hb hba hab
  apply List.inj_on_of_nodup_map hnodup
  · exact (perm_repairOrder errors).mem_iff.mp ha
  · exact (perm_repairOrder errors).mem_iff.mp (hsame.mem_iff.mpr hb)
  · omega

theorem repairOne_of_change?_eq_none {error : Error} (h : error.change? = none)
    (script : List Char) : repairOne script error = script := by
  rw [repairOne, h]

/-- A repair goes through the errors that it acts on and no others. -/
theorem repair_eq_foldl_isActedOn (script : List Char) (errors : List Error) :
    repair script errors = ((errors.filter Error.isActedOn).mergeSort
      fun a b => b.lineKey ≤ a.lineKey).foldl repairOne script := by
  have hactedOn : errors.filter Error.isActedOn =
      (errors.filter Error.isRepairable).filter (·.change?.isSome) := by
    rw [List.filter_filter]
    congr 1
    funext error
    exact Bool.and_comm _ _
  have hstep : repairOne = fun script error =>
      if error.change?.isSome then repairOne script error else script := by
    funext script error
    split
    · rfl
    · next hnone => exact repairOne_of_change?_eq_none (by simpa using hnone) script
  rw [hactedOn, ← filter_mergeSort (descending_trans Error.lineKey)
    (descending_total Error.lineKey), List.foldl_filter, ← hstep]
  rfl

/-- A repair does not depend on the order in which the errors are listed when no two repairable ones
share a line, and errors that it does not act on may be listed or left out anywhere. -/
theorem repair_of_listing (script : List Char) :
    (∀ errors others : List Error, errors.Perm others →
      ((errors.filter Error.isRepairable).Pairwise fun a b => a.lineKey ≠ b.lineKey) →
      repair script errors = repair script others) ∧
    ∀ errors others : List Error,
      errors.filter Error.isActedOn = others.filter Error.isActedOn →
      repair script errors = repair script others := by
  constructor
  · intro errors others hperm hlines
    rw [repair, repair, repairOrder_eq_of_perm hperm hlines]
  · intro errors others hsame
    rw [repair_eq_foldl_isActedOn, repair_eq_foldl_isActedOn, hsame]

/-- A fixable error about a symbol, found on a line. -/
def symbolError (symbol : String) (line : Int) : Error :=
  { kind := .apiCompatibility, level := .error, message := "", line, code := symbol,
    fixable := true }

/-- Two errors in either listing, and an unknown symbol between them. -/
theorem repair_of_listing_swapped :
    let script := "extends ColorRect\ng.get_color_at_offset(0.5)".toList
    let rect := symbolError "ColorRect" 1
    let offset := symbolError "get_color_at_offset" 2
    repair script [rect, offset] = repair script [offset, rect] ∧
      repair script [rect, symbolError "unknown" 2, offset] = repair script [rect, offset] :=
  ⟨(repair_of_listing _).1 _ _ (.swap _ _ _) (by decide),
    (repair_of_listing _).2 _ _ (by decide +kernel)⟩

end EditorLink.Review
