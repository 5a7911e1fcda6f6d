import EditorLink.Proofs.Migration.Assignments
import EditorLink.Proofs.Migration.Fixes

/-!
# Comparisons that a fix moves

The pattern of a material's property ends at an equals sign, so a comparison is looked for like an
assignment, and it has a value: what begins with its second equals sign. A comparison is moved, and
so turned into an assignment that is none, unless it stands inside the value of an assignment before
it. The place of the comparison tells which: a piece that is replaced there agrees with it up to the
first equals sign, or reaches it with its value.
-/

namespace EditorLink.Migration

variable {property : MaterialProperty}
  {source front back owner target target' value init text replacement : List Char}

/-- The comparison that begins at the end of `front` is moved: the piece that is replaced is the
comparison with the owner before it, and the new value begins with the second equals sign. -/
def MovesComparison (property : MaterialProperty)
    (before piece replacement front target : List Char) : Prop :=
  ∃ owner operand node, front = before ++ owner ∧ IsOwner before owner ∧
    piece = owner ++ target ++ '=' :: operand ∧
    replacement = movedAssignment property node ('=' :: Text.trimRight operand)

/-- The text `front` ends inside the value of the assignment that is replaced. -/
def EndsInValue (property : MaterialProperty) (before piece front : List Char) : Prop :=
  ∃ owner target value inner, IsAssignment property before owner target value ∧
    piece = owner ++ target ++ value ∧ front = before ++ owner ++ target ++ inner ∧
    inner.length < value.length

/-! ## One target in two places -/

/-- Two texts agree up to the last place of a character, and behind it. -/
theorem append_cons_inj_of_last {c : Char} {left left' right right' : List Char}
    (h : left ++ c :: right = left' ++ c :: right') (hright : c ∉ right) (hright' : c ∉ right') :
    left = left' ∧ right = right' := by
  rcases List.append_eq_append_iff.mp h with ⟨gap, rfl, hgap⟩ | ⟨gap, rfl, hgap⟩
  · cases gap with
    | nil => exact ⟨by simp, by simpa using hgap⟩
    | cons d gap =>
      obtain ⟨-, rfl⟩ := List.cons_eq_cons.mp hgap
      simp at hright
  · cases gap with
    | nil => exact ⟨by simp, by simpa using hgap.symm⟩
    | cons d gap =>
      obtain ⟨-, rfl⟩ := List.cons_eq_cons.mp hgap
      simp at hright'

/-- The last point of a target, and the last letter before it, tell where the target begins. -/
theorem IsTarget.append_inj (htarget : IsTarget property target)
    (htarget' : IsTarget property target') (howner : IsOwner front owner)
    (hstart : WordStart (front ++ init)) (heq : owner ++ target' = init ++ target) :
    owner = init ∧ target' = target := by
  obtain ⟨lead, ws₁, ws₂, ws₃, hlead, hws₁, hws₂, hws₃, rfl⟩ := htarget
  obtain ⟨lead', ws₁', ws₂', ws₃', hlead', hws₁', hws₂', hws₃', rfl⟩ := htarget'
  have hname : '.' ∉ property.name.toList := by cases property <;> decide
  have hpoint : ∀ ws, Blanks ws → '.' ∉ ws := fun ws hws hmem => absurd (hws _ hmem) (by decide)
  have hletter : ∀ ws, Blanks ws → 'l' ∉ ws := fun ws hws hmem => absurd (hws _ hmem) (by decide)
  have hsplit : (owner ++ lead' ++ "material".toList ++ ws₁') ++
        '.' :: (ws₂' ++ property.name.toList ++ ws₃' ++ "=".toList) =
      (init ++ lead ++ "material".toList ++ ws₁) ++
        '.' :: (ws₂ ++ property.name.toList ++ ws₃ ++ "=".toList) := by
    simpa using heq
  obtain ⟨hleft, hright⟩ := append_cons_inj_of_last hsplit
    (by simp [hname, hpoint ws₂' hws₂', hpoint ws₃' hws₃'])
    (by simp [hname, hpoint ws₂ hws₂, hpoint ws₃ hws₃])
  have hword : (owner ++ lead' ++ "materia".toList) ++ 'l' :: ws₁' =
      (init ++ lead ++ "materia".toList) ++ 'l' :: ws₁ := by
    simpa using hleft
  obtain ⟨hleads, rfl⟩ := append_cons_inj_of_last hword (hletter ws₁' hws₁') (hletter ws₁ hws₁)
  have hleads : owner ++ lead' = init ++ lead := List.append_cancel_right hleads
  obtain rfl : lead' = lead := by
    rcases hlead with rfl | rfl <;> rcases hlead' with rfl | rfl
    · rfl
    · -- The word would not start where the bare target begins.
      have hinit : init = owner ++ "process_".toList := by simpa using hleads.symm
      exact absurd (hstart '_' (by simp [hinit])) (by decide)
    · -- No owner ends with a letter.
      have howner' : owner = init ++ "process_".toList := by simpa using hleads
      rcases howner with ⟨rfl, -⟩ | ⟨name, -, -, rfl⟩
      · simp at howner'
      · have hlast := congrArg List.getLast? howner'
        simp at hlast
    · rfl
  obtain rfl := List.append_cancel_right hleads
  exact ⟨rfl, by simpa using heq⟩

/-! ## Comparisons -/

theorem isValue_equals : IsValue ['='] :=
  ⟨[], ['='], List.forall_mem_nil _, by decide, by decide, rfl⟩

theorem trim_equals (operand : List Char) :
    Text.trim ('=' :: operand) = '=' :: Text.trimRight operand := by
  have hblank : Text.isBlank '=' = false := by decide
  rw [Text.trim, Text.trimBoth, List.dropWhile_cons_of_neg (by simp [hblank]), Text.trimRight,
    Text.dropRightWhile, Text.dropRightWhile, List.reverse_cons, List.dropWhile_append]
  split
  · next hnil => simp [List.isEmpty_iff.mp hnil, hblank]
  · simp

theorem beginsAssignment_comparison (hstart : WordStart front)
    (htarget : IsTarget property target) :
    BeginsAssignment property front (target ++ '=' :: back) :=
  ⟨[], target, ['='], back, ⟨.inl ⟨rfl, hstart⟩, htarget, isValue_equals⟩, by simp⟩

/-- The target of an assignment reaches no further than the first equals sign, where a target that
begins inside it ends as well. -/
theorem eq_target_of_append {gap rest : List Char}
    (hassignment : IsAssignment property front owner target' value)
    (htarget : IsTarget property target) (hgap : owner ++ target' = init ++ gap) (hne : gap ≠ [])
    (heq : gap ++ (value ++ rest) = target ++ '=' :: back) :
    gap = target ∧ value ++ rest = '=' :: back := by
  obtain ⟨before, hbefore, hnot⟩ := hassignment.exists_equals
  obtain ⟨letters, rfl, hletters⟩ := htarget.exists_equals
  obtain ⟨gap, c, rfl⟩ := (List.eq_nil_or_concat gap).resolve_left hne
  rw [List.concat_eq_append] at hgap heq ⊢
  rw [hbefore, ← List.append_assoc] at hgap
  obtain ⟨rfl, hc⟩ := List.append_inj' hgap rfl
  obtain rfl : '=' = c := by simpa using hc
  have hgap : ∀ c ∈ gap, (c != '=') := fun c hc => hnot c (List.mem_append_right _ hc)
  rw [List.append_assoc, List.append_assoc, List.singleton_append, List.singleton_append] at heq
  have htake := congrArg (List.takeWhile (· != '=')) heq
  rw [takeWhile_append_of_leaves hgap (leaves_cons (by decide) _),
    takeWhile_append_of_leaves hletters (leaves_cons (by decide) _)] at htake
  subst htake
  exact ⟨rfl, by simpa using heq⟩

/-- A piece that is replaced at the place of a comparison or over it. -/
theorem moves_or_endsInValue {earlier : List Segment} {tail rest : List Char}
    (hmoves : (Segment.replaced (init ++ tail) replacement).MovesAssignments property source
      (oldText earlier) rest)
    (hstart : WordStart (oldText earlier ++ init)) (htarget : IsTarget property target)
    (htail : tail ≠ []) (heq : tail ++ rest = target ++ '=' :: back) :
    MovesComparison property (oldText earlier) (init ++ tail) replacement (oldText earlier ++ init)
        target ∨
      EndsInValue property (oldText earlier) (init ++ tail) (oldText earlier ++ init) := by
  obtain ⟨owner, target', value, node, hassignment, hpiece, -, -, hreplacement⟩ := hmoves
  rcases List.append_eq_append_iff.mp hpiece with ⟨gap, hgap, rfl⟩ | ⟨inner, rfl, rfl⟩
  · rcases eq_or_ne gap [] with rfl | hne
    · refine .inr ⟨owner, target', value, [], hassignment, hpiece, by simp [hgap], ?_⟩
      exact List.length_pos_iff.mpr hassignment.value.ne_nil
    · rw [List.append_assoc] at heq
      obtain ⟨rfl, hvalue⟩ := eq_target_of_append hassignment htarget hgap hne heq
      obtain ⟨rfl, rfl⟩ := htarget.append_inj hassignment.target hassignment.owner hstart hgap
      obtain ⟨c, operand, rfl⟩ := List.exists_cons_of_ne_nil hassignment.value.ne_nil
      obtain rfl : c = '=' := (List.cons_eq_cons.mp hvalue).1
      refine .inl ⟨owner, operand, node, rfl, hassignment.owner, by simp, ?_⟩
      rw [hreplacement, ← trim_equals, hpiece, hassignment.afterEquals_eq]
  · refine .inr ⟨owner, target', inner ++ tail, inner, hassignment, hpiece, by simp, ?_⟩
    rw [List.length_append]
    exact Nat.lt_add_of_pos_right (List.length_pos_iff.mpr htail)

/-- Each comparison with a material's property is reported and makes the fix change the script. It
is moved with its second equals sign as the start of the value, unless it begins inside the value of
an assignment that is moved. -/
theorem comparison_reported_and_moved (hstart : WordStart front)
    (htarget : IsTarget property target) (hsource : source = front ++ target ++ '=' :: back) :
    materialMoved property ∈ reportedChanges source ∧
      ∃ segments, oldText segments = source ∧
        applyFix? (materialMoved property) source =
          some (withNote (materialMoved property) (newText segments)) ∧
        (∀ earlier segment later, segments = earlier ++ segment :: later →
          segment.MovesAssignments property source (oldText earlier) (oldText later)) ∧
        ∃ earlier piece replacement later,
          segments = earlier ++ .replaced piece replacement :: later ∧
          (MovesComparison property (oldText earlier) piece replacement front target ∨
            EndsInValue property (oldText earlier) piece front) := by
  refine ⟨?_, ?_⟩
  · have hoccurs : (Rule.material property).OccursIn source :=
      ⟨front, target, _, hstart, htarget, hsource⟩
    exact mem_reportedChanges.mpr ⟨.material property, hoccurs, rfl⟩
  obtain ⟨segments, h⟩ := Pattern.exists_segments (materialStatement_adds property).consumes source
  have hmoves : ∀ earlier segment later, segments = earlier ++ segment :: later →
      segment.MovesAssignments property source (oldText earlier) (oldText later) :=
    fun earlier segment later hsegments => movesAssignments_of_segments h hsegments
  have happlies : (FixStrategy.material property).AppliesTo source :=
    ⟨front, target, [], '=', back, hstart, htarget, List.forall_mem_nil _, by decide,
      by simp [hsource]⟩
  refine ⟨segments, h.oldText_eq, ?_, hmoves, ?_⟩
  · rw [h.newText_eq]
    exact (applyFix?_eq_some_iff (FixStrategy.fix_change (.material property))
      (FixStrategy.hasExample_change (.material property))).mpr ⟨happlies, rfl⟩
  obtain ⟨c, others, hc⟩ : ∃ c others, target ++ '=' :: back = c :: others :=
    List.exists_cons_of_ne_nil (by simp)
  rw [List.append_assoc, ← h.oldText_eq] at hsource
  rcases exists_place hsource with ⟨earlier, later, rfl, rfl, hlater⟩ |
    ⟨earlier, replacement, init, tail, later, rfl, -, htail, rfl, hback⟩
  · -- No character is kept where the comparison begins.
    cases later with
    | nil => simp [← hlater] at hc
    | cons segment later =>
      cases segment with
      | kept d =>
        have hnot : ¬ BeginsAssignment property (oldText earlier) (d :: oldText later) :=
          hmoves earlier _ later rfl
        have hbegins : BeginsAssignment property (oldText earlier) (target ++ '=' :: back) :=
          beginsAssignment_comparison hstart htarget
        rw [← hlater] at hbegins
        exact absurd hbegins hnot
      | replaced piece replacement =>
        refine ⟨earlier, piece, replacement, later, rfl, ?_⟩
        have hpiece : piece ≠ [] := (h.eq_some_of_replaced earlier piece replacement later rfl).1
        rw [← List.append_nil (oldText earlier)] at hstart
        simpa using moves_or_endsInValue (hmoves earlier _ later rfl) hstart htarget hpiece hlater
  · exact ⟨earlier, _, replacement, later, rfl,
      moves_or_endsInValue (hmoves earlier _ later rfl) hstart htarget htail hback.symm⟩

/-- A condition, which becomes a broken assignment. -/
theorem comparison_reported_and_moved_condition :
    WordStart "if ".toList ∧ IsTarget .lifetime "material.lifetime =".toList ∧
      materialMoved .lifetime ∈ reportedChanges "if material.lifetime == 2:".toList ∧
      (FixStrategy.material .lifetime).edit "if material.lifetime == 2:".toList =
        ("if particles.lifetime = = 2:  # fixed: moved from material.lifetime to " ++
          "particles.lifetime").toList := by
  have hstart : WordStart "if ".toList := by
    rintro c ⟨⟩
    decide
  have htarget : IsTarget .lifetime "material.lifetime =".toList :=
    ⟨[], [], [], [' '], .inl rfl, List.forall_mem_nil _, List.forall_mem_nil _,
      List.forall_mem_singleton.mpr (by decide), by decide⟩
  have hsource : "if material.lifetime == 2:".toList =
      "if ".toList ++ "material.lifetime =".toList ++ '=' :: " 2:".toList := by
    decide
  have hreported := (comparison_reported_and_moved hstart htarget hsource).1
  exact ⟨hstart, htarget, hreported, by decide +kernel⟩

end EditorLink.Migration
