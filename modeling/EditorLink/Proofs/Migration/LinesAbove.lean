import EditorLink.Proofs.Migration.LineBreaks

/-!
# What stands above a text

Of what stands in the lines above a text a pass sees no more than the nodes that the last of them
declare, and it looks for these only where an assignment without an owner stands in the text.
-/

namespace EditorLink.Migration

variable {before behind rest : List Char}

/-! ## Texts above -/

/-- What stands above a text that stands below others. -/
def textAbove (texts : List (List Char)) : List Char := texts.flatMap (· ++ ['\n'])

theorem atLineStart_textAbove (texts : List (List Char)) :
    atLineStart (textAbove texts).reverse := by
  induction texts using List.reverseRecOn with
  | nil => rfl
  | append_singleton texts text => simp [textAbove, atLineStart]

theorem splitOn_textAbove_append (texts : List (List Char)) (text : List Char) :
    (textAbove texts ++ text).splitOn '\n' =
      texts.flatMap (·.splitOn '\n') ++ text.splitOn '\n' := by
  induction texts with
  | nil => rfl
  | cons above texts ih =>
    have hcut : textAbove (above :: texts) ++ text = above ++ '\n' :: (textAbove texts ++ text) := by
      simp [textAbove]
    rw [hcut, List.splitOn_append_cons_self, ih, List.flatMap_cons, List.append_assoc]

/-! ## Places behind a line's start -/

theorem atLineStart_append (h : atLineStart behind) :
    atLineStart (before ++ behind) = atLineStart before := by
  cases before with
  | nil => exact h
  | cons c before => rfl

theorem atWordStart_append (h : atLineStart behind) :
    atWordStart (before ++ behind) = atWordStart before := by
  cases before with
  | nil =>
    cases behind with
    | nil => rfl
    | cons c behind =>
      obtain rfl := eq_of_beq h
      rfl
  | cons c before => rfl

/-! ## Nodes -/

/-- The nodes of particles that the lines of a text declare, line by line. -/
def nodesOf (text : List Char) : List (Option (List Char)) :=
  (text.splitOn '\n').map fun line => particlesDeclaration.search? (Text.trim line)

/-- The nodes that the lines of some texts declare, from the first declaration on. -/
def nodesFromFirst (texts : List (List Char)) : List (Option (List Char)) :=
  (texts.flatMap nodesOf).dropWhile Option.isNone

/-- In the last of some lines the first declaration is the same without lines at the top that
declare nothing. -/
theorem findSome?_last {α : Type} (count : Nat) (nodes more : List (Option α)) :
    ((nodes ++ more).drop ((nodes ++ more).length - count)).findSome? id =
      (((nodes.dropWhile Option.isNone) ++ more).drop
        (((nodes.dropWhile Option.isNone) ++ more).length - count)).findSome? id := by
  induction nodes with
  | nil => rfl
  | cons node nodes ih =>
    cases node with
    | some found => rfl
    | none =>
      rw [List.dropWhile_cons_of_pos rfl, ← ih, List.cons_append, List.length_cons]
      by_cases hlong : (nodes ++ more).length < count
      · rw [Nat.sub_eq_zero_of_le hlong, Nat.sub_eq_zero_of_le (Nat.le_of_lt hlong)]
        rfl
      · rw [Nat.succ_sub (Nat.le_of_not_lt hlong), List.drop_succ_cons]

theorem particlesAbove_append_textAbove (texts : List (List Char)) (before : List Char) :
    particlesAbove (before ++ (textAbove texts).reverse) =
      let nodes := nodesFromFirst texts ++ (nodesOf before.reverse).dropLast
      ((nodes.drop (nodes.length - 10)).findSome? id).getD "particles".toList := by
  have hne : before.reverse.splitOn '\n' ≠ [] := List.splitOn_ne_nil _ _
  have hlines : ((before ++ (textAbove texts).reverse).reverse.splitOn '\n').dropLast =
      texts.flatMap (·.splitOn '\n') ++ (before.reverse.splitOn '\n').dropLast := by
    rw [List.reverse_append, List.reverse_reverse, splitOn_textAbove_append,
      List.dropLast_append_of_ne_nil hne]
  have hnodes : (texts.flatMap (·.splitOn '\n') ++ (before.reverse.splitOn '\n').dropLast).map
      (fun line => particlesDeclaration.search? (Text.trim line)) =
        texts.flatMap nodesOf ++ (nodesOf before.reverse).dropLast := by
    rw [List.map_append, List.map_flatMap, List.map_dropLast]
    rfl
  have hfind : ∀ lines : List (List Char), (lines.findSome? fun line =>
      particlesDeclaration.search? (Text.trim line)) =
        (lines.map fun line => particlesDeclaration.search? (Text.trim line)).findSome? id :=
    fun lines => by rw [List.findSome?_map, Function.id_comp]
  rw [particlesAbove, linesAbove]
  dsimp only
  rw [hlines, hfind, List.map_drop, hnodes, ← List.length_map, hnodes, findSome?_last]
  rfl

/-- Texts that declare the same from their first declarations on give a place below them the same
node. -/
theorem particlesAbove_congr {texts others : List (List Char)}
    (h : nodesFromFirst texts = nodesFromFirst others) (before : List Char) :
    particlesAbove (before ++ (textAbove texts).reverse) =
      particlesAbove (before ++ (textAbove others).reverse) := by
  rw [particlesAbove_append_textAbove, particlesAbove_append_textAbove, h]

/-! ## Assignments without an owner -/

/-- A point with a word before it stands directly before a place. -/
def endsWithOwner (before : List Char) : Bool :=
  match before with
  | point :: c :: _ => point == '.' && Text.isWord c
  | _ => false

/-- An assignment to a property of a material that has no owner. -/
def bareAssignment (property : MaterialProperty) : Pattern Unit := fun before rest =>
  if atWordStart before && !endsWithOwner before then
    (assigned? property rest).map fun taken => ((), taken.2)
  else none

section

variable {property : MaterialProperty} {source text : List Char}
  {segments earlier later : List Segment}

/-- No owner stands before a piece that is replaced from a bare assignment on: else an assignment
with that owner would begin before. -/
theorem endsWithOwner_of_replaced (h : (materialStatement property).Segments source segments)
    {piece replacement : List Char}
    (hsegments : segments = earlier ++ .replaced piece replacement :: later)
    (hassigned : (assigned? property (piece ++ oldText later)).isSome) :
    endsWithOwner (oldText earlier).reverse = false := by
  refine eq_false_of_ne_true fun howner => ?_
  obtain ⟨start, c, hold, hc⟩ : ∃ start c, oldText earlier = start ++ [c, '.'] ∧ Text.isWord c := by
    cases hback : (oldText earlier).reverse with
    | nil => simp [hback, endsWithOwner] at howner
    | cons point others =>
      cases others with
      | nil => simp [hback, endsWithOwner] at howner
      | cons c others =>
        obtain ⟨rfl, hc⟩ : point = '.' ∧ Text.isWord c := by
          simpa [hback, endsWithOwner] using howner
        exact ⟨others.reverse, c, by simpa using congrArg List.reverse hback, hc⟩
  obtain ⟨hne, -⟩ := h.eq_some_of_replaced earlier piece replacement later hsegments
  obtain ⟨others, htarget⟩ : ∃ others, materialTarget? property (piece ++ oldText later) =
      some others := by
    unfold assigned? at hassigned
    cases htarget : materialTarget? property (piece ++ oldText later) with
    | none => simp [htarget] at hassigned
    | some others => exact ⟨others, rfl⟩
  have hpiece : ∃ c ∈ piece.head?, endsValue c = false := by
    obtain ⟨target, hisTarget, hsplit⟩ := materialTarget?_eq_some_iff.mp htarget
    obtain ⟨d, hd, hword⟩ := hisTarget.head?_isWord others
    rw [← hsplit, List.head?_append_of_ne_nil _ hne] at hd
    exact ⟨d, hd, endsValue_of_isWord hword⟩
  refine not_beginsAssignment_before h hsegments hold (by simp) ?_ hpiece ?_
  · intro d hd
    rcases List.mem_cons.mp hd with rfl | hd
    · exact endsValue_of_isWord hc
    · obtain rfl := List.mem_singleton.mp hd
      decide
  · have hword : word? ([c, '.'] ++ (piece ++ oldText later)) =
        some ([c], '.' :: (piece ++ oldText later)) := by
      refine word?_eq_some_iff.mpr ⟨rfl, List.cons_ne_nil _ _, ?_, leaves_cons (by decide) _⟩
      exact List.forall_mem_singleton.mpr hc
    have hpoint : literal? "." ('.' :: (piece ++ oldText later)) =
        some (piece ++ oldText later) := literal?_eq_some_iff.mpr rfl
    rw [beginsAssignment_iff, materialStatement_eq_or, hword, Option.bind_some, hpoint,
      Option.bind_some, Option.isSome_or]
    simp [hassigned]

theorem materialStatement_append_eq_none (hbehind : atLineStart behind)
    (h : materialStatement property before rest = none) :
    materialStatement property (before ++ behind) rest = none := by
  rw [materialStatement_eq_or, Option.or_eq_none_iff] at h ⊢
  obtain ⟨howned, hbare⟩ := h
  refine ⟨howned, ?_⟩
  rw [atWordStart_append hbehind]
  split
  · next hstart =>
    rw [if_pos hstart, Option.map_eq_none_iff] at hbare
    rw [hbare, Option.map_none]
  · rfl

/-- An assignment with an owner is moved alike whatever stands above. -/
theorem materialStatement_append_eq_some (hbehind : atLineStart behind)
    {found : List Char × List Char} (h : materialStatement property before rest = some found)
    (hbare : bareAssignment property before rest = none)
    (howner : (assigned? property rest).isSome → endsWithOwner before = false) :
    materialStatement property (before ++ behind) rest = some found := by
  have hnone : atWordStart before → assigned? property rest = none := by
    intro hstart
    refine Option.isNone_iff_eq_none.mp (eq_true_of_ne_false fun hassigned => ?_)
    have hsome : (assigned? property rest).isSome := by
      rw [← Option.not_isNone, hassigned]
      rfl
    rw [bareAssignment, hstart, howner hsome] at hbare
    simp only [Bool.not_false, Bool.and_self, if_true, Option.map_eq_none_iff] at hbare
    rw [hbare] at hsome
    cases hsome
  rw [materialStatement_eq_or] at h ⊢
  rw [atWordStart_append hbehind]
  by_cases hstart : atWordStart before
  · rw [hnone hstart] at h ⊢
    simpa [hstart] using h
  · simpa [hstart] using h

/-- Where no assignment without an owner stands in a text, the assignments are moved as if nothing
stood above. -/
theorem materialStatement_replaceFrom_of_owned (hbehind : atLineStart behind)
    (h : ¬ (bareAssignment property).occurs text) :
    (materialStatement property).replaceFrom 0 behind text =
      (materialStatement property).replaceAll text := by
  have hconsumes := (materialStatement_adds property).consumes
  obtain ⟨segments, hsegments⟩ := Pattern.exists_segments hconsumes text
  have hbare : ∀ earlier later : List Segment, segments = earlier ++ later →
      bareAssignment property (oldText earlier).reverse (oldText later) = none := by
    intro earlier later heq
    have hempty : ∀ before, bareAssignment property before [] = none := fun before =>
      ite_self none
    refine Pattern.eq_none_of_occurs hempty (eq_false_of_ne_true h) ?_
    rw [← hsegments.oldText_eq, heq, oldText_append]
  -- What is kept and replaced in the text alone is kept and replaced below other lines too.
  have hbelow : Pattern.Rewritten (materialStatement property) behind
      (oldText segments) (newText segments) := by
    refine .of_segments fun earlier segment later heq => ?_
    cases segment with
    | kept c =>
      exact materialStatement_append_eq_none hbehind
        (hsegments.eq_none_of_kept earlier c later heq)
    | replaced piece replacement =>
      obtain ⟨hne, hmatch⟩ := hsegments.eq_some_of_replaced earlier piece replacement later heq
      refine ⟨hne, materialStatement_append_eq_some hbehind hmatch (hbare earlier _ heq) ?_⟩
      exact endsWithOwner_of_replaced hsegments heq
  rw [hsegments.oldText_eq, hsegments.newText_eq] at hbelow
  exact hbelow.replaceFrom_eq

/-- The assignments of a text are moved alike below texts that declare the same nodes, or below any
texts if each has an owner. -/
theorem materialStatement_replaceFrom_congr {texts others : List (List Char)}
    (h : (bareAssignment property).occurs text → nodesFromFirst texts = nodesFromFirst others) :
    (materialStatement property).replaceFrom 0 (textAbove texts).reverse text =
      (materialStatement property).replaceFrom 0 (textAbove others).reverse text := by
  have htexts := atLineStart_textAbove texts
  have hothers := atLineStart_textAbove others
  by_cases hbare : (bareAssignment property).occurs text
  · have hsame : ∀ before rest,
        materialStatement property (before ++ (textAbove texts).reverse) rest =
          materialStatement property (before ++ (textAbove others).reverse) rest := by
      intro before rest
      rw [materialStatement_eq_or, materialStatement_eq_or, atWordStart_append htexts,
        atWordStart_append hothers, particlesAbove_congr (h hbare)]
    exact Pattern.replaceFrom_congr hsame 0 []
  · rw [materialStatement_replaceFrom_of_owned htexts hbare,
      materialStatement_replaceFrom_of_owned hothers hbare]

end

/-! ## Strategies behind a line's start -/

namespace FixStrategy

variable {strategy : FixStrategy} {text : List Char}

/-- The strategy's edit of a text that has something before it. -/
def editFrom (strategy : FixStrategy) (before text : List Char) : List Char :=
  strategy.passes.foldl (fun text pass => pass.replaceFrom 0 before text) text

/-- A pass of a strategy that does not move assignments looks at nothing above a line. -/
theorem pass_append_of_atLineStart {pass : Pattern (List Char)} (hpass : pass ∈ strategy.passes)
    (hmoves : ∀ property, strategy ≠ .material property) (hbehind : atLineStart behind)
    (before rest : List Char) : pass (before ++ behind) rest = pass before rest := by
  cases strategy with
  | hasProperty =>
    simp only [passes, List.mem_cons, List.not_mem_nil, or_false] at hpass
    rcases hpass with rfl | rfl
    · simp only [propertyCheckHeader, atLineStart_append hbehind]
    · rfl
  | setLooped =>
    obtain ⟨note, heq⟩ := loopedCall_eq
    obtain rfl := (List.mem_singleton.mp hpass).trans heq
    rfl
  | colorAtOffset =>
    obtain ⟨template, heq, -⟩ := colorAtOffsetCall_eq
    obtain rfl := (List.mem_singleton.mp hpass).trans heq
    rfl
  | colorRect =>
    simp only [passes, List.mem_cons, List.not_mem_nil, or_false] at hpass
    rcases hpass with rfl | rfl | rfl
    · rfl
    · rfl
    · simp only [colorRectCall, atWordStart_append hbehind]
  | material property => exact absurd rfl (hmoves property)

theorem replaceFrom_of_atLineStart {pass : Pattern (List Char)} (hpass : pass ∈ strategy.passes)
    (hmoves : ∀ property, strategy ≠ .material property) (hbehind : atLineStart behind)
    (text : List Char) : pass.replaceFrom 0 behind text = pass.replaceAll text := by
  refine Pattern.replaceFrom_congr (fun before rest => ?_) 0 []
  rw [List.append_nil]
  exact pass_append_of_atLineStart hpass hmoves hbehind before rest

/-- A strategy that moves no assignments edits a text alike whatever stands above. -/
theorem editFrom_of_atLineStart (hmoves : ∀ property, strategy ≠ .material property)
    (hbehind : atLineStart behind) (text : List Char) :
    strategy.editFrom behind text = strategy.edit text := by
  exact List.foldl_ext _ _ _ fun text pass hpass =>
    replaceFrom_of_atLineStart hpass hmoves hbehind text

/-- A strategy edits a text alike below texts that declare the same nodes, or below any texts if it
does not move an assignment without an owner in it. -/
theorem editFrom_congr {texts others : List (List Char)}
    (h : ∀ property, strategy = .material property → (bareAssignment property).occurs text →
      nodesFromFirst texts = nodesFromFirst others) :
    strategy.editFrom (textAbove texts).reverse text =
      strategy.editFrom (textAbove others).reverse text := by
  by_cases hmoves : ∃ property, strategy = .material property
  · obtain ⟨property, rfl⟩ := hmoves
    exact materialStatement_replaceFrom_congr (h property rfl)
  · have hblind := not_exists.mp hmoves
    rw [editFrom_of_atLineStart hblind (atLineStart_textAbove texts),
      editFrom_of_atLineStart hblind (atLineStart_textAbove others)]

/-- A text that the strategy leaves as it is stays as it is whatever stands above. -/
theorem editFrom_eq_self (hbehind : atLineStart behind) (h : strategy.edit text = text) :
    strategy.editFrom behind text = text := by
  by_cases hmoves : ∃ property, strategy = .material property
  · obtain ⟨property, rfl⟩ := hmoves
    have hempty := (materialStatement_adds property).consumes.nil
    have hquiet : ¬ AppliesTo text (.material property) := fun happlies =>
      not_prefix_edit happlies (by rw [h])
    rw [← materialStatement_occurs_iff] at hquiet
    refine Pattern.replaceFrom_eq_self (eq_false_of_ne_true fun hoccurs => ?_)
    obtain ⟨front, piece, htext, -, hmatch⟩ := Pattern.occursFrom_iff.mp hoccurs
    have hnone := Pattern.eq_none_of_occurs hempty (eq_false_of_ne_true hquiet) htext
    rw [materialStatement_append_eq_none hbehind hnone] at hmatch
    cases hmatch
  · rw [editFrom_of_atLineStart (not_exists.mp hmoves) hbehind, h]

end FixStrategy

end EditorLink.Migration
