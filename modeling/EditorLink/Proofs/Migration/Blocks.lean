import EditorLink.Proofs.Migration.Stacks

/-!
# Independent blocks

Some fixes get in each other's way: one drops the text that another one would rewrite, writes what
another one finds, or brings lines between an assignment and the declaration of its node. They do
not where a script can be cut at line breaks into blocks so that no form is left unfinished at the
end of a block or goes on in the next one, no more than one of the fixes changes each block, and the
declarations above an assignment without an owner keep their places. Then the order of the fixes
decides about the order of the notes and about nothing else.
-/

namespace EditorLink.Migration

variable {strategy : FixStrategy} {below : List Char} {strategies : List FixStrategy}

/-! ## Notes -/

def FixStrategy.description (strategy : FixStrategy) : List Char :=
  strategy.rule.change.description.toList

def notesFor (strategies : List FixStrategy) : List Char :=
  strategies.flatMap fun strategy => fixNote strategy.rule.change

theorem notesFor_append_singleton (strategies : List FixStrategy) (strategy : FixStrategy) :
    notesFor (strategies ++ [strategy]) = notesFor strategies ++ fixNote strategy.rule.change := by
  simp [notesFor]

theorem notesFor_eq (strategies : List FixStrategy) :
    notesFor strategies = [] ∨ ∃ below, notesFor strategies = '\n' :: below := by
  cases strategies with
  | nil => exact .inl rfl
  | cons strategy strategies =>
    obtain ⟨back, hnote⟩ := exists_fixNote strategy.rule.change
    exact .inr ⟨_, by simp [notesFor, hnote]; rfl⟩

theorem FixStrategy.rule_injective {other : FixStrategy} (h : strategy.rule = other.rule) :
    strategy = other := by
  have hfix := congrArg (fun rule => rule.change.fix) h
  simpa only [FixStrategy.fix_change, Option.some_inj] using hfix

/-- No note quotes the description of another change. -/
theorem description_not_infix_fixNote {other : FixStrategy} (h : strategy ≠ other) :
    ¬ strategy.description <:+: fixNote other.rule.change := by
  rw [← contains_iff, fixNote_eq]
  rcases strategy with _ | _ | _ | _ | ⟨_ | _ | _ | _ | _⟩ <;>
    rcases other with _ | _ | _ | _ | ⟨_ | _ | _ | _ | _⟩ <;>
    first
    | exact absurd rfl h
    | simp only [FixStrategy.description, FixStrategy.rule, Rule.change, hasPropertyGone,
        setLoopedRemoved, colorAtOffsetRemoved, colorRectDeprecated, materialMoved, movedToNode,
        MaterialProperty.name, MaterialProperty.nodeName, String.toList_append]
      repeat rw [String.toList_ofList]
      decide +kernel

theorem description_spec (strategy : FixStrategy) :
    strategy.description ≠ [] ∧ '\n' ∉ strategy.description := by
  rcases strategy with _ | _ | _ | _ | ⟨_ | _ | _ | _ | _⟩ <;> decide

theorem not_occursIn_notesFor (h : strategy ∉ strategies) :
    ¬ strategy.rule.form.OccursIn (notesFor strategies) := by
  induction strategies using List.reverseRecOn with
  | nil => exact Rule.not_occursIn_nil
  | append_singleton strategies other ih =>
    rw [notesFor_append_singleton]
    simp only [List.mem_append, List.mem_singleton, not_or] at h
    intro hoccurs
    rcases occursIn_of_append_fixNote hoccurs with hfront | hrule
    · exact ih h.1 hfront
    · exact h.2 (FixStrategy.rule_injective hrule)

theorem description_not_infix_notesFor (h : strategy ∉ strategies) :
    ¬ strategy.description <:+: notesFor strategies := by
  induction strategies using List.reverseRecOn with
  | nil => simpa [notesFor] using (description_spec strategy).1
  | append_singleton strategies other ih =>
    rw [notesFor_append_singleton]
    simp only [List.mem_append, List.mem_singleton, not_or] at h
    obtain ⟨back, hnote⟩ := exists_fixNote other.rule.change
    have hother := description_not_infix_fixNote h.2
    rw [hnote] at hother ⊢
    rw [List.cons_append, infix_append_break (description_spec strategy).2]
    rintro (hfront | hback)
    · exact ih h.1 hfront
    · exact hother (hback.trans (List.suffix_cons _ _).isInfix)

theorem startsAnew_of_notesFor (h : notesFor strategies = '\n' :: below) : startsAnew below := by
  cases strategies with
  | nil => cases h
  | cons other strategies =>
    obtain ⟨back, hnote⟩ := exists_fixNote other.rule.change
    rw [notesFor, List.flatMap_cons, hnote] at h
    obtain ⟨-, rfl⟩ := List.cons_eq_cons.mp h
    rfl

/-- Notes of other strategies are left as they are, below texts that can be told apart. -/
theorem FixStrategy.edit_stack_notesFor {texts : List (List Char)}
    (h : ∀ text ∈ texts, strategy.SetsOff text) (hne : texts ≠ [])
    (hnotes : strategy ∉ strategies) :
    strategy.edit (stack texts ++ notesFor strategies) =
      stack (eachBelow strategy.editFrom [] texts) ++ notesFor strategies := by
  have hanew : ∀ text ∈ texts, ∀ stage ∈ strategy.stages text, startsAnew stage :=
    fun text htext => (h text htext).anew
  have hfinished : ∀ text ∈ texts, ∀ stage ∈ strategy.stages text, strategy.finishes stage :=
    fun text htext => (h text htext).finished
  rcases notesFor_eq strategies with hnil | ⟨below, hcons⟩
  · rw [hnil, List.append_nil, List.append_nil]
    exact edit_stack hanew fun text htext => hfinished text (List.mem_of_mem_dropLast htext)
  · have hbelow : strategy.edit below = below := by
      refine edit_eq_self fun happlies => not_occursIn_notesFor hnotes ?_
      rw [hcons]
      exact ((Rule.occursIn_iff _).mp happlies.occursIn).append_left ['\n'] fun _ =>
        wordStart_append_singleton [] (by decide)
    have hbelow' : strategy.editFrom (textAbove ([] ++ texts)).reverse below = below :=
      editFrom_eq_self (atLineStart_textAbove _) hbelow
    have hedited : eachBelow strategy.editFrom [] texts ≠ [] := by
      obtain ⟨text, rest, rfl⟩ := List.exists_cons_of_ne_nil hne
      exact List.cons_ne_nil _ _
    have hedit : strategy.edit (stack (texts ++ [below])) =
        stack (eachBelow strategy.editFrom [] (texts ++ [below])) := by
      refine edit_stack (List.forall_mem_append.mpr ⟨hanew, List.forall_mem_singleton.mpr ?_⟩) ?_
      · intro stage hstage
        rw [eq_of_mem_stages hbelow hstage]
        exact startsAnew_of_notesFor hcons
      · rwa [List.dropLast_concat]
    rwa [eachBelow_append_singleton, hbelow', stack_append_singleton hne,
      stack_append_singleton hedited, ← hcons] at hedit

theorem description_infix_stack_notesFor {texts : List (List Char)}
    (hnotes : strategy ∉ strategies) :
    strategy.description <:+: stack texts ++ notesFor strategies ↔
      ∃ text ∈ texts, strategy.description <:+: text := by
  obtain ⟨hne, hbreak⟩ := description_spec strategy
  have hquiet := description_not_infix_notesFor hnotes
  rcases notesFor_eq strategies with hnil | ⟨below, hcons⟩
  · rw [hnil, List.append_nil, infix_stack hbreak hne]
  · rw [hcons] at hquiet ⊢
    rw [infix_append_break hbreak, infix_stack hbreak hne, or_iff_left]
    exact fun hbelow => hquiet (hbelow.trans (List.suffix_cons _ _).isInfix)

/-- Whether the fix of a strategy adds its note to a script. -/
def needsNote (source : List Char) (strategy : FixStrategy) : Bool :=
  strategy.edit source != source && !Text.contains strategy.description (strategy.edit source)

theorem fixOrKeep_eq (strategy : FixStrategy) (source : List Char) :
    fixOrKeep strategy.rule.change source =
      strategy.edit source ++ notesFor ([strategy].filter (needsNote source)) := by
  simp only [fixOrKeep, applyFix?, strategy.fix_change, strategy.hasExample_change, withNote,
    Bool.true_and, bne_iff_ne, needsNote, List.filter_cons, FixStrategy.description]
  by_cases hself : strategy.edit source = source
  · simp [hself, notesFor]
  · by_cases hquoted : Text.contains strategy.rule.change.description.toList (strategy.edit source)
    · simp [hself, hquoted, notesFor]
    · simp [hself, hquoted, notesFor]

/-- The fix of texts that can be told apart, with notes of other strategies below them. -/
theorem fixOrKeep_stack_notesFor {texts : List (List Char)}
    (h : ∀ text ∈ texts, strategy.SetsOff text) (hne : texts ≠ [])
    (hnotes : strategy ∉ strategies) :
    fixOrKeep strategy.rule.change (stack texts ++ notesFor strategies) =
      stack (eachBelow strategy.editFrom [] texts) ++
        notesFor (strategies ++ [strategy].filter (needsNote (stack texts))) := by
  have hedit := FixStrategy.edit_stack_notesFor h hne hnotes
  have halone : strategy.edit (stack texts) = stack (eachBelow strategy.editFrom [] texts) := by
    have hnil := FixStrategy.edit_stack_notesFor h hne (List.not_mem_nil (a := strategy))
    simpa [notesFor] using hnil
  have hquoted : Text.contains strategy.description (strategy.edit (stack texts ++
      notesFor strategies)) = Text.contains strategy.description (strategy.edit (stack texts)) := by
    rw [Bool.eq_iff_iff, contains_iff, contains_iff, hedit, halone,
      description_infix_stack_notesFor hnotes,
      infix_stack (description_spec strategy).2 (description_spec strategy).1]
  have hneeds : needsNote (stack texts ++ notesFor strategies) strategy =
      needsNote (stack texts) strategy := by
    rw [needsNote, needsNote, hquoted, hedit, halone]
    congr 1
    rw [Bool.eq_iff_iff, bne_iff_ne, bne_iff_ne]
    exact not_congr (List.append_left_inj _)
  have hnote : [strategy].filter (needsNote (stack texts ++ notesFor strategies)) =
      [strategy].filter (needsNote (stack texts)) := by
    simp only [List.filter_cons, hneeds, List.filter_nil]
  rw [fixOrKeep_eq, hnote, hedit, notesFor, notesFor, notesFor, List.flatMap_append,
    List.append_assoc]

/-! ## Independent blocks -/

/-- A block of a script, the strategy that may change it, and what that makes of it. -/
structure Block where
  text : List Char
  owner : FixStrategy
  edited : List Char

/-- Of some blocks, those from the first that declares a node on keep the number of their lines and
what each line declares. -/
def KeepNodes : List Block → Prop
  | [] => True
  | block :: blocks =>
    ((∀ node ∈ nodesOf block.text ++ nodesOf block.edited, node = none) ∧ KeepNodes blocks) ∨
      ∀ other ∈ block :: blocks, nodesOf other.edited = nodesOf other.text

instance decidableKeepNodes : DecidablePred KeepNodes
  | [] => .isTrue trivial
  | _ :: blocks =>
    have := decidableKeepNodes blocks
    inferInstanceAs (Decidable (_ ∨ _))

namespace Block

/-- The owner moves an assignment to a property of a material that has no owner of its own. -/
def movesBare (block : Block) : Bool :=
  match block.owner with
  | .material property => (bareAssignment property).occurs block.text
  | _ => false

/-- What stands in the place of the block at one time or another: its text as each pass of the owner
finds it, and what the owner makes of it. -/
def stages (block : Block) : List (List Char) := block.owner.stages block.text ++ [block.edited]

/-- A strategy does not change the block, before and after the owner has edited it, and the owner
neither brings nor drops the description of the strategy's change. -/
structure SparedBy (strategy : FixStrategy) (block : Block) : Prop where
  before : strategy.edit block.text = block.text
  edited : strategy.edit block.edited = block.edited
  description : strategy.description <:+: block.edited ↔ strategy.description <:+: block.text

instance (strategy : FixStrategy) (block : Block) : Decidable (block.SparedBy strategy) :=
  decidable_of_iff (strategy.edit block.text = block.text ∧
      strategy.edit block.edited = block.edited ∧
      (strategy.description <:+: block.edited ↔ strategy.description <:+: block.text))
    ⟨fun h => ⟨h.1, h.2.1, h.2.2⟩, fun h => ⟨h.before, h.edited, h.description⟩⟩

/-- Of some strategies none but the owner changes the block, which can always be told from what
stands around it, and the owner makes the same of it whichever of the blocks above are edited. -/
structure OwnedAmong (strategies : List FixStrategy) (above : List Block) (block : Block) :
    Prop where
  edited_eq : block.edited =
    block.owner.editFrom (textAbove (above.map Block.text)).reverse block.text
  anew : ∀ stage ∈ block.stages, startsAnew stage
  finished : ∀ stage ∈ block.stages, ∀ strategy ∈ strategies, strategy.finishes stage
  spared : ∀ strategy ∈ strategies, strategy ≠ block.owner → block.SparedBy strategy
  keepNodes : block.movesBare → KeepNodes above

instance (strategies : List FixStrategy) (above : List Block) (block : Block) :
    Decidable (block.OwnedAmong strategies above) :=
  decidable_of_iff (block.edited =
        block.owner.editFrom (textAbove (above.map Block.text)).reverse block.text ∧
      (∀ stage ∈ block.stages, startsAnew stage) ∧
      (∀ stage ∈ block.stages, ∀ strategy ∈ strategies, strategy.finishes stage) ∧
      (∀ strategy ∈ strategies, strategy ≠ block.owner → block.SparedBy strategy) ∧
      (block.movesBare → KeepNodes above))
    ⟨fun h => ⟨h.1, h.2.1, h.2.2.1, h.2.2.2.1, h.2.2.2.2⟩,
      fun h => ⟨h.edited_eq, h.anew, h.finished, h.spared, h.keepNodes⟩⟩

/-- The block when some strategies have edited the script. -/
def after (done : List FixStrategy) (block : Block) : List Char :=
  if block.owner ∈ done then block.edited else block.text

variable {block : Block} {above : List Block} {done : List FixStrategy}

theorem after_append_of_ne (h : strategy ≠ block.owner) :
    block.after (done ++ [strategy]) = block.after done := by
  simp [after, Ne.symm h]

theorem after_mem_stages (done : List FixStrategy) (block : Block) :
    block.after done ∈ block.stages := by
  unfold after stages
  split
  · exact List.mem_append_right _ (.head _)
  · exact List.mem_append_left _ (block.owner.self_mem_stages block.text)

theorem SparedBy.edit_after (h : block.SparedBy strategy) (done : List FixStrategy) :
    strategy.edit (block.after done) = block.after done := by
  unfold after
  split
  · exact h.edited
  · exact h.before

theorem SparedBy.description_after (h : block.SparedBy strategy) (done : List FixStrategy) :
    strategy.description <:+: block.after done ↔ strategy.description <:+: block.text := by
  unfold after
  split
  · exact h.description
  · rfl

end Block

variable {blocks above : List Block} {done : List FixStrategy} {source : List Char}

/-- Whichever of the blocks are edited, from the first declaration on they declare the same. -/
theorem KeepNodes.nodesFromFirst_after (h : KeepNodes blocks) (done : List FixStrategy) :
    nodesFromFirst (blocks.map (Block.after done)) = nodesFromFirst (blocks.map Block.text) := by
  induction blocks with
  | nil => rfl
  | cons block blocks ih =>
    rcases h with ⟨hnone, hrest⟩ | hkeep
    · have hdrop : ∀ text ∈ [block.text, block.edited], ∀ texts,
          nodesFromFirst (text :: texts) = nodesFromFirst texts := by
        intro text htext texts
        rw [nodesFromFirst, List.flatMap_cons]
        refine List.dropWhile_append_of_pos fun node hnode => ?_
        obtain rfl : node = none := by
          refine hnone node (List.mem_append.mpr ?_)
          rcases List.mem_cons.mp htext with rfl | hedited
          · exact .inl hnode
          · obtain rfl := List.mem_singleton.mp hedited
            exact .inr hnode
        rfl
      have hafter : block.after done ∈ [block.text, block.edited] := by
        unfold Block.after
        split
        · exact .tail _ (.head _)
        · exact .head _
      rw [List.map_cons, List.map_cons, hdrop _ hafter, hdrop _ (.head _), ih hrest]
    · have hsame : ∀ other ∈ block :: blocks, nodesOf (other.after done) = nodesOf other.text := by
        intro other hother
        unfold Block.after
        split
        · exact hkeep other hother
        · rfl
      simp only [nodesFromFirst, List.flatMap_map]
      rw [List.flatMap_congr hsame]

namespace Block.OwnedAmong

variable {block : Block}

theorem setsOff (h : block.OwnedAmong strategies above) (hmem : strategy ∈ strategies)
    (hdone : strategy ∉ done) : strategy.SetsOff (block.after done) := by
  by_cases howner : strategy = block.owner
  · subst howner
    have hstages : ∀ stage ∈ block.owner.stages block.text, stage ∈ block.stages :=
      fun stage hstage => List.mem_append_left _ hstage
    rw [after, if_neg hdone]
    exact ⟨fun stage hstage => h.anew stage (hstages stage hstage),
      fun stage hstage => h.finished stage (hstages stage hstage) _ hmem⟩
  · have hself := (h.spared strategy hmem howner).edit_after done
    refine ⟨fun stage hstage => ?_, fun stage hstage => ?_⟩
    · rw [FixStrategy.eq_of_mem_stages hself hstage]
      exact h.anew _ (block.after_mem_stages done)
    · rw [FixStrategy.eq_of_mem_stages hself hstage]
      exact h.finished _ (block.after_mem_stages done) strategy hmem

/-- What one more strategy does to a block. -/
theorem editFrom_after (h : block.OwnedAmong strategies above) (hmem : strategy ∈ strategies)
    (hdone : strategy ∉ done) :
    strategy.editFrom (textAbove (above.map (Block.after done))).reverse (block.after done) =
      block.after (done ++ [strategy]) := by
  by_cases howner : strategy = block.owner
  · subst howner
    rw [after, if_neg hdone, after, if_pos (by simp), h.edited_eq]
    refine FixStrategy.editFrom_congr fun property howner hoccurs => ?_
    have hmoves : block.movesBare := by
      rwa [movesBare, howner]
    exact (h.keepNodes hmoves).nodesFromFirst_after done
  · rw [after_append_of_ne howner]
    exact FixStrategy.editFrom_eq_self (atLineStart_textAbove _)
      ((h.spared strategy hmem howner).edit_after done)

end Block.OwnedAmong

/-- Each of some blocks below others is changed by no more than one of some strategies, and by that
one whatever else is changed. -/
def OwnedBelow (strategies : List FixStrategy) : List Block → List Block → Prop
  | _, [] => True
  | above, block :: blocks =>
    block.OwnedAmong strategies above ∧ OwnedBelow strategies (above ++ [block]) blocks

instance decidableOwnedBelow (strategies : List FixStrategy) :
    (above blocks : List Block) → Decidable (OwnedBelow strategies above blocks)
  | _, [] => .isTrue trivial
  | above, block :: blocks =>
    have := decidableOwnedBelow strategies (above ++ [block]) blocks
    inferInstanceAs (Decidable (_ ∧ _))

theorem OwnedBelow.exists_owned (h : OwnedBelow strategies above blocks) {block : Block}
    (hblock : block ∈ blocks) : ∃ above, block.OwnedAmong strategies above := by
  induction blocks generalizing above with
  | nil => cases hblock
  | cons other blocks ih =>
    rcases List.mem_cons.mp hblock with rfl | hmem
    · exact ⟨above, h.1⟩
    · exact ih h.2 hmem

theorem OwnedBelow.eachBelow_after (h : OwnedBelow strategies above blocks)
    (hmem : strategy ∈ strategies) (hdone : strategy ∉ done) :
    eachBelow strategy.editFrom (above.map (Block.after done)) (blocks.map (Block.after done)) =
      blocks.map (Block.after (done ++ [strategy])) := by
  induction blocks generalizing above with
  | nil => rfl
  | cons block blocks ih =>
    have hrest := ih h.2
    rw [List.map_append, List.map_singleton] at hrest
    rw [List.map_cons, eachBelow, h.1.editFrom_after hmem hdone, hrest, List.map_cons]

/-- Blocks that some strategies edit each by itself, no more than one of them each. -/
structure Independent (strategies : List FixStrategy) (blocks : List Block) : Prop where
  ne_nil : blocks ≠ []
  owned : OwnedBelow strategies [] blocks

/-- The script of some blocks. -/
def scriptOf (blocks : List Block) : List Char := stack (blocks.map Block.text)

/-- The script of some blocks when some strategies have been done. -/
def scriptAfter (blocks : List Block) (done : List FixStrategy) : List Char :=
  stack (blocks.map (Block.after done)) ++ notesFor (done.filter (needsNote (scriptOf blocks)))

theorem after_nil : Block.after [] = Block.text := by
  funext block
  simp [Block.after]

theorem scriptAfter_nil (blocks : List Block) : scriptAfter blocks [] = scriptOf blocks := by
  simp [scriptAfter, notesFor, scriptOf, after_nil]

section

variable (hblocks : Independent strategies blocks) (hmem : strategy ∈ strategies)
  (hdone : strategy ∉ done)

include hblocks hmem hdone

theorem setsOff_after : ∀ text ∈ blocks.map (Block.after done), strategy.SetsOff text := by
  refine List.forall_mem_map.mpr fun block hblock => ?_
  obtain ⟨above, howned⟩ := hblocks.owned.exists_owned hblock
  exact howned.setsOff hmem hdone

theorem edit_stack_after : strategy.edit (stack (blocks.map (Block.after done))) =
    stack (blocks.map (Block.after (done ++ [strategy]))) := by
  have hset := setsOff_after hblocks hmem hdone
  have heach := hblocks.owned.eachBelow_after hmem hdone
  rw [List.map_nil] at heach
  rw [FixStrategy.edit_stack (fun text htext => (hset text htext).anew)
    (fun text htext => (hset text (List.mem_of_mem_dropLast htext)).finished), heach]

/-- A strategy changes the script just when it changes a block of its own. -/
theorem edit_stack_after_eq_iff :
    strategy.edit (stack (blocks.map (Block.after done))) = stack (blocks.map (Block.after done)) ↔
      ∀ block ∈ blocks, strategy = block.owner → block.edited = block.text := by
  constructor
  · rintro hself block hblock rfl
    by_contra hchanged
    obtain ⟨above, howned⟩ := hblocks.owned.exists_owned hblock
    -- A strategy that applies to the block applies to the script, and then changes it.
    have happlies : block.owner.AppliesTo (block.after done) := by
      rw [Block.after, if_neg hdone]
      by_contra hquiet
      refine hchanged (howned.edited_eq.trans ?_)
      exact FixStrategy.editFrom_eq_self (atLineStart_textAbove _) (FixStrategy.edit_eq_self hquiet)
    obtain ⟨front, back, heq, hfront, hback⟩ := exists_stack_eq
      (List.mem_map_of_mem (f := Block.after done) hblock)
    have hprefix := FixStrategy.not_prefix_edit (happlies.frame hfront hback)
    rw [← heq] at hprefix
    exact hprefix (by rw [hself])
  · intro hidle
    rw [edit_stack_after hblocks hmem hdone]
    congr 1
    refine List.map_congr_left fun block hblock => ?_
    by_cases howner : strategy = block.owner
    · have hself := hidle block hblock howner
      simp [Block.after, hself]
    · exact Block.after_append_of_ne howner

theorem description_infix_edit_stack_after :
    strategy.description <:+: strategy.edit (stack (blocks.map (Block.after done))) ↔
      ∃ block ∈ blocks, strategy.description <:+: block.after [strategy] := by
  rw [edit_stack_after hblocks hmem hdone,
    infix_stack (description_spec strategy).2 (description_spec strategy).1]
  simp only [List.mem_map, exists_exists_and_eq_and]
  refine exists_congr fun block => and_congr_right fun hblock => ?_
  by_cases howner : strategy = block.owner
  · subst howner
    simp [Block.after]
  · obtain ⟨above, howned⟩ := hblocks.owned.exists_owned hblock
    have hspared := howned.spared strategy hmem howner
    rw [hspared.description_after, hspared.description_after]

theorem needsNote_stack_after : needsNote (stack (blocks.map (Block.after done))) strategy =
    needsNote (scriptOf blocks) strategy := by
  have hnone : strategy ∉ [] := List.not_mem_nil
  have hchanged := (edit_stack_after_eq_iff hblocks hmem hdone).trans
    (edit_stack_after_eq_iff hblocks hmem hnone).symm
  have hquoted := (description_infix_edit_stack_after hblocks hmem hdone).trans
    (description_infix_edit_stack_after hblocks hmem hnone).symm
  rw [after_nil] at hchanged hquoted
  rw [← contains_iff, ← contains_iff, ← Bool.eq_iff_iff] at hquoted
  rw [needsNote, needsNote, scriptOf, hquoted]
  congr 1
  rw [Bool.eq_iff_iff, bne_iff_ne, bne_iff_ne]
  exact not_congr hchanged

theorem fixOrKeep_scriptAfter : fixOrKeep strategy.rule.change (scriptAfter blocks done) =
    scriptAfter blocks (done ++ [strategy]) := by
  have hne : blocks.map (Block.after done) ≠ [] := by
    simpa using hblocks.ne_nil
  have hnotes : strategy ∉ done.filter (needsNote (scriptOf blocks)) := fun h =>
    hdone (List.mem_filter.mp h).1
  have heach := hblocks.owned.eachBelow_after hmem hdone
  have hneeds := needsNote_stack_after hblocks hmem hdone
  have hnote : [strategy].filter (needsNote (stack (blocks.map (Block.after done)))) =
      [strategy].filter (needsNote (scriptOf blocks)) := by
    simp only [List.filter_cons, hneeds, List.filter_nil]
  rw [List.map_nil] at heach
  rw [scriptAfter, fixOrKeep_stack_notesFor (setsOff_after hblocks hmem hdone) hne hnotes, heach,
    hnote, scriptAfter, List.filter_append]

end

/-- The fixes of some strategies, one after the other. -/
def fixAll (strategies : List FixStrategy) (script : List Char) : List Char :=
  strategies.foldl (fun text strategy => fixOrKeep strategy.rule.change text) script

theorem fixAll_scriptAfter (hblocks : Independent strategies blocks) (order : List FixStrategy)
    (horder : ∀ strategy ∈ order, strategy ∈ strategies) (hnodup : (done ++ order).Nodup) :
    fixAll order (scriptAfter blocks done) = scriptAfter blocks (done ++ order) := by
  -- Between two fixes the script is the blocks as far as they are done, with the notes so far.
  induction order generalizing done with
  | nil => rw [List.append_nil]; rfl
  | cons strategy order ih =>
    rw [List.append_cons] at hnodup
    have hdone : strategy ∉ done := by
      have hfront := hnodup.of_append_left
      rw [List.nodup_append] at hfront
      exact fun hmem => hfront.2.2 strategy hmem strategy (List.mem_singleton_self _) rfl
    obtain ⟨hmem, hrest⟩ := List.forall_mem_cons.mp horder
    have hstep := fixOrKeep_scriptAfter hblocks hmem hdone
    have hlater := ih hrest hnodup
    rw [List.append_cons, ← hlater, ← hstep]
    rfl

/-- Equal but for the order of the notes at the end. -/
def SameButNotes (text other : List Char) : Prop :=
  ∃ script strategies order, List.Perm order strategies ∧ text = script ++ notesFor strategies ∧
    other = script ++ notesFor order

theorem SameButNotes.length_eq {text other : List Char} (h : SameButNotes text other) :
    text.length = other.length := by
  obtain ⟨script, strategies, order, hperm, rfl, rfl⟩ := h
  rw [List.length_append, List.length_append]
  exact congrArg (script.length + ·) (hperm.flatMap_right _).length_eq.symm

/-- In a script of independent blocks the order of the fixes makes no difference but for the order
of the notes. -/
theorem fixAll_sameButNotes (hblocks : Independent strategies blocks) (hnodup : strategies.Nodup)
    {order : List FixStrategy} (hperm : order.Perm strategies) :
    SameButNotes (fixAll strategies (scriptOf blocks)) (fixAll order (scriptOf blocks)) := by
  have hnodups : ([] ++ strategies).Nodup ∧ ([] ++ order).Nodup :=
    ⟨hnodup, hperm.nodup_iff.mpr hnodup⟩
  have hrun := fixAll_scriptAfter hblocks strategies (fun _ h => h) hnodups.1
  have hother := fixAll_scriptAfter hblocks order (fun _ h => hperm.subset h) hnodups.2
  rw [scriptAfter_nil, List.nil_append] at hrun hother
  refine ⟨stack (blocks.map (Block.after strategies)), strategies.filter (needsNote _),
    order.filter (needsNote _), hperm.filter _, hrun, ?_⟩
  rw [hother, scriptAfter]
  congr 2
  refine List.map_congr_left fun block _ => ?_
  simp only [Block.after, hperm.mem_iff]

end EditorLink.Migration
