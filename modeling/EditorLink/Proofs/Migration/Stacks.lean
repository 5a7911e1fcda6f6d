import EditorLink.Proofs.Migration.LinesAbove
import EditorLink.Proofs.Migration.Repeated

/-!
# Stacks of texts

A strategy edits texts that stand one below the other each by itself, if before each pass none of
them leaves a form unfinished or begins with the rest of one. What stands above a text matters only
for the nodes of the assignments that are moved in it.
-/

namespace EditorLink.Migration

variable {strategy : FixStrategy} {text needle below : List Char}
  {texts : List (List Char)}

/-! ## Stacks -/

/-- Texts, one below the other. -/
def stack : List (List Char) → List Char
  | [] => []
  | [text] => text
  | text :: next :: texts => text ++ '\n' :: stack (next :: texts)

theorem stack_cons_cons (text next : List Char) (texts : List (List Char)) :
    stack (text :: next :: texts) = atop (stack (next :: texts)) text :=
  rfl

theorem stack_append_singleton (hne : texts ≠ []) (below : List Char) :
    stack (texts ++ [below]) = stack texts ++ '\n' :: below := by
  induction texts with
  | nil => exact absurd rfl hne
  | cons text texts ih =>
    cases texts with
    | nil => rfl
    | cons next texts =>
      have hrest := ih (List.cons_ne_nil _ _)
      rw [List.cons_append] at hrest ⊢
      simp [stack, hrest]

theorem startsAnew_atop (h : startsAnew text) (hbelow : startsAnew below) :
    startsAnew (atop below text) := by
  unfold startsAnew at h ⊢
  by_cases hblank : skipBlanks text = []
  · rwa [skipBlanks_over_of_blank hblank]
  · rw [skipBlanks_atop hblank, atop, List.head?_append_of_ne_nil _ hblank]
    exact h

theorem startsAnew_stack {texts : List (List Char)} (h : ∀ text ∈ texts, startsAnew text) :
    startsAnew (stack texts) := by
  induction texts with
  | nil => rfl
  | cons text texts ih =>
    obtain ⟨htext, htexts⟩ := List.forall_mem_cons.mp h
    cases texts with
    | nil => exact htext
    | cons next texts => exact startsAnew_atop htext (ih htexts)

/-! ## Passes through stacks -/

/-- A text and what stands below it are rewritten one after the other. -/
theorem Pattern.replaceFrom_atop {pass : Pattern (List Char)} (hpass : pass.Consumes)
    (hkept : pass.KeptIn text below) (behind : List Char) :
    pass.replaceFrom 0 behind (atop below text) =
      atop (pass.replaceFrom 0 ('\n' :: (text.reverse ++ behind)) below)
        (pass.replaceFrom 0 behind text) := by
  have hnone : pass (text.reverse ++ behind) ('\n' :: below) = none := by
    have hend := hkept (text.reverse ++ behind) [] List.nil_suffix
    rwa [hpass.nil, Option.map_none] at hend
  have htext := rewritten_replaceFrom hpass behind text
  have hbelow := rewritten_replaceFrom hpass ('\n' :: (text.reverse ++ behind)) below
  refine (htext.append (.copied hnone hbelow) fun front rest heq hne => ?_).replaceFrom_eq
  exact hkept _ rest (heq ▸ List.suffix_append front rest)

/-- Each of some texts edited in its place below some others. -/
def eachBelow (edit : List Char → List Char → List Char) :
    List (List Char) → List (List Char) → List (List Char)
  | _, [] => []
  | above, text :: texts =>
    edit (textAbove above).reverse text :: eachBelow edit (above ++ [text]) texts

theorem Pattern.replaceFrom_stack {pass : Pattern (List Char)} (hpass : pass.Consumes)
    (hkept : ∀ text ∈ texts.dropLast, ∀ below, startsAnew below → pass.KeptIn text below)
    (hanew : ∀ text ∈ texts, startsAnew text) (above : List (List Char)) :
    pass.replaceFrom 0 (textAbove above).reverse (stack texts) =
      stack (eachBelow (pass.replaceFrom 0) above texts) := by
  induction texts generalizing above with
  | nil => rfl
  | cons text texts ih =>
    cases texts with
    | nil => rfl
    | cons next texts =>
      obtain ⟨hfirst, hrest⟩ := List.forall_mem_cons.mp hkept
      obtain ⟨-, hanewRest⟩ := List.forall_mem_cons.mp hanew
      have hbehind : '\n' :: (text.reverse ++ (textAbove above).reverse) =
          (textAbove (above ++ [text])).reverse := by
        simp [textAbove]
      rw [stack_cons_cons, replaceFrom_atop hpass (hfirst _ (startsAnew_stack hanewRest)),
        hbehind, ih hrest hanewRest]
      rfl

theorem eachBelow_of_blind {edit : List Char → List Char → List Char}
    (h : ∀ behind text, atLineStart behind → edit behind text = edit [] text)
    (above texts : List (List Char)) : eachBelow edit above texts = texts.map (edit []) := by
  induction texts generalizing above with
  | nil => rfl
  | cons text texts ih =>
    rw [eachBelow, ih, h _ _ (atLineStart_textAbove above), List.map_cons]

theorem eachBelow_append_singleton (edit : List Char → List Char → List Char)
    (above texts : List (List Char)) (text : List Char) :
    eachBelow edit above (texts ++ [text]) =
      eachBelow edit above texts ++ [edit (textAbove (above ++ texts)).reverse text] := by
  induction texts generalizing above with
  | nil => rw [List.append_nil]; rfl
  | cons other texts ih =>
    rw [List.cons_append, eachBelow, ih, eachBelow, List.append_assoc above]
    rfl

namespace FixStrategy

/-- The text as each of some passes finds it. -/
def stagesOf : List (Pattern (List Char)) → List Char → List (List Char)
  | [], _ => []
  | pass :: passes, text => text :: stagesOf passes (pass.replaceAll text)

/-- The text as each pass of the strategy finds it. -/
def stages (strategy : FixStrategy) (text : List Char) : List (List Char) :=
  stagesOf strategy.passes text

/-- Before each pass of the strategy the text can be told from what stands around it. -/
structure SetsOff (strategy : FixStrategy) (text : List Char) : Prop where
  anew : ∀ stage ∈ strategy.stages text, startsAnew stage
  finished : ∀ stage ∈ strategy.stages text, strategy.finishes stage

theorem applyPasses_stack {passes : List (Pattern (List Char))}
    (hpasses : ∀ pass ∈ passes, pass ∈ strategy.passes)
    (hmoves : ∀ property, strategy ≠ .material property)
    (hanew : ∀ text ∈ texts, ∀ stage ∈ stagesOf passes text, startsAnew stage)
    (hfinishes : ∀ text ∈ texts.dropLast, ∀ stage ∈ stagesOf passes text,
      strategy.finishes stage) :
    Pattern.applyPasses passes (stack texts) = stack (texts.map (Pattern.applyPasses passes)) := by
  induction passes generalizing texts with
  | nil => exact (congrArg stack (List.map_id texts)).symm
  | cons pass passes ih =>
    obtain ⟨hpass, hlater⟩ := List.forall_mem_cons.mp hpasses
    have hall : pass.replaceAll (stack texts) = stack (texts.map pass.replaceAll) := by
      have hkept : ∀ text ∈ texts.dropLast, ∀ below, startsAnew below → pass.KeptIn text below :=
        fun text htext below hbelow =>
          keptIn_of_mem hpass hbelow (hfinishes text htext _ (.head _))
      have hstack := Pattern.replaceFrom_stack (consumes_of_mem hpass) hkept
        (fun text htext => hanew text htext _ (.head _)) []
      rwa [eachBelow_of_blind fun _ text hbehind =>
        replaceFrom_of_atLineStart hpass hmoves hbehind text] at hstack
    -- The pass leaves the line breaks between the texts, so the next one finds a stack again.
    rw [Pattern.applyPasses_cons, hall, ih hlater, List.map_map]
    · rfl
    · rw [List.forall_mem_map]
      exact fun text htext stage hstage => hanew text htext stage (.tail _ hstage)
    · rw [← List.map_dropLast, List.forall_mem_map]
      exact fun text htext stage hstage => hfinishes text htext stage (.tail _ hstage)

/-- Texts that can be told apart before each pass are edited each in its place. -/
theorem edit_stack (hanew : ∀ text ∈ texts, ∀ stage ∈ strategy.stages text, startsAnew stage)
    (hfinishes : ∀ text ∈ texts.dropLast, ∀ stage ∈ strategy.stages text,
      strategy.finishes stage) :
    strategy.edit (stack texts) = stack (eachBelow strategy.editFrom [] texts) := by
  -- The one pass that moves assignments looks at the lines above; no other pass looks above a line.
  by_cases hmoves : ∃ property, strategy = .material property
  · obtain ⟨property, rfl⟩ := hmoves
    have hpass : materialStatement property ∈ (material property).passes := .head _
    exact Pattern.replaceFrom_stack (consumes_of_mem hpass)
      (fun text htext below hbelow =>
        keptIn_of_mem hpass hbelow (hfinishes text htext _ (.head _)))
      (fun text htext => hanew text htext _ (.head _)) []
  · have hblind := not_exists.mp hmoves
    rw [eachBelow_of_blind fun _ text hbehind => editFrom_of_atLineStart hblind hbehind text]
    exact applyPasses_stack (fun _ hpass => hpass) hblind hanew hfinishes

/-- A text that the strategy leaves as it is comes to every pass as it is. -/
theorem eq_of_mem_stages {stage : List Char} (h : strategy.edit text = text)
    (hstage : stage ∈ strategy.stages text) : stage = text := by
  have hnone : ¬ strategy.AppliesTo text := fun happlies =>
    not_prefix_edit happlies (by rw [h])
  rw [← exists_pass_iff] at hnone
  have hself : ∀ pass ∈ strategy.passes, pass.replaceAll text = text := fun pass hpass =>
    Pattern.replaceAll_eq_self (eq_false_of_ne_true fun hoccurs => hnone ⟨pass, hpass, hoccurs⟩)
  have hstages : ∀ passes : List (Pattern (List Char)),
      (∀ pass ∈ passes, pass.replaceAll text = text) → ∀ stage ∈ stagesOf passes text,
        stage = text := by
    intro passes hpasses
    induction passes with
    | nil => exact List.forall_mem_nil _
    | cons pass passes ih =>
      obtain ⟨hpass, hlater⟩ := List.forall_mem_cons.mp hpasses
      rw [stagesOf, hpass]
      exact List.forall_mem_cons.mpr ⟨rfl, ih hlater⟩
  exact hstages strategy.passes hself stage hstage

theorem self_mem_stages (strategy : FixStrategy) (text : List Char) :
    text ∈ strategy.stages text := by
  cases strategy <;> exact .head _

end FixStrategy

/-! ## Texts within stacks -/

/-- A text without a line break lies above a line break or below it. -/
theorem infix_append_break (hneedle : '\n' ∉ needle) :
    needle <:+: text ++ '\n' :: below ↔ needle <:+: text ∨ needle <:+: below := by
  have hempty : ∀ cs ⊆ needle, cs <+: '\n' :: below → cs = [] := by
    intro cs hcs h
    rcases List.prefix_cons_iff.mp h with hnil | ⟨rest, rfl, -⟩
    · exact hnil
    · exact absurd (hcs (.head _)) hneedle
  rw [List.infix_append_iff, List.infix_cons_iff]
  constructor
  · rintro (htext | (hfront | hbelow) | ⟨front, back, rfl, hfront, hback⟩)
    · exact .inl htext
    · rw [hempty needle (List.Subset.refl _) hfront]
      exact .inl List.nil_infix
    · exact .inr hbelow
    · rw [hempty back (List.subset_append_right _ _) hback, List.append_nil]
      exact .inl hfront.isInfix
  · rintro (htext | hbelow)
    · exact .inl htext
    · exact .inr (.inl (.inr hbelow))

theorem infix_stack (hneedle : '\n' ∉ needle) (hne : needle ≠ []) :
    needle <:+: stack texts ↔ ∃ text ∈ texts, needle <:+: text := by
  induction texts with
  | nil => simp [stack, hne]
  | cons text texts ih =>
    cases texts with
    | nil => simp [stack]
    | cons next texts =>
      rw [stack, infix_append_break hneedle, ih]
      simp only [List.exists_mem_cons_iff]

/-- One of some texts stands in their stack where no word goes on at either end. -/
theorem exists_stack_eq (h : text ∈ texts) :
    ∃ front back, stack texts = front ++ text ++ back ∧ WordStart front ∧
      Leaves Text.isWord back := by
  induction texts with
  | nil => cases h
  | cons other texts ih =>
    cases texts with
    | nil =>
      obtain rfl := List.mem_singleton.mp h
      exact ⟨[], [], (List.append_nil _).symm, wordStart_nil, nofun⟩
    | cons next texts =>
      rcases List.mem_cons.mp h with rfl | hmem
      · exact ⟨[], '\n' :: stack (next :: texts), rfl, wordStart_nil, leaves_cons (by decide) _⟩
      · obtain ⟨front, back, heq, hstart, hback⟩ := ih hmem
        refine ⟨(other ++ ['\n']) ++ front, back, by simp [stack, heq], ?_, hback⟩
        exact (wordStart_append_singleton other (by decide)).append hstart

/-! ## Strategies within texts -/

namespace FixStrategy

/-- What a strategy applies to it applies to within a text, where no word goes on at either end. -/
theorem AppliesTo.frame {front back : List Char} (h : strategy.AppliesTo text)
    (hfront : WordStart front) (hback : Leaves Text.isWord back) :
    strategy.AppliesTo (front ++ text ++ back) := by
  cases strategy with
  | hasProperty =>
    obtain ⟨before, receiver, call, property, argument, after, hcall, hargument, rfl⟩ := h
    exact ⟨front ++ before, receiver, call, property, argument, after ++ back, hcall, hargument,
      by simp⟩
  | setLooped =>
    obtain ⟨before, receiver, call, after, hcall, hparen, rfl⟩ := h
    exact ⟨front ++ before, receiver, call, after ++ back, hcall, List.mem_append_left _ hparen,
      by simp⟩
  | colorAtOffset =>
    obtain ⟨before, receiver, call, after, hcall, hparen, rfl⟩ := h
    exact ⟨front ++ before, receiver, call, after ++ back, hcall, List.mem_append_left _ hparen,
      by simp⟩
  | colorRect =>
    obtain ⟨before, piece, after, hpiece, rfl⟩ := h
    refine ⟨front ++ before, piece, after ++ back, ?_, by simp⟩
    refine hpiece.imp (And.imp_right fun hend => ?_) (And.imp_left hfront.append)
    cases after with
    | nil => exact hback
    | cons c after => exact hend
  | material property =>
    obtain ⟨before, target, ws, c, after, hstart, htarget, hws, hc, rfl⟩ := h
    exact ⟨front ++ before, target, ws, c, after ++ back, hfront.append hstart, htarget, hws, hc,
      by simp⟩

end FixStrategy

end EditorLink.Migration
