import EditorLink.Proofs.Migration.ReplacedCalls

/-!
# Moved assignments, taken back

An assignment to a material's property becomes one to a node, and the node and the value are pieces
of the old text. What a rule finds in a text with a moved assignment it also finds with the old
assignment in its place: in the text before, in the value, or in the text after, unless it is the
rule for the property itself.
-/

namespace EditorLink.Migration

variable {rule : Rule} {property : MaterialProperty}
  {front before back after text rest value replacement node ws ws₁ ws₂ target : List Char}

/-! ## Nodes -/

theorem trim_isInfix (text : List Char) : Text.trim text <:+: text := by
  obtain ⟨ws₁, ws₂, -, -, htext⟩ := exists_trim text
  exact ⟨ws₁, ws₂, htext.symm⟩

theorem infix_intercalate {sep line : List Char} {lines : List (List Char)} (h : line ∈ lines) :
    line <:+: sep.intercalate lines := by
  induction lines with
  | nil => cases h
  | cons first lines ih =>
    rcases eq_or_ne lines [] with rfl | hne
    · rw [List.mem_singleton.mp h, List.intercalate_singleton]
    · rw [List.intercalate_cons_of_ne_nil hne]
      rcases List.mem_cons.mp h with rfl | hmem
      · exact ⟨[], sep ++ sep.intercalate lines, by simp⟩
      · exact (ih hmem).trans (List.suffix_append _ _).isInfix

theorem infix_of_mem_linesAbove {count : Nat} {line : List Char}
    (h : line ∈ linesAbove count before) : line <:+: before.reverse := by
  have hline : line ∈ before.reverse.splitOn '\n' :=
    List.dropLast_subset _ (List.drop_subset _ _ h)
  have hlines : ['\n'].intercalate (before.reverse.splitOn '\n') = before.reverse :=
    List.intercalate_splitOn _
  exact hlines ▸ infix_intercalate hline

theorem searchFrom_eq_some {α : Type} {pattern : Pattern α} {captured : α}
    (h : pattern.searchFrom before text = some captured) :
    ∃ other piece rest, piece <:+ text ∧ pattern other piece = some (captured, rest) := by
  induction text generalizing before with
  | nil => cases h
  | cons c text ih =>
    rw [Pattern.searchFrom] at h
    split at h
    · next captured' rest hmatch =>
      cases h
      exact ⟨before, c :: text, rest, List.suffix_refl _, hmatch⟩
    · obtain ⟨other, piece, rest, hpiece, hmatch⟩ := ih h
      exact ⟨other, piece, rest, hpiece.trans (List.suffix_cons c text), hmatch⟩

theorem literalAnyCase?_suffix {letters : List Char} (h : literalAnyCase? letters rest = some after) :
    after <:+ rest := by
  induction letters generalizing rest with
  | nil =>
    cases h
    exact List.suffix_refl _
  | cons letter letters ih =>
    cases rest with
    | nil => cases h
    | cons c rest =>
      rw [literalAnyCase?] at h
      split at h
      · exact (ih h).trans (List.suffix_cons c rest)
      · cases h

/-- A declaration gives a word of the text. -/
theorem particlesDeclaration_spec {name : List Char}
    (h : particlesDeclaration before rest = some (name, after)) :
    name ≠ [] ∧ (∀ c ∈ name, Text.isWord c) ∧ name <:+: rest := by
  simp only [particlesDeclaration, Option.bind_eq_bind, Option.bind_eq_some_iff, Prod.exists,
    someBlanks?_eq_some_iff, word?_eq_some_iff, Option.pure_def, Option.some_inj,
    Prod.mk.injEq] at h
  obtain ⟨others, hvar, _, ⟨ws, -, -, rfl, -⟩, name, _, ⟨rfl, hne, hword, -⟩, -, -, -, -, -, -, rfl,
    -⟩ := h
  refine ⟨hne, hword, List.IsInfix.trans ?_ (literalAnyCase?_suffix hvar).isInfix⟩
  exact ⟨ws, _, List.append_assoc _ _ _⟩

/-- The node that an assignment without an owner belongs to is a word of the text before, or the
word `particles`. -/
theorem particlesAbove_spec (before : List Char) :
    particlesAbove before ≠ [] ∧ (∀ c ∈ particlesAbove before, Text.isWord c) ∧
      (particlesAbove before <:+: before.reverse ∨ particlesAbove before = "particles".toList) := by
  unfold particlesAbove
  cases hfound : (linesAbove 10 before).findSome? fun line =>
      particlesDeclaration.search? (Text.trim line) with
  | none =>
    rw [Option.getD_none]
    exact ⟨by decide, by decide, .inr rfl⟩
  | some name =>
    obtain ⟨line, hline, hsearch⟩ := List.exists_of_findSome?_eq_some hfound
    obtain ⟨other, piece, rest, hpiece, hmatch⟩ := searchFrom_eq_some hsearch
    obtain ⟨hne, hword, hname⟩ := particlesDeclaration_spec hmatch
    rw [Option.getD_some]
    refine ⟨hne, hword, .inl ?_⟩
    exact ((hname.trans hpiece.isInfix).trans (trim_isInfix line)).trans (infix_of_mem_linesAbove hline)

/-! ## The new assignment -/

def assignSign : List Char := " = ".toList

/-- The comment behind the new assignment, up to the point before the old name. -/
def movedFrom : List Char := " fixed: moved from material".toList

def movedTo : List Char := " to ".toList

theorem movedAssignment_eq (property : MaterialProperty) (node value : List Char) :
    movedAssignment property node value =
      node ++ '.' :: (property.nodeName.toList ++ assignSign ++ (value ++ ([' ', ' '] ++
        '#' :: (movedFrom ++ '.' :: (property.name.toList ++ movedTo ++
          (node ++ '.' :: property.nodeName.toList)))))) := by
  have hnote : "  # fixed: moved from material.".toList =
      [' ', ' '] ++ '#' :: (movedFrom ++ ['.']) := by
    decide
  rw [movedAssignment, hnote]
  simp [assignSign, movedTo]

theorem nodeName_apart (property : MaterialProperty) : ∀ rule ∈ Rule.all,
    Form.apart rule.leads (property.nodeName.toList ++ assignSign) ∧
      Form.apart rule.leads property.nodeName.toList ∧
      Form.apart rule.leads (property.name.toList ++ movedTo) := by
  cases property <;> decide

theorem isWord_of_mem_nodeName (property : MaterialProperty) :
    property.nodeName.toList ≠ [] ∧ ∀ c ∈ property.nodeName.toList, Text.isWord c := by
  cases property <;> decide

/-- The name behind the point is a word that only the rule for the property looks for. -/
theorem eq_material_of_follows {name : String} {close : Char} (hmember : rule.member? = some (name, close))
    (hback : Leaves Text.isWord back)
    (hfollows : Rule.Follows name close (property.nodeName.toList ++ back)) :
    rule = .material property := by
  obtain ⟨hne, hword⟩ := isWord_of_mem_nodeName property
  obtain ⟨hname, -⟩ := Rule.name_eq_of_follows hmember hword hne hback hfollows
  have hall : ∀ property ∈ MaterialProperty.all, ∀ rule ∈ Rule.all,
      rule.member?.map Prod.fst = some property.nodeName → rule = .material property := by
    decide
  refine hall property (by cases property <;> decide) rule (Rule.mem_all rule) ?_
  simp [hmember, String.toList_inj.mp hname]

/-- Behind the old name stands a word, so no rule finds the old name there. -/
theorem not_follows_movedTo {name : String} {close : Char}
    (hmember : rule.member? = some (name, close)) :
    ¬ Rule.Follows name close (property.name.toList ++ movedTo ++ back) := by
  intro hfollows
  have hname : property.name.toList ≠ [] := by cases property <;> decide
  rw [List.append_assoc] at hfollows
  obtain ⟨-, hclose⟩ := Rule.name_eq_of_follows hmember (fun c hc => Rule.isWord_of_mem_name hc) hname
    (leaves_cons (by decide) _) hfollows
  have hall : ∀ rule ∈ Rule.all, rule.member?.map Prod.snd ≠ some 't' := by decide
  refine hall rule (Rule.mem_all rule) ?_
  rw [hmember, Option.map_some, ← hclose]
  rfl

/-- What a rule finds in a new assignment and in the comment behind it. -/
theorem occursIn_moved (hrule : rule ≠ .shaderParameter) (hback : Leaves Text.isWord back)
    (h : rule.form.OccursIn (front ++ movedAssignment property node value ++ back)) :
    rule = .material property ∨ rule.form.OccursIn (front ++ node) ∨ rule.form.OccursIn node ∨
      rule.form.OccursIn value ∨ rule.form.OccursIn back := by
  have hapart := nodeName_apart property
  have hnumber : rule.form.Lacks '#' := Rule.lacks hrule (by decide) (by decide) (by decide)
  have hparts : rule.form.OccursIn
      ((front ++ node ++ '.' :: (property.nodeName.toList ++ assignSign ++ (value ++ [' ', ' ']))) ++
        '#' :: (movedFrom ++ '.' :: (property.name.toList ++ movedTo ++
          (node ++ '.' :: (property.nodeName.toList ++ back))))) := by
    rw [movedAssignment_eq] at h
    simpa using h
  rcases hparts.of_append_cons hnumber with hnew | hcomment
  · rcases Rule.occursIn_of_point hrule hnew with hnode | hvalue | ⟨name, close, hmember, hfollows⟩
    · exact .inr (.inl hnode)
    · replace hvalue := Rule.occursIn_of_apart (fun rule hmem => (hapart rule hmem).1) hvalue
      have hclosers : ∀ rule ∈ Rule.all, ∀ closer ∈ rule.closers, closer ∉ [' ', ' '] := by decide
      exact .inr (.inr (.inr (.inl
        (hvalue.of_append_of_endsWith rule.endsWith (hclosers rule (Rule.mem_all rule))))))
    · rw [List.append_assoc] at hfollows
      exact .inl (eq_material_of_follows hmember (leaves_cons (by decide) _) hfollows)
  rcases Rule.occursIn_of_point hrule hcomment with hfrom | hto | ⟨name, close, hmember, hfollows⟩
  · have hpoint : '.' ∉ movedFrom := by decide
    obtain rfl := Rule.eq_colorRect_of_no_point hrule hpoint hfrom
    have hname : Form.apart Rule.colorRect.leads movedFrom := by decide
    rw [← List.append_nil movedFrom] at hfrom
    exact absurd (hfrom.of_append_of_apart (Rule.beginsWith _) hname) Rule.not_occursIn_nil
  · replace hto := Rule.occursIn_of_apart (fun rule hmem => (hapart rule hmem).2.2) hto
    rcases Rule.occursIn_of_point hrule hto with hnode | hname | ⟨name, close, hmember, hfollows⟩
    · exact .inr (.inr (.inl hnode))
    · exact .inr (.inr (.inr (.inr
        (Rule.occursIn_of_apart (fun rule hmem => (hapart rule hmem).2.1) hname))))
    · exact .inl (eq_material_of_follows hmember hback hfollows)
  · exact absurd hfollows (not_follows_movedTo hmember)

/-! ## Arithmetic on shader parameters around it -/

/-- What follows the value in a new assignment. -/
def movedNote (property : MaterialProperty) (node : List Char) : List Char :=
  ' ' :: ' ' :: '#' :: (movedFrom ++ '.' :: (property.name.toList ++ movedTo ++
    (node ++ '.' :: property.nodeName.toList)))

theorem signed_movedNote : ¬ Signed (movedNote property node ++ back) := by
  have hblanks : ∀ c ∈ [' ', ' '], Text.isBlank c := by decide
  have hcomment : movedNote property node = [' ', ' '] ++ '#' :: (movedFrom ++
    '.' :: (property.name.toList ++ movedTo ++ (node ++ '.' :: property.nodeName.toList))) := rfl
  rw [hcomment, List.append_assoc, signed_append_of_blanks hblanks, List.cons_append,
    signed_cons (by decide)]
  decide

theorem closed_movedNote (hnode : ∀ c ∈ node, Text.isWord c) :
    Closed (movedNote property node ++ back) ↔ Closed back := by
  have hparen : ')' ∉ node := not_mem_word hnode (by decide)
  have hnames : ')' ∉ property.name.toList ∧ ')' ∉ property.nodeName.toList := by
    cases property <;> decide
  have hwords : ')' ∉ movedFrom ∧ ')' ∉ movedTo := by decide
  exact closed_append (by simp [movedNote, hparen, hnames, hwords])

theorem shader_movedNote (hnode : ∀ c ∈ node, Text.isWord c)
    (h : Rule.shaderParameter.form.OccursIn (movedNote property node ++ back)) :
    Rule.shaderParameter.form.OccursIn back := by
  have hapart := nodeName_apart property .shaderParameter (by decide)
  have hfrom : Form.apart Rule.shaderParameter.leads (' ' :: ' ' :: '#' :: (movedFrom ++ ['.'])) := by
    decide
  have hpoint : Form.apart Rule.shaderParameter.leads ['.'] := by decide
  have hbegins := Rule.shaderParameter.beginsWith
  have hparts : Rule.shaderParameter.form.OccursIn ((' ' :: ' ' :: '#' :: (movedFrom ++ ['.'])) ++
      (property.name.toList ++ movedTo ++ (node ++
        (['.'] ++ (property.nodeName.toList ++ back))))) := by
    simpa [movedNote] using h
  have hnamed := (hparts.of_append_of_apart hbegins hfrom).of_append_of_apart hbegins hapart.2.2
  have hpointed := shader_of_append (not_mem_word hnode (by decide))
    (not_across_of_head (by decide) rfl) hnamed
  exact (hpointed.of_append_of_apart hbegins hpoint).of_append_of_apart hbegins hapart.2.1

/-- Behind the value a call of `get_shader_parameter` finds what it found behind the old value. -/
theorem closed_of_moved (hnode : ∀ c ∈ node, Text.isWord c) (hws : Blanks ws)
    (h : Closed (value ++ (movedNote property node ++ back))) :
    Closed (value ++ (ws ++ back)) := by
  refine closed_append_of_closed signed_movedNote (fun hclosed => ?_) h
  rw [closed_movedNote hnode] at hclosed
  exact (closed_append fun hmem => absurd (hws _ hmem) (by decide)).mpr hclosed

theorem shader_of_moved (hnode : ∀ c ∈ node, Text.isWord c) (hws : Blanks ws)
    (hback : ∀ c ∈ back.head?, endsValue c)
    (h : Rule.shaderParameter.form.OccursIn (value ++ (movedNote property node ++ back))) :
    Rule.shaderParameter.form.OccursIn (value ++ (ws ++ back)) := by
  have hblank : ')' ∉ ws := fun hmem => absurd (hws _ hmem) (by decide)
  refine shader_exchange ?_ ?_ signed_movedNote ?_ ?_ h
  · exact not_across_of_head (by decide) rfl
  · cases ws with
    | nil => exact fun hhead => absurd (hback ')' hhead) (by decide)
    | cons c ws =>
      rintro ⟨⟩
      simp at hblank
  · intro hclosed
    rw [closed_movedNote hnode] at hclosed
    exact (closed_append hblank).mpr hclosed
  · exact fun hinside => (shader_movedNote hnode hinside).append_left ws nofun

/-- The start of the assignment, which is the node or only the point behind it, for the old start. -/
theorem shader_moved (lead : List Char) {old : List Char}
    (hacross : ∀ text, ¬ Across front (lead ++ '.' :: text))
    (hlead : ∀ c ∈ lead, Text.isWord c) (hnode : ∀ c ∈ node, Text.isWord c) (hne : old ≠ [])
    (hold : ')' ∉ old) (hws : Blanks ws) (hback : ∀ c ∈ back.head?, endsValue c)
    (h : Rule.shaderParameter.form.OccursIn (front ++ (lead ++ '.' ::
      (property.nodeName.toList ++ assignSign ++ (value ++ (movedNote property node ++ back)))))) :
    Rule.shaderParameter.form.OccursIn (front ++ (old ++ (value ++ (ws ++ back)))) := by
  have hapart := nodeName_apart property .shaderParameter (by decide)
  refine shader_exchange (hacross _) ?_ ?_ ?_ ?_ h
  · obtain ⟨c, old, rfl⟩ := List.exists_cons_of_ne_nil hne
    rintro ⟨⟩
    simp at hold
  · cases lead with
    | nil =>
      rw [List.nil_append, signed_cons (by decide)]
      decide
    | cons c lead => exact not_signed_of_isWord (hlead c List.mem_cons_self)
  · intro hclosed
    have hparen : ')' ∉ lead ++ '.' :: (property.nodeName.toList ++ assignSign) := by
      have hname : ')' ∉ property.nodeName.toList :=
        not_mem_word (isWord_of_mem_nodeName property).2 (by decide)
      have hsign : ')' ∉ assignSign := by decide
      have hword : ')' ∉ lead := not_mem_word hlead (by decide)
      simp [hword, hname, hsign]
    rw [← List.cons_append, ← List.append_assoc, closed_append hparen] at hclosed
    exact (closed_append hold).mpr (closed_of_moved hnode hws hclosed)
  · intro hinside
    have hbegins := Rule.shaderParameter.beginsWith
    have hpoint : Form.apart Rule.shaderParameter.leads ['.'] := by decide
    have hpointed : Rule.shaderParameter.form.OccursIn (['.'] ++
        (property.nodeName.toList ++ assignSign ++
          (value ++ (movedNote property node ++ back)))) :=
      shader_of_append (not_mem_word hlead (by decide)) (not_across_of_head (by decide) rfl) hinside
    have hvalue := (hpointed.of_append_of_apart hbegins hpoint).of_append_of_apart hbegins hapart.1
    exact (shader_of_moved hnode hws hback hvalue).append_left old nofun

/-! ## Taking an assignment back -/

theorem wordStart_of_blanks (h : Blanks ws) : WordStart ws := by
  intro c hc
  exact Text.isWord_of_isBlank (h c (List.mem_of_getLast? hc))

theorem leaves_isWord_of_endsValue (h : ∀ c ∈ back.head?, endsValue c) :
    Leaves Text.isWord back := by
  intro c hc
  have hends := h c hc
  simp only [endsValue, Bool.or_eq_true, beq_iff_eq] at hends
  rcases hends with rfl | rfl <;> decide

theorem IsTarget.not_mem_paren (h : IsTarget property target) : ')' ∉ target :=
  Rule.lacks (nofun : Rule.material property ≠ .shaderParameter) (by decide) (by decide)
    (by decide) target h

theorem IsTarget.wordStart (h : IsTarget property target) (front : List Char) :
    WordStart (front ++ target) := by
  obtain ⟨lead, ws₁, ws₂, ws₃, -, -, -, -, rfl⟩ := h
  rw [← List.append_assoc]
  exact wordStart_append_singleton _ (by decide)

/-- The old assignment holds its property, its value and what follows it. -/
theorem occursIn_assignment (hstart : WordStart front) (htarget : IsTarget property target)
    (hback : ∀ c ∈ back.head?, endsValue c)
    (h : rule = .material property ∨ rule.form.OccursIn (Text.trim value) ∨
      rule.form.OccursIn back) :
    rule.form.OccursIn (front ++ target ++ value ++ back) := by
  rcases h with rfl | hvalue | hrest
  · exact ⟨front, target, value ++ back, fun _ => hstart, htarget, by simp⟩
  · obtain ⟨ws₁, ws₂, hws₁, -, hvalueEq⟩ := exists_trim value
    have hwords : WordStart (front ++ target ++ ws₁) :=
      (htarget.wordStart front).append (wordStart_of_blanks hws₁)
    have hoccurs := (hvalue.append_left _ fun _ => hwords).append_right (ws₂ ++ back)
    rw [hvalueEq]
    simpa using hoccurs
  · exact Rule.occursIn_append_left hrest (.inr (leaves_isWord_of_endsValue hback))

theorem movedAssignment_append (property : MaterialProperty) (node value back : List Char) :
    movedAssignment property node value ++ back =
      node ++ '.' :: (property.nodeName.toList ++ assignSign ++
        (value ++ (movedNote property node ++ back))) := by
  rw [movedAssignment_eq, movedNote]
  simp

/-- An assignment that was moved to the owner of its material. -/
theorem occursIn_of_moved_owner (howner : ∀ c ∈ node, Text.isWord c)
    (htarget : IsTarget property target) (hback : ∀ c ∈ back.head?, endsValue c)
    (h : rule.form.OccursIn (front ++ movedAssignment property node (Text.trim value) ++ back)) :
    rule.form.OccursIn (front ++ (node ++ ".".toList ++ target ++ value) ++ back) := by
  have hstart : WordStart (front ++ node ++ ".".toList) := wordStart_append_point _
  by_cases hrule : rule = .shaderParameter
  · subst hrule
    obtain ⟨ws₁, ws₂, hws₁, hws₂, hvalueEq⟩ := exists_trim value
    have hold : ')' ∉ '.' :: (target ++ ws₁) := by
      have hblank : ')' ∉ ws₁ := fun hmem => absurd (hws₁ _ hmem) (by decide)
      simp [htarget.not_mem_paren, hblank]
    rw [List.append_assoc, movedAssignment_append, ← List.append_assoc] at h
    have hmoved := shader_moved [] (fun _ => not_across_of_head (by decide) rfl)
      (by simp) howner (by simp) hold hws₂ hback h
    rw [hvalueEq]
    simpa using hmoved
  rcases occursIn_moved hrule (leaves_isWord_of_endsValue hback) h with
    hown | hnode | hnode | hvalue | hrest
  · simpa using! occursIn_assignment hstart htarget hback (.inl hown)
  · simpa using hnode.append_right (".".toList ++ target ++ value ++ back)
  · have hpoint : '.' ∉ node := not_mem_word howner (by decide)
    obtain rfl := Rule.eq_colorRect_of_no_point hrule hpoint hnode
    have hoccurs := (hnode.append_left front nofun).append_right
      (".".toList ++ target ++ value ++ back)
    simpa using hoccurs
  · simpa using occursIn_assignment hstart htarget hback (.inr (.inl hvalue))
  · simpa using occursIn_assignment hstart htarget hback (.inr (.inr hrest))

/-- A word from the text before, put where a word starts, brings nothing to that text. -/
theorem occursIn_of_word (hrule : rule ≠ .shaderParameter) (hstart : WordStart front)
    (hword : ∀ c ∈ node, Text.isWord c)
    (hnode : node <:+: front ∨ node = "particles".toList)
    (h : rule.form.OccursIn (front ++ node) ∨ rule.form.OccursIn node) :
    rule.form.OccursIn front := by
  have hinside : rule.form.OccursIn node → rule.form.OccursIn front := by
    intro hoccurs
    have hpoint : '.' ∉ node := not_mem_word hword (by decide)
    obtain rfl := Rule.eq_colorRect_of_no_point hrule hpoint hoccurs
    rcases hnode with ⟨before, after, rfl⟩ | rfl
    · exact (hoccurs.append_left before nofun).append_right after
    · exact absurd hoccurs (Rule.not_occursIn_of_apart (by decide))
  rcases h with hcut | hoccurs
  · by_cases hcolor : rule = .colorRect
    · subst hcolor
      rcases hcut.cut with hfront | ⟨before, init, rest, after, hpiece, hinit, -, -, rfl, -⟩ | hoccurs
      · exact hfront
      · obtain ⟨start, last, rfl⟩ := List.eq_nil_or_concat init |>.resolve_left hinit
        have hlast : Text.isWord last := Rule.isWord_of_mem_colorRect hpiece (by simp)
        have hend := hstart last (by simp)
        simp [hlast] at hend
      · exact hinside hoccurs
    · exact Rule.occursIn_of_append_words hcolor (fun c hc => .inl (hword c hc)) hcut
  · exact hinside hoccurs

/-- An assignment that was moved to a node from the text before. -/
theorem occursIn_of_moved_node (hstart : WordStart front) (hword : ∀ c ∈ node, Text.isWord c)
    (hnode : node <:+: front ∨ node = "particles".toList) (htarget : IsTarget property target)
    (hback : ∀ c ∈ back.head?, endsValue c)
    (h : rule.form.OccursIn (front ++ movedAssignment property node (Text.trim value) ++ back)) :
    rule.form.OccursIn (front ++ (target ++ value) ++ back) := by
  by_cases hrule : rule = .shaderParameter
  · subst hrule
    obtain ⟨ws₁, ws₂, hws₁, hws₂, hvalueEq⟩ := exists_trim value
    have hne : target ++ ws₁ ≠ [] := by
      obtain ⟨lead, _, _, _, -, -, -, -, rfl⟩ := htarget
      simp
    have hold : ')' ∉ target ++ ws₁ := by
      have hblank : ')' ∉ ws₁ := fun hmem => absurd (hws₁ _ hmem) (by decide)
      simp [htarget.not_mem_paren, hblank]
    rw [List.append_assoc, movedAssignment_append] at h
    have hmoved := shader_moved node (fun _ => not_across_of_wordStart hstart) hword hword hne hold hws₂
      hback h
    rw [hvalueEq]
    simpa using hmoved
  rcases occursIn_moved hrule (leaves_isWord_of_endsValue hback) h with
    hown | hcut | hinside | hvalue | hrest
  · simpa using occursIn_assignment hstart htarget hback (.inl hown)
  · have hfront := occursIn_of_word hrule hstart hword hnode (.inl hcut)
    simpa using hfront.append_right (target ++ value ++ back)
  · have hfront := occursIn_of_word hrule hstart hword hnode (.inr hinside)
    simpa using hfront.append_right (target ++ value ++ back)
  · simpa using occursIn_assignment hstart htarget hback (.inr (.inl hvalue))
  · simpa using occursIn_assignment hstart htarget hback (.inr (.inr hrest))

end EditorLink.Migration
