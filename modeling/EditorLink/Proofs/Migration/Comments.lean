import EditorLink.Proofs.Migration.Leftovers
import EditorLink.Proofs.Migration.Receivers
import EditorLink.Proofs.Migration.Regressions

/-!
# Comments that fixes write

Some passes end a replacement with a comment, wherever the match ends. What stood behind the match
on its line then stands behind the number sign. `Carried` follows the number sign through the passes
after the one that writes it: a pass keeps it, or copies it with the quoted name that it stands in.
In the fixed script the comment is the rest of its line just when the match was.
-/

namespace EditorLink.Migration

def isLineEnd (c : Char) : Bool := c == '\n' || c == '\r'

/-- The text up to the end of the line. -/
def restOfLine (text : List Char) : List Char := text.takeWhile (!isLineEnd ·)

/-- The words that a strategy writes behind a number sign. -/
def FixStrategy.IsComment (words : List Char) : FixStrategy → Prop
  | .hasProperty => words = " fixed: has_property() replaced with get() + null check".toList
  | .setLooped => False
  | .colorAtOffset => words = " fixed: use the index of the gradient point".toList
  | .colorRect => words = " fixed: TextureRect handles gradients better".toList
  | .material property => ∃ node, (∀ c ∈ node, Text.isWord c) ∧
      words = " fixed: moved from material.".toList ++ property.name.toList ++ " to ".toList ++
        node ++ ".".toList ++ property.nodeName.toList

/-- A pass of the strategy that writes comments, with the passes before it and after it. -/
inductive FixStrategy.Comments : (strategy : FixStrategy) → (passes : List (Pattern (List Char))) →
    (pass : Pattern (List Char)) → (passes' : List (Pattern (List Char))) → Prop
  | header : Comments .hasProperty [] propertyCheckHeader [propertyCheckCall]
  | index : Comments .colorAtOffset [] colorAtOffsetCall []
  | className : Comments .colorRect [] (colorRectAfter "class_name")
      [colorRectAfter "extends", colorRectCall]
  | parentName : Comments .colorRect [colorRectAfter "class_name"] (colorRectAfter "extends")
      [colorRectCall]
  | assignment (property : MaterialProperty) :
      Comments (.material property) [] (materialStatement property) []

namespace Pattern

/-- The pass keeps the number sign between `left` and `right`, or it copies a stretch of a piece in
which the number sign stands. In the new text it stands between `left'` and `right'`. -/
def Carries (p : Pattern (List Char)) (left right left' right' : List Char) : Prop :=
  ∃ segments, p.Segments (left ++ '#' :: right) segments ∧
    ((∃ earlier later, segments = earlier ++ .kept '#' :: later ∧
        left = oldText earlier ∧ right = oldText later ∧
        left' = newText earlier ∧ right' = newText later) ∨
      ∃ earlier lead lead' init rest tail tail' later,
        segments = earlier ++ .replaced (lead ++ (init ++ '#' :: rest) ++ tail)
          (lead' ++ (init ++ '#' :: rest) ++ tail') :: later ∧
        left = oldText earlier ++ (lead ++ init) ∧ right = rest ++ tail ++ oldText later ∧
        left' = newText earlier ++ (lead' ++ init) ∧ right' = rest ++ tail' ++ newText later)

/-- The passes carry the number sign one after the other. -/
inductive Carried : (passes : List (Pattern (List Char))) → (left right left' right' : List Char) →
    Prop
  | done (left right : List Char) : Carried [] left right left right
  | pass {p : Pattern (List Char)} {passes : List (Pattern (List Char))}
      {left right left₁ right₁ left' right' : List Char} (hpass : p.Carries left right left₁ right₁)
      (hrest : Carried passes left₁ right₁ left' right') :
      Carried (p :: passes) left right left' right'

end Pattern

variable {text rest back words extra left right left' right' before replacement : List Char}
  {source fixed : List Char} {p : Pattern (List Char)} {segments earlier later : List Segment}
  {strategy : FixStrategy} {change : ApiChange} {c : Char}

/-! ## Rests of lines -/

theorem restOfLine_cons_eq_nil_iff : restOfLine (c :: text) = [] ↔ isLineEnd c := by
  simp [restOfLine, List.takeWhile_cons]

theorem restOfLine_append (h : ∀ c ∈ words, isLineEnd c = false) (rest : List Char) :
    restOfLine (words ++ rest) = words ++ restOfLine rest :=
  List.takeWhile_append_of_pos (by simpa using h)

theorem restOfLine_append_eq_iff (h : ∀ c ∈ words, isLineEnd c = false) :
    restOfLine (words ++ rest) = words ↔ restOfLine rest = [] := by
  rw [restOfLine_append h, List.append_right_eq_self]

/-- What begins with a line end adds nothing to a line. -/
theorem restOfLine_append_of_eq_nil (h : restOfLine extra = []) (text : List Char) :
    restOfLine (text ++ extra) = restOfLine text := by
  induction text with
  | nil => exact h
  | cons c text ih =>
    unfold restOfLine at ih ⊢
    rw [List.cons_append, List.takeWhile_cons, List.takeWhile_cons, ih]

theorem isLineEnd_of_isWord (h : Text.isWord c) : isLineEnd c = false := by
  refine eq_false_of_ne_true fun hend => ?_
  simp only [isLineEnd, Bool.or_eq_true, beq_iff_eq] at hend
  rcases hend with rfl | rfl <;> exact absurd h (by decide)

/-- Neither a match nor a replacement begins with a line end. -/
def Pattern.BeginsInLine (p : Pattern (List Char)) : Prop :=
  ∀ before text replacement rest, p before text = some (replacement, rest) →
    restOfLine text ≠ [] ∧ restOfLine replacement ≠ []

theorem restOfLine_append_ne_nil (h : restOfLine text ≠ []) (rest : List Char) :
    restOfLine (text ++ rest) ≠ [] := by
  cases text with
  | nil => exact absurd rfl h
  | cons c text =>
    rw [Ne, restOfLine_cons_eq_nil_iff] at h
    rwa [List.cons_append, Ne, restOfLine_cons_eq_nil_iff]

theorem restOfLine_word_ne_nil (hne : words ≠ []) (hwords : ∀ c ∈ words, Text.isWord c) :
    restOfLine words ≠ [] := by
  obtain ⟨c, words, rfl⟩ := List.exists_cons_of_ne_nil hne
  rw [Ne, restOfLine_cons_eq_nil_iff, isLineEnd_of_isWord (hwords c List.mem_cons_self)]
  exact Bool.false_ne_true

/-- A place is at the end of its line after a pass just when it was before. -/
theorem Pattern.Segments.restOfLine_iff (h : p.Segments text (earlier ++ later))
    (hp : p.BeginsInLine) :
    restOfLine (newText later) = [] ↔ restOfLine (oldText later) = [] := by
  cases later with
  | nil => rfl
  | cons segment later =>
    cases segment with
    | kept c =>
      show restOfLine (c :: newText later) = [] ↔ restOfLine (c :: oldText later) = []
      rw [restOfLine_cons_eq_nil_iff, restOfLine_cons_eq_nil_iff]
    | replaced piece replacement =>
      obtain ⟨-, hmatch⟩ := h.eq_some_of_replaced earlier piece replacement later rfl
      obtain ⟨hold, hnew⟩ := hp _ _ _ _ hmatch
      exact iff_of_false (restOfLine_append_ne_nil hnew _) hold

/-! ## Kept characters -/

/-- A number sign is kept by a pass that matches none. -/
theorem Pattern.exists_kept (hp : p.Consumes)
    (hlacks : ∀ before text replacement rest, p before text = some (replacement, rest) →
      ∃ piece, text = piece ++ rest ∧ '#' ∉ piece) (left right : List Char) :
    ∃ earlier later, p.Segments (left ++ '#' :: right) (earlier ++ .kept '#' :: later) ∧
      oldText earlier = left ∧ oldText later = right := by
  obtain ⟨segments, h⟩ := Pattern.exists_segments hp (left ++ '#' :: right)
  have hpiece : ∀ earlier piece replacement later,
      segments = earlier ++ .replaced piece replacement :: later → '#' ∉ piece := by
    intro earlier piece replacement later hsegments
    obtain ⟨-, hmatch⟩ := h.eq_some_of_replaced earlier piece replacement later hsegments
    obtain ⟨other, heq, hnot⟩ := hlacks _ _ _ _ hmatch
    rwa [List.append_cancel_right heq]
  rcases exists_place h.oldText_eq with ⟨earlier, later, rfl, rfl, hlater⟩ |
    ⟨earlier, replacement, init, tail, later, rfl, -, htail, rfl, heq⟩
  · cases later with
    | nil => cases hlater
    | cons segment later =>
      cases segment with
      | kept c =>
        obtain ⟨rfl, rfl⟩ := List.cons_eq_cons.mp hlater
        exact ⟨earlier, later, h, rfl, rfl⟩
      | replaced piece replacement =>
        obtain ⟨c, piece, rfl⟩ := List.exists_cons_of_ne_nil
          (h.eq_some_of_replaced earlier piece replacement later rfl).1
        obtain ⟨rfl, -⟩ := List.cons_eq_cons.mp hlater
        exact absurd List.mem_cons_self (hpiece earlier _ replacement later rfl)
  · obtain ⟨c, tail, rfl⟩ := List.exists_cons_of_ne_nil htail
    obtain ⟨rfl, -⟩ := List.cons_eq_cons.mp heq
    exact absurd (by simp) (hpiece earlier _ replacement later rfl)

/-- Words in which no match begins are kept. -/
theorem Pattern.Segments.kept_words (h : p.Segments text (earlier ++ later))
    (hold : oldText later = words ++ back)
    (hnone : ∀ init tail, words = init ++ tail → tail ≠ [] → ∀ before,
      p before (tail ++ back) = none) :
    ∃ others, later = words.map .kept ++ others ∧ oldText others = back := by
  rcases kept_or_replaced hold with hkept |
    ⟨init, tail, piece, replacement, right, hwords, hne, rfl, hpiece⟩
  · exact hkept
  · obtain ⟨-, hmatch⟩ := h.eq_some_of_replaced (earlier ++ init.map .kept) piece replacement right
      (by simp)
    rw [hpiece, hnone init tail hwords hne] at hmatch
    cases hmatch

/-- Words that the new text has too are kept, where each replacement begins with another character
than its match. -/
theorem Pattern.Segments.kept_of_newText (h : p.Segments text (earlier ++ later))
    (hfirst : ∀ before text replacement rest, p before text = some (replacement, rest) →
      replacement ≠ [] ∧ text.head? ≠ replacement.head?)
    (hold : oldText later = words ++ back) (hnew : newText later = words ++ rest) :
    ∃ others, later = words.map .kept ++ others ∧ oldText others = back ∧
      newText others = rest := by
  rcases kept_or_replaced hold with ⟨others, rfl, hback⟩ |
    ⟨init, tail, piece, replacement, right, rfl, hne, rfl, hpiece⟩
  · rw [newText_append, newText_kept] at hnew
    exact ⟨others, rfl, hback, List.append_cancel_left hnew⟩
  · obtain ⟨-, hmatch⟩ := h.eq_some_of_replaced (earlier ++ init.map .kept) piece replacement right
      (by simp)
    obtain ⟨hnonempty, hhead⟩ := hfirst _ _ _ _ hmatch
    have hrest : replacement ++ newText right = tail ++ rest := by
      rw [newText_append, newText_kept, List.append_assoc] at hnew
      exact List.append_cancel_left hnew
    rw [hpiece, List.head?_append_of_ne_nil _ hne,
      ← List.head?_append_of_ne_nil replacement hnonempty, hrest,
      List.head?_append_of_ne_nil _ hne] at hhead
    exact absurd rfl hhead

/-! ## Where matches and replacements begin -/

theorem IsReceiverCall.restOfLine_ne_nil {name : String} {receiver call : List Char}
    (h : IsReceiverCall name receiver call) : restOfLine receiver ≠ [] ∧ restOfLine call ≠ [] := by
  obtain ⟨ws, hne, hword, -, rfl⟩ := h
  have hreceiver := restOfLine_word_ne_nil hne hword
  refine ⟨hreceiver, ?_⟩
  simpa only [List.append_assoc] using restOfLine_append_ne_nil hreceiver _

theorem propertyCheckHeader_beginsInLine : propertyCheckHeader.BeginsInLine := by
  intro before text replacement rest h
  obtain ⟨indent, ws₁, receiver, call, property, argument, ws₂, hindent, -, -, -, -, rfl, rfl⟩ :=
    propertyCheckHeader_spec h
  have hbegins : ∀ others, restOfLine others ≠ [] → restOfLine (indent ++ others) ≠ [] := by
    intro others hothers
    cases indent with
    | nil => exact hothers
    | cons c indent =>
      have hc := hindent c List.mem_cons_self
      simp only [isIndent, Bool.or_eq_true, beq_iff_eq] at hc
      rw [List.cons_append, Ne, restOfLine_cons_eq_nil_iff]
      rcases hc with rfl | rfl <;> decide
  simp only [List.append_assoc]
  exact ⟨hbegins _ (restOfLine_append_ne_nil (by decide) _),
    hbegins _ (restOfLine_append_ne_nil (by decide) _)⟩

theorem propertyCheckCall_beginsInLine : propertyCheckCall.BeginsInLine := by
  intro before text replacement rest h
  obtain ⟨receiver, call, property, argument, hcall, -, rfl, rfl⟩ :=
    propertyCheckCall_eq_some_iff.mp h
  simp only [List.append_assoc]
  exact ⟨restOfLine_append_ne_nil hcall.restOfLine_ne_nil.2 _,
    restOfLine_append_ne_nil (by decide) _⟩

theorem colorAtOffsetCall_beginsInLine : colorAtOffsetCall.BeginsInLine := by
  obtain ⟨template, heq, htemplate⟩ := colorAtOffsetCall_eq
  intro before text replacement rest h
  rw [heq] at h
  obtain ⟨receiver, call, inner, hcall, -, rfl, rfl⟩ := replacedCall_eq_some_iff.mp h
  obtain ⟨others, hothers⟩ := htemplate receiver
  refine ⟨restOfLine_append_ne_nil hcall.restOfLine_ne_nil.2 _, ?_⟩
  rw [← hothers, List.append_assoc]
  exact restOfLine_append_ne_nil hcall.restOfLine_ne_nil.1 _

theorem colorRectAfter_beginsInLine {keyword : String} (hkeyword : restOfLine keyword.toList ≠ []) :
    (colorRectAfter keyword).BeginsInLine := by
  intro before text replacement rest h
  obtain ⟨_, ⟨ws, -, -, rfl⟩, -, rfl, rfl⟩ := colorRectAfter_eq_some_iff.mp h
  simp only [List.append_assoc]
  exact ⟨restOfLine_append_ne_nil hkeyword _, restOfLine_append_ne_nil hkeyword _⟩

theorem colorRectCall_beginsInLine : colorRectCall.BeginsInLine := by
  intro before text replacement rest h
  rw [← List.reverse_reverse before] at h
  obtain ⟨piece, -, hpiece, rfl, rfl⟩ := colorRectCall_eq_some_iff.mp h
  obtain ⟨letters, rfl, -⟩ := hpiece.apart
  refine ⟨?_, by decide⟩
  rw [List.cons_append, Ne, restOfLine_cons_eq_nil_iff]
  decide

theorem materialStatement_beginsInLine (property : MaterialProperty) :
    (materialStatement property).BeginsInLine := by
  intro before text replacement rest h
  rw [← List.reverse_reverse before] at h
  rcases materialStatement_eq_some h with
    ⟨owner, target, value, hne, hword, -, -, -, rfl, rfl⟩ |
    ⟨target, value, -, htarget, -, -, rfl, hreplacement⟩
  · have howner := restOfLine_word_ne_nil hne hword
    simp only [movedAssignment, List.append_assoc]
    exact ⟨restOfLine_append_ne_nil howner _, restOfLine_append_ne_nil howner _⟩
  · obtain ⟨hne, hword, -⟩ := particlesAbove_spec before.reverse.reverse
    constructor
    · obtain ⟨lead, ws₁, ws₂, ws₃, hlead, -, -, -, rfl⟩ := htarget
      simp only [List.append_assoc]
      rcases hlead with rfl | rfl
      · rw [List.nil_append]
        exact restOfLine_append_ne_nil (by decide) _
      · exact restOfLine_append_ne_nil (by decide) _
    · simp only [hreplacement, movedAssignment, List.append_assoc]
      exact restOfLine_append_ne_nil (restOfLine_word_ne_nil hne hword) _

/-! ## Comments behind ColorRect -/

/-- A pass that finds nothing in the words of a comment, and no number sign, carries the comment as
a whole. -/
theorem Pattern.carries_of_apart (hp : p.Consumes) (hbegins : p.BeginsInLine)
    (hlacks : ∀ before text replacement rest, p before text = some (replacement, rest) →
      ∃ piece, text = piece ++ rest ∧ '#' ∉ piece)
    (hnone : ∀ init tail, words = init ++ tail → tail ≠ [] → ∀ before back,
      p before (tail ++ back) = none) (left back : List Char) :
    ∃ left' back', p.Carries left (words ++ back) left' (words ++ back') ∧
      (restOfLine back' = [] ↔ restOfLine back = []) := by
  obtain ⟨earlier, later, h, rfl, hold⟩ := Pattern.exists_kept hp hlacks left (words ++ back)
  have hsplit : p.Segments (oldText earlier ++ '#' :: (words ++ back))
      ((earlier ++ [.kept '#']) ++ later) := by
    simpa using h
  obtain ⟨others, rfl, rfl⟩ := hsplit.kept_words hold
    fun init tail heq hne before => hnone init tail heq hne before back
  refine ⟨newText earlier, newText others, ⟨_, h, .inl ⟨earlier, _, rfl, rfl, ?_, rfl, ?_⟩⟩, ?_⟩
  · rw [oldText_append, oldText_kept]
  · rw [newText_append, newText_kept]
  · rw [← List.append_assoc] at hsplit
    exact hsplit.restOfLine_iff hbegins

theorem colorRectCall_eq_none (hapart : Form.apart ["ColorRect"] text) (hne : text ≠ []) :
    colorRectCall before (text ++ back) = none := by
  by_contra hsome
  obtain ⟨-, piece, rest, hpiece, heq⟩ :=
    colorRectCall_isSome_iff.mp (Option.isSome_iff_ne_none.mpr hsome)
  have hprefix : "ColorRect".toList <+: text ++ back := by
    rw [heq]
    refine List.IsPrefix.trans ?_ (List.prefix_append piece rest)
    rcases hpiece with ⟨ws, -, rfl⟩ | ⟨ws₁, ws₂, -, -, rfl⟩ <;> simp
  have hnot := Form.agree_eq_false_of_apart hapart hne "ColorRect" (List.mem_singleton_self _)
  rw [Form.agree_of_prefix_append hprefix] at hnot
  cases hnot

theorem not_mem_blanks {ws : List Char} (h : Blanks ws) : '#' ∉ ws :=
  fun hmem => absurd (h _ hmem) (by decide)

/-- The passes for `extends` and for constructions carry the comment that a keyword gets. -/
theorem colorRect_carries {pass : Pattern (List Char)}
    (h : pass = colorRectAfter "extends" ∨ pass = colorRectCall) (left back : List Char) :
    ∃ left' back', pass.Carries left (textureNote ++ back) left' (textureNote ++ back') ∧
      (restOfLine back' = [] ↔ restOfLine back = []) := by
  have hextends : Form.apart ["extends"] textureNote := by decide
  have hname : Form.apart ["ColorRect"] textureNote := by decide
  rcases h with rfl | rfl
  · refine Pattern.carries_of_apart (colorRectAfter_adds _).consumes
      (colorRectAfter_beginsInLine (by decide)) ?_ ?_ left back
    · intro before text replacement rest hmatch
      obtain ⟨_, ⟨ws, -, hws, rfl⟩, -, rfl, -⟩ := colorRectAfter_eq_some_iff.mp hmatch
      exact ⟨_, rfl, by simp [not_mem_blanks hws]⟩
    · intro init tail heq hne before back
      exact colorRectAfter_eq_none (Form.apart_of_append init (heq ▸ hextends)) hne
  · refine Pattern.carries_of_apart colorRectCall_adds.consumes colorRectCall_beginsInLine ?_ ?_
      left back
    · intro before text replacement rest hmatch
      rw [← List.reverse_reverse before] at hmatch
      obtain ⟨piece, -, ⟨ws, hws, rfl⟩ | ⟨ws₁, ws₂, hws₁, hws₂, rfl⟩, rfl, -⟩ :=
        colorRectCall_eq_some_iff.mp hmatch
      · exact ⟨_, rfl, by simp [not_mem_blanks hws]⟩
      · exact ⟨_, rfl, by simp [not_mem_blanks hws₁, not_mem_blanks hws₂]⟩
    · intro init tail heq hne before back
      exact colorRectCall_eq_none (Form.apart_of_append init (heq ▸ hname)) hne

theorem colorRect_carried {passes : List (Pattern (List Char))}
    (h : ∀ pass ∈ passes, pass = colorRectAfter "extends" ∨ pass = colorRectCall)
    (left back : List Char) :
    ∃ left' back', Pattern.Carried passes left (textureNote ++ back) left' (textureNote ++ back') ∧
      (restOfLine back' = [] ↔ restOfLine back = []) := by
  induction passes generalizing left back with
  | nil => exact ⟨left, back, .done _ _, Iff.rfl⟩
  | cons pass passes ih =>
    obtain ⟨hpass, hpasses⟩ := List.forall_mem_cons.mp h
    obtain ⟨left₁, back₁, hcarries, hiff₁⟩ := colorRect_carries hpass left back
    obtain ⟨left', back', hcarried, hiff⟩ := ih hpasses left₁ back₁
    exact ⟨left', back', .pass hcarries hcarried, hiff.trans hiff₁⟩

/-! ## Comments behind headers -/

/-- In a text of three parts a character that the outer parts lack stands in the middle. -/
theorem exists_middle {front middle back left right : List Char} (hfront : c ∉ front)
    (hback : c ∉ back) (h : front ++ (middle ++ back) = left ++ c :: right) :
    ∃ init rest, left = front ++ init ∧ middle = init ++ c :: rest ∧ right = rest ++ back := by
  obtain ⟨init, rfl, hmiddle⟩ :
      ∃ init, left = front ++ init ∧ middle ++ back = init ++ c :: right := by
    rcases List.append_eq_append_iff.mp h with ⟨init, rfl, hmiddle⟩ | ⟨gap, rfl, hgap⟩
    · exact ⟨init, rfl, hmiddle⟩
    · cases gap with
      | nil => exact ⟨[], by simp, hgap.symm⟩
      | cons d gap =>
        obtain ⟨rfl, -⟩ := List.cons_eq_cons.mp hgap
        simp at hfront
  rcases List.append_eq_append_iff.mp hmiddle with ⟨gap, rfl, rfl⟩ | ⟨rest, rfl, hrest⟩
  · simp at hback
  · cases rest with
    | nil =>
      rw [List.nil_append] at hrest
      simp [← hrest] at hback
    | cons d rest =>
      obtain ⟨rfl, rfl⟩ := List.cons_eq_cons.mp hrest
      exact ⟨init, rest, rfl, rfl, rfl⟩

/-- A check that begins in words without a point reaches beyond them, and no line end is there. -/
theorem not_beginsCheck_of_line (hpoint : '.' ∉ words) (hne : words ≠ [])
    (hback : restOfLine back = []) : ¬ BeginsCheck (words ++ back) := by
  rintro ⟨receiver, _, property, argument, rest, ⟨ws, -, hword, -, rfl⟩, -, heq⟩
  obtain ⟨others, heq⟩ : ∃ others, words ++ back = receiver ++ '.' :: others :=
    ⟨_, by simpa using heq⟩
  rcases List.append_eq_append_iff.mp heq with ⟨gap, rfl, rfl⟩ | ⟨gap, rfl, hgap⟩
  · cases gap with
    | nil => exact absurd (restOfLine_cons_eq_nil_iff.mp hback) (by decide)
    | cons c gap =>
      have hc := isLineEnd_of_isWord (hword c (by simp))
      rw [List.cons_append, restOfLine_cons_eq_nil_iff, hc] at hback
      cases hback
  · cases gap with
    | nil =>
      rw [List.nil_append] at hgap
      rw [← hgap] at hback
      exact absurd (restOfLine_cons_eq_nil_iff.mp hback) (by decide)
    | cons c gap =>
      obtain ⟨rfl, -⟩ := List.cons_eq_cons.mp hgap
      simp at hpoint

def checkNote : List Char := " fixed: has_property() replaced with get() + null check".toList

theorem checkNote_quiet : (∀ c ∈ checkNote, isLineEnd c = false) ∧
    (∀ c ∈ checkNote, isQuote c = false) ∧ '.' ∉ checkNote := by
  unfold checkNote
  rw [String.toList_ofList]
  decide

theorem BeginsCheck.head?_isWord (h : BeginsCheck text) : ∃ c ∈ text.head?, Text.isWord c := by
  obtain ⟨receiver, _, property, argument, back, ⟨ws, hne, hword, -, rfl⟩, -, rfl⟩ := h
  obtain ⟨c, receiver, rfl⟩ := List.exists_cons_of_ne_nil hne
  exact ⟨c, rfl, hword c List.mem_cons_self⟩

theorem propertyCheckCall_head? (h : propertyCheckCall before text = some (replacement, rest)) :
    replacement ≠ [] ∧ text.head? ≠ replacement.head? := by
  have hbegins : BeginsCheck text := beginsCheck_iff.mpr (Option.isSome_of_eq_some h)
  obtain ⟨c, hc, hword⟩ := hbegins.head?_isWord
  obtain ⟨receiver, call, property, argument, -, -, -, rfl⟩ := propertyCheckCall_eq_some_iff.mp h
  refine ⟨by simp, fun heq => ?_⟩
  rw [Option.mem_def.mp hc] at heq
  obtain rfl : c = '(' := Option.some.inj heq
  exact absurd hword (by decide)

/-- Where the number sign is kept, the words of the comment stay the rest of its line just when they
were it. -/
theorem restOfLine_kept_note (h : propertyCheckCall.Segments text (earlier ++ later))
    (hold : oldText later = checkNote ++ back) :
    restOfLine (newText later) = checkNote ↔ restOfLine back = [] := by
  obtain ⟨hline, -, hpoint⟩ := checkNote_quiet
  have hkept : ∀ others, later = checkNote.map .kept ++ others →
      (restOfLine (newText others) = [] ↔ restOfLine (oldText others) = []) := by
    rintro others rfl
    rw [← List.append_assoc] at h
    exact h.restOfLine_iff propertyCheckCall_beginsInLine
  constructor
  · intro hwords
    have hnew : newText later = checkNote ++ (newText later).dropWhile (!isLineEnd ·) := by
      conv_lhs => rw [← List.takeWhile_append_dropWhile (p := (!isLineEnd ·)) (l := newText later)]
      exact congrArg (· ++ _) hwords
    obtain ⟨others, hlater, rfl, hrest⟩ :=
      h.kept_of_newText (fun _ _ _ _ hmatch => propertyCheckCall_head? hmatch) hold hnew
    rw [← hkept others hlater, hrest, ← restOfLine_append_eq_iff hline, ← hnew, hwords]
  · intro hback
    obtain ⟨others, rfl, rfl⟩ := h.kept_words hold fun init tail heq hne before => by
      have htail : '.' ∉ tail := fun hmem => hpoint (heq ▸ List.mem_append_right init hmem)
      have hnot := not_beginsCheck_of_line htail hne hback
      rwa [beginsCheck_iff, Option.not_isSome_iff_eq_none] at hnot
    rw [newText_append, newText_kept, restOfLine_append_eq_iff hline]
    exact (hkept others rfl).mpr hback

theorem IsReceiverCall.number_not_mem {receiver call : List Char}
    (h : IsReceiverCall "has_property" receiver call) : '#' ∉ call := by
  obtain ⟨ws, -, hword, hws, rfl⟩ := h
  have hreceiver : '#' ∉ receiver := fun hmem => absurd (hword _ hmem) (by decide)
  simp [hreceiver, not_mem_blanks hws]

theorem isLineEnd_of_isQuote (h : isQuote c) : isLineEnd c = false := by
  simp only [isQuote, Bool.or_eq_true, beq_iff_eq] at h
  rcases h with rfl | rfl <;> decide

/-- The comment ends before the quote that closes a name around it. -/
theorem exists_of_checkNote_append {others close : List Char} {closing : Char}
    (hclosing : isQuote closing) (h : checkNote ++ back = others ++ closing :: close) :
    ∃ gap, others = checkNote ++ gap ∧ back = gap ++ closing :: close := by
  rcases List.append_eq_append_iff.mp h with ⟨gap, rfl, rfl⟩ | ⟨gap, hnote, hgap⟩
  · exact ⟨gap, rfl, rfl⟩
  · cases gap with
    | nil => exact ⟨[], by simpa using hnote.symm, hgap.symm⟩
    | cons d gap =>
      obtain ⟨rfl, -⟩ := List.cons_eq_cons.mp hgap
      have hquote := checkNote_quiet.2.1 closing (by simp [hnote])
      simp [hclosing] at hquote

/-- A check that holds the number sign has it in the quoted name, and copies it with the words
behind it. -/
theorem restOfLine_copied_note {init tail : List Char}
    (hmatch : propertyCheckCall before (init ++ '#' :: tail ++ rest) = some (replacement, rest))
    (htail : checkNote ++ back = tail ++ rest) :
    ∃ lead lead' name others close close', init = lead ++ name ∧ tail = others ++ close ∧
      replacement = lead' ++ (name ++ '#' :: others) ++ close' ∧
      ∀ after, restOfLine (others ++ close' ++ after) = checkNote ↔ restOfLine back = [] := by
  obtain ⟨receiver, call, property, _, hcall, ⟨ws₁, opening, closing, ws₂, hws₁, hopening, -, -,
    hclosing, hws₂, rfl⟩, heq, rfl⟩ := propertyCheckCall_eq_some_iff.mp hmatch
  have hpiece : (call ++ ws₁ ++ [opening]) ++ (property ++ (closing :: ws₂ ++ ")".toList)) =
      init ++ '#' :: tail := by
    rw [List.append_cancel_right heq]
    simp
  have hquote : ∀ q, isQuote q → q ≠ '#' := by
    rintro q hq rfl
    cases hq
  obtain ⟨name, others, rfl, rfl, rfl⟩ := exists_middle
    (by simp [hcall.number_not_mem, not_mem_blanks hws₁, (hquote opening hopening).symm])
    (by simp [not_mem_blanks hws₂, (hquote closing hclosing).symm]) hpiece
  refine ⟨call ++ ws₁ ++ [opening], "(".toList ++ receiver ++ ".get(\"".toList, name, others,
    closing :: ws₂ ++ ")".toList, "\") != null)".toList, rfl, rfl, by simp, fun after => ?_⟩
  have hsplit : checkNote ++ back = others ++ closing :: (ws₂ ++ ")".toList ++ rest) := by
    simpa using htail
  obtain ⟨gap, rfl, rfl⟩ := exists_of_checkNote_append hclosing hsplit
  rw [List.append_assoc, List.append_assoc, restOfLine_append_eq_iff checkNote_quiet.1]
  cases gap with
  | nil =>
    rw [List.nil_append, List.nil_append]
    refine iff_of_false (restOfLine_append_ne_nil (by decide) _) ?_
    rw [restOfLine_cons_eq_nil_iff, isLineEnd_of_isQuote hclosing]
    exact Bool.false_ne_true
  | cons c gap =>
    rw [List.cons_append, List.cons_append, restOfLine_cons_eq_nil_iff, restOfLine_cons_eq_nil_iff]

/-- The pass for calls carries the comment that a header gets. -/
theorem propertyCheckCall_carries (left back : List Char) :
    ∃ left' right', propertyCheckCall.Carries left (checkNote ++ back) left' right' ∧
      (restOfLine right' = checkNote ↔ restOfLine back = []) := by
  obtain ⟨segments, h⟩ := Pattern.exists_segments propertyCheckCall_adds.consumes
    (left ++ '#' :: (checkNote ++ back))
  rcases exists_place h.oldText_eq with ⟨earlier, later, rfl, rfl, hlater⟩ |
    ⟨earlier, replacement, init, tail, later, rfl, -, htail, rfl, hback⟩
  · cases later with
    | nil => cases hlater
    | cons segment later =>
      cases segment with
      | kept c =>
        obtain ⟨rfl, hold⟩ := List.cons_eq_cons.mp hlater
        refine ⟨_, _, ⟨_, h, .inl ⟨earlier, later, rfl, rfl, hold.symm, rfl, rfl⟩⟩, ?_⟩
        rw [List.append_cons earlier] at h
        exact restOfLine_kept_note h hold
      | replaced piece replacement =>
        -- No check begins with a number sign.
        obtain ⟨-, hmatch⟩ := h.eq_some_of_replaced earlier piece replacement later rfl
        have hbegins := beginsCheck_iff.mpr (Option.isSome_of_eq_some hmatch)
        have hlater : piece ++ oldText later = '#' :: (checkNote ++ back) := hlater
        obtain ⟨c, hc, hword⟩ := hbegins.head?_isWord
        rw [hlater] at hc
        obtain rfl : '#' = c := by simpa using hc
        exact absurd hword (by decide)
  · obtain ⟨c, tail, rfl⟩ := List.exists_cons_of_ne_nil htail
    obtain ⟨rfl, hnote⟩ := List.cons_eq_cons.mp hback
    obtain ⟨-, hmatch⟩ := h.eq_some_of_replaced earlier _ replacement later rfl
    obtain ⟨lead, lead', name, others, close, close', rfl, rfl, rfl, hiff⟩ :=
      restOfLine_copied_note hmatch hnote
    refine ⟨_, _, ⟨_, h, .inr ⟨earlier, lead, lead', name, others, close, close', later, ?_, rfl,
      hnote, rfl, rfl⟩⟩, hiff _⟩
    simp

/-! ## Fixed scripts -/

theorem Pattern.Carried.applyPasses_eq {passes : List (Pattern (List Char))}
    (h : Pattern.Carried passes left right left' right') :
    Pattern.applyPasses passes (left ++ '#' :: right) = left' ++ '#' :: right' := by
  induction h with
  | done => rfl
  | @pass p passes left right left₁ right₁ left' right' hpass hrest ih =>
    rw [Pattern.applyPasses_cons, ← ih]
    congr 1
    obtain ⟨segments, hsegments, ⟨earlier, later, rfl, -, -, rfl, rfl⟩ |
      ⟨earlier, lead, lead', init, rest, tail, tail', later, rfl, -, -, rfl, rfl⟩⟩ := hpass
    · rw [← hsegments.newText_eq]
      simp [Segment.new]
    · rw [← hsegments.newText_eq]
      simp [Segment.new]

namespace FixStrategy.Comments

variable {passes passes' : List (Pattern (List Char))}

theorem passes_eq (h : strategy.Comments passes p passes') :
    strategy.passes = passes ++ p :: passes' := by
  cases h <;> rfl

theorem beginsInLine (h : strategy.Comments passes p passes') : p.BeginsInLine := by
  cases h with
  | header => exact propertyCheckHeader_beginsInLine
  | index => exact colorAtOffsetCall_beginsInLine
  | className => exact colorRectAfter_beginsInLine (by decide)
  | parentName => exact colorRectAfter_beginsInLine (by decide)
  | assignment property => exact materialStatement_beginsInLine property

/-- Each replacement ends with a comment. -/
theorem exists_words (h : strategy.Comments passes p passes')
    (hmatch : p before text = some (replacement, rest)) :
    ∃ head words, replacement = head ++ '#' :: words ∧ strategy.IsComment words := by
  cases h with
  | header =>
    obtain ⟨indent, ws₁, receiver, call, property, argument, ws₂, -, -, -, -, -, -, rfl⟩ :=
      propertyCheckHeader_spec hmatch
    have hnote :
        "_value != null:  # fixed: has_property() replaced with get() + null check".toList =
          "_value != null:  ".toList ++ '#' :: checkNote := by
      unfold checkNote
      repeat rw [String.toList_ofList]
      rfl
    rw [hnote, ← List.append_assoc]
    exact ⟨_, checkNote, rfl, rfl⟩
  | index =>
    rw [colorAtOffsetCall_eq_replacedCall] at hmatch
    obtain ⟨receiver, call, inner, -, -, -, rfl⟩ := replacedCall_eq_some_iff.mp hmatch
    have hnote : indexNote =
        [' ', ' '] ++ '#' :: " fixed: use the index of the gradient point".toList := by
      unfold indexNote
      repeat rw [String.toList_ofList]
      rfl
    refine ⟨receiver ++ '.' :: ("get_color".toList ++ "(index".toList ++ [')', ' ', ' ']), _, ?_,
      rfl⟩
    rw [hnote]
    simp only [List.append_assoc, List.cons_append, List.nil_append]
  | className =>
    refine ⟨"class_name".toList ++ textureName, textureNote, ?_, rfl⟩
    rw [colorRectAfter_replacement hmatch, List.append_assoc]
  | parentName =>
    refine ⟨"extends".toList ++ textureName, textureNote, ?_, rfl⟩
    rw [colorRectAfter_replacement hmatch, List.append_assoc]
  | assignment property =>
    rw [← List.reverse_reverse before] at hmatch
    obtain ⟨node, value, hnode, rfl⟩ : ∃ node value, (∀ c ∈ node, Text.isWord c) ∧
        replacement = movedAssignment property node value := by
      rcases materialStatement_eq_some hmatch with
        ⟨owner, target, value, -, hword, -, -, -, -, heq⟩ | ⟨target, value, -, -, -, -, -, heq⟩
      · exact ⟨owner, _, hword, heq⟩
      · exact ⟨_, _, (particlesAbove_spec _).2.1, heq⟩
    have hfrom : " fixed: moved from material.".toList = movedFrom ++ ['.'] := by decide
    refine ⟨node ++ '.' :: (property.nodeName.toList ++ assignSign ++ (value ++ [' ', ' '])),
      movedFrom ++ '.' :: (property.name.toList ++ movedTo ++
        (node ++ '.' :: property.nodeName.toList)), ?_, node, hnode, ?_⟩
    · rw [movedAssignment_eq]
      simp only [List.append_assoc, List.cons_append]
    · rw [hfrom]
      simp [movedTo]

end FixStrategy.Comments

theorem FixStrategy.IsComment.isLineEnd_eq_false (h : strategy.IsComment words) :
    ∀ c ∈ words, isLineEnd c = false := by
  cases strategy with
  | hasProperty =>
    obtain rfl : words = checkNote := h
    exact checkNote_quiet.1
  | setLooped => cases h
  | colorAtOffset =>
    obtain rfl : words = " fixed: use the index of the gradient point".toList := h
    rw [String.toList_ofList]
    decide
  | colorRect =>
    obtain rfl : words = textureNote := h
    unfold textureNote
    rw [String.toList_ofList]
    decide
  | material property =>
    obtain ⟨node, hnode, rfl⟩ := h
    have hname : ∀ c ∈ property.name.toList, isLineEnd c = false := by cases property <;> decide
    have hnodeName : ∀ c ∈ property.nodeName.toList, isLineEnd c = false := by
      cases property <;> decide
    have hrest : ∀ s ∈ [" fixed: moved from material.", " to ", "."],
        ∀ c ∈ s.toList, isLineEnd c = false := by
      decide
    intro c hc
    simp only [List.mem_append] at hc
    rcases hc with ((((hc | hc) | hc) | hc) | hc) | hc
    · exact hrest _ (by simp) c hc
    · exact hname c hc
    · exact hrest " to " (by simp) c hc
    · exact isLineEnd_of_isWord (hnode c hc)
    · exact hrest "." (by simp) c hc
    · exact hnodeName c hc

/-- The passes after the one that writes a comment carry it. -/
theorem FixStrategy.Comments.carried {passes passes' : List (Pattern (List Char))}
    (h : strategy.Comments passes p passes') (hwords : strategy.IsComment words)
    (left back : List Char) :
    ∃ left' right', Pattern.Carried passes' left (words ++ back) left' right' ∧
      (restOfLine right' = words ↔ restOfLine back = []) := by
  have hline := hwords.isLineEnd_eq_false
  cases h with
  | header =>
    obtain rfl : words = checkNote := hwords
    obtain ⟨left', right', hcarries, hiff⟩ := propertyCheckCall_carries left back
    exact ⟨left', right', .pass hcarries (.done _ _), hiff⟩
  | index => exact ⟨left, _, .done _ _, restOfLine_append_eq_iff hline⟩
  | className =>
    obtain rfl : words = textureNote := hwords
    have hpasses : ∀ pass ∈ [colorRectAfter "extends", colorRectCall],
        pass = colorRectAfter "extends" ∨ pass = colorRectCall := by
      simp
    obtain ⟨left', back', hcarried, hiff⟩ := colorRect_carried hpasses left back
    exact ⟨left', _, hcarried, (restOfLine_append_eq_iff hline).trans hiff⟩
  | parentName =>
    obtain rfl : words = textureNote := hwords
    have hpasses : ∀ pass ∈ [colorRectCall],
        pass = colorRectAfter "extends" ∨ pass = colorRectCall :=
      List.forall_mem_singleton.mpr (.inr rfl)
    obtain ⟨left', back', hcarried, hiff⟩ := colorRect_carried hpasses left back
    exact ⟨left', _, hcarried, (restOfLine_append_eq_iff hline).trans hiff⟩
  | assignment property => exact ⟨left, _, .done _ _, restOfLine_append_eq_iff hline⟩

/-- An assignment that is moved is the rest of its line unless a semicolon ends it. -/
theorem restOfLine_after_assignment {property : MaterialProperty}
    (h : materialStatement property before text = some (replacement, rest)) :
    restOfLine rest = [] ↔ ';' ∉ rest.head? := by
  cases rest with
  | nil => simp [restOfLine]
  | cons c rest =>
    have hc : endsValue c := materialStatement_ends h c rfl
    simp only [endsValue, Bool.or_eq_true, beq_iff_eq] at hc
    rcases hc with rfl | rfl <;> simp [restOfLine, isLineEnd]

/-- Each match of a pass that writes comments gets one, and in the fixed script it stands behind its
number sign. The comment is the rest of its line just when the match was; a moved assignment was
unless a semicolon ended it. -/
theorem comment_ends_line_iff (hfix : change.fix = some strategy)
    (hfixed : applyFix? change source = some fixed) :
    ∀ passes pass passes', strategy.Comments passes pass passes' →
      ∀ segments, pass.Segments (Pattern.applyPasses passes source) segments →
        ∀ earlier piece replacement later,
          segments = earlier ++ .replaced piece replacement :: later →
          ∃ head words left right extra, replacement = head ++ '#' :: words ∧
            strategy.IsComment words ∧
            Pattern.Carried passes' (newText earlier ++ head) (words ++ newText later) left right ∧
            fixed = left ++ '#' :: (right ++ extra) ∧
            (restOfLine (right ++ extra) = words ↔ restOfLine (oldText later) = []) ∧
            ∀ property, strategy = .material property →
              (restOfLine (oldText later) = [] ↔ ';' ∉ (oldText later).head?) := by
  rintro passes pass passes' hcomments _ hsegments earlier piece _ later rfl
  obtain ⟨-, hmatch⟩ := hsegments.eq_some_of_replaced earlier piece _ later rfl
  obtain ⟨head, words, rfl, hwords⟩ := hcomments.exists_words hmatch
  obtain ⟨left, right, hcarried, hiff⟩ :=
    hcomments.carried hwords (newText earlier ++ head) (newText later)
  have hmaterial : ∀ property, strategy = .material property →
      (restOfLine (oldText later) = [] ↔ ';' ∉ (oldText later).head?) := by
    rintro property rfl
    cases hcomments
    exact restOfLine_after_assignment hmatch
  have hedit : strategy.edit source = left ++ '#' :: right := by
    have hpass : pass.replaceAll (Pattern.applyPasses passes source) =
        newText earlier ++ head ++ '#' :: (words ++ newText later) := by
      rw [← hsegments.newText_eq]
      simp [Segment.new]
    have hsplit : strategy.edit source =
        Pattern.applyPasses passes' (pass.replaceAll (Pattern.applyPasses passes source)) := by
      show Pattern.applyPasses strategy.passes source = _
      rw [hcomments.passes_eq, Pattern.applyPasses, List.foldl_append]
      rfl
    rw [hsplit, hpass, hcarried.applyPasses_eq]
  rw [List.append_cons] at hsegments
  have hends := hiff.trans (hsegments.restOfLine_iff hcomments.beginsInLine)
  have hnote : fixed = withNote change (strategy.edit source) := by
    simp only [applyFix?, hfix, Option.ite_none_right_eq_some, Option.some_inj] at hfixed
    exact hfixed.2.symm
  unfold withNote at hnote
  split at hnote
  · refine ⟨head, words, left, right, [], rfl, hwords, hcarried, ?_, ?_, hmaterial⟩
    · rw [hnote, hedit, List.append_nil]
    · rwa [List.append_nil]
  · obtain ⟨note, heq⟩ := exists_fixNote change
    have hextra : restOfLine (fixNote change) = [] := by
      rw [heq, List.cons_append, restOfLine_cons_eq_nil_iff]
      rfl
    refine ⟨head, words, left, right, fixNote change, rfl, hwords, hcarried, ?_, ?_, hmaterial⟩
    · rw [hnote, hedit, List.append_assoc, List.cons_append]
    · rwa [restOfLine_append_of_eq_nil hextra]

/-- The member of the color that is taken behind the call stands in the comment. -/
theorem comment_ends_line_iff_member :
    ∃ fixed left right,
      applyFix? colorAtOffsetRemoved "g.get_color_at_offset(0.5).r".toList = some fixed ∧
      fixed = left ++ '#' :: right ∧
      restOfLine right ≠ " fixed: use the index of the gradient point".toList := by
  have hsome : (applyFix? colorAtOffsetRemoved "g.get_color_at_offset(0.5).r".toList).isSome := by
    decide
  obtain ⟨fixed, hfixed⟩ := Option.isSome_iff_exists.mp hsome
  have hfix : colorAtOffsetRemoved.fix = some .colorAtOffset := rfl
  have hsegments : colorAtOffsetCall.Segments "g.get_color_at_offset(0.5).r".toList
      [.replaced "g.get_color_at_offset(0.5)".toList
        "g.get_color(index)  # fixed: use the index of the gradient point".toList,
        .kept '.', .kept 'r'] := by
    refine ⟨by decide, by decide, ?_, ?_⟩
    · intro earlier c later heq
      rcases earlier with _ | ⟨_, _ | ⟨_, _ | ⟨_, _⟩⟩⟩
      · simp at heq
      · obtain ⟨rfl, rfl, rfl⟩ : _ ∧ '.' = c ∧ [.kept 'r'] = later := by simpa using heq
        decide
      · obtain ⟨rfl, rfl, rfl, rfl⟩ : _ ∧ _ ∧ 'r' = c ∧ later = [] := by simpa using heq
        decide
      · simp at heq
    · intro earlier piece replacement later heq
      rcases earlier with _ | ⟨_, _ | ⟨_, _ | ⟨_, _⟩⟩⟩
      · obtain ⟨⟨rfl, rfl⟩, rfl⟩ : (_ = piece ∧ _ = replacement) ∧ _ = later := by
          simpa using heq
        decide
      all_goals simp at heq
  obtain ⟨head, words, left, right, extra, -, hwords, -, heq, hiff, -⟩ :=
    comment_ends_line_iff hfix hfixed [] _ [] .index _ hsegments [] _ _ _ rfl
  obtain rfl : words = " fixed: use the index of the gradient point".toList := hwords
  exact ⟨fixed, left, right ++ extra, hfixed, heq, fun hline => absurd (hiff.mp hline) (by decide)⟩

end EditorLink.Migration
