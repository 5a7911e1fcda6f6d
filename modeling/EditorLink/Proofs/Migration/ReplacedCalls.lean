import EditorLink.Proofs.Migration.Strategies
import EditorLink.Proofs.Migration.ShaderCalls

/-!
# Replaced calls and names, taken back

What a rule finds in a text with a replacement it also finds with the replaced piece in its place.
This module says so for the calls of `set_looped` and `get_color_at_offset` and for `ColorRect`.
Around a replacement the characters decide that keep a rule's pieces apart; for arithmetic on shader
parameters, whose argument may be any text, it is the next closing parenthesis.
-/

namespace EditorLink.Migration

variable {rule : Rule} {front back text ws receiver call inner : List Char}

/-! ## Calls with a receiver -/

theorem IsReceiverCall.occursIn {name : String} (h : IsReceiverCall name receiver call) :
    (Form.mk (IsCall name) false).OccursIn call := by
  obtain ⟨ws, -, -, hws, rfl⟩ := h
  exact ⟨receiver, _, [], nofun, ⟨ws, hws, rfl⟩, by simp⟩

/-- A text that ends with a parenthesis ends no word. -/
theorem wordStart_append_paren (front text : List Char) :
    WordStart (front ++ (text ++ ")".toList)) := by
  rw [← List.append_assoc]
  exact wordStart_append_singleton _ (by decide)

theorem not_mem_word {c : Char} (hword : ∀ c ∈ receiver, Text.isWord c)
    (hc : Text.isWord c = false) : c ∉ receiver := by
  intro hmem
  simp [hword c hmem] at hc

/-! ## set_looped -/

theorem toList_append_lines (a b c d e : String) : (a ++ b ++ c ++ d ++ e).toList =
    a.toList ++ (b.toList ++ (c.toList ++ (d.toList ++ e.toList))) := by
  simp

/-- What the comment in the place of a call goes on with behind the quoted call. -/
def loopedRecipe : List Char :=
  " was removed, loop with a callback instead:\n".toList ++
    ("# func animate_loop():\n".toList ++
    ("#     var tween = create_tween()\n".toList ++
    ("#     # animation steps...\n".toList ++
    "#     tween.tween_callback(animate_loop)".toList)))

theorem loopedRecipe_apart : ∀ rule ∈ Rule.all, Form.apart rule.leads loopedRecipe := by
  decide

theorem loopedCall_eq_replacedCall : loopedCall = replacedCall "set_looped" fun receiver =>
    "# ".toList ++ receiver ++ ('.' :: ("set_looped".toList ++ '(' :: ')' :: loopedRecipe)) := by
  have hnote : ".set_looped() was removed, loop with a callback instead:\n".toList =
      '.' :: ("set_looped".toList ++ '(' :: ')' ::
        " was removed, loop with a callback instead:\n".toList) := by
    decide
  have hlines : (".set_looped() was removed, loop with a callback instead:\n" ++
      "# func animate_loop():\n" ++
      "#     var tween = create_tween()\n" ++
      "#     # animation steps...\n" ++
      "#     tween.tween_callback(animate_loop)").toList =
      '.' :: ("set_looped".toList ++ '(' :: ')' :: loopedRecipe) := by
    refine (toList_append_lines _ _ _ _ _).trans ?_
    refine (congrArg (· ++ _) hnote).trans ?_
    exact congrArg ('.' :: ·) (List.append_assoc _ _ _)
  exact congrArg (fun note => replacedCall "set_looped" fun receiver =>
    "# ".toList ++ receiver ++ note) hlines

/-- A quoted call holds the name of its method, and `ColorRect` where its receiver has it. -/
theorem occursIn_quoted (hrule : rule ≠ .shaderParameter) (hown : rule ≠ .setLooped)
    (hword : ∀ c ∈ receiver, Text.isWord c)
    (h : rule.form.OccursIn (' ' :: receiver ++ '.' :: ("set_looped".toList ++ ['(']))) :
    rule = .colorRect ∧ rule.form.OccursIn receiver := by
  rcases Rule.occursIn_of_point hrule h with hfront | hback | ⟨name, close, hmember, hfollows⟩
  · have hpoint : '.' ∉ ' ' :: receiver := by simpa using not_mem_word hword (by decide)
    obtain rfl := Rule.eq_colorRect_of_no_point hrule hpoint hfront
    have hspace : ∀ rule ∈ Rule.all, Form.apart rule.leads [' '] := by decide
    exact ⟨rfl, Rule.occursIn_of_apart hspace hfront⟩
  · exact absurd hback (Rule.not_occursIn_of_apart (by decide))
  · obtain ⟨hname, -⟩ := Rule.name_eq_of_follows hmember (by decide) (by decide)
      (leaves_cons (by decide) []) hfollows
    obtain rfl := String.toList_inj.mp hname
    have hlooped : Rule.setLooped.member? = some ("set_looped", '(') := rfl
    exact absurd (Rule.eq_of_member hmember hlooped) hown

/-- The comment closes every call before it without a sign, and opens none. -/
theorem shader_looped (hcall : IsReceiverCall "set_looped" receiver call)
    (h : Rule.shaderParameter.form.OccursIn (front ++ '#' :: ((' ' :: receiver ++
      '.' :: ("set_looped".toList ++ ['('])) ++ ')' :: (loopedRecipe ++ back)))) :
    Rule.shaderParameter.form.OccursIn (front ++ (call ++ inner ++ ')' :: back)) := by
  obtain ⟨ws, hne, hword, -, rfl⟩ := hcall
  have hparen : ')' ∉ receiver := not_mem_word hword (by decide)
  refine shader_exchange ?_ ?_ ?_ ?_ ?_ h
  · exact not_across_of_head (by decide) rfl
  · obtain ⟨c, receiver, rfl⟩ := List.exists_cons_of_ne_nil hne
    rintro ⟨⟩
    simp at hparen
  · rw [signed_cons (by decide)]
    decide
  · -- The parenthesis of the quoted call comes first, and words follow it.
    intro hclosed
    have hrecipe : skipBlanks loopedRecipe ≠ [] ∧ ¬ Signed loopedRecipe := by decide
    rw [← List.cons_append, closed_append (by simpa using hparen), closed_cons_paren,
      signed_append hrecipe.1] at hclosed
    exact absurd hclosed hrecipe.2
  · intro hinside
    have hnumber : ∀ rule ∈ Rule.all, Form.apart rule.leads ['#', ' '] := by decide
    have hquote : Form.apart Rule.shaderParameter.leads
        ('.' :: ("set_looped".toList ++ "()".toList)) := by
      decide
    have hquoted : Rule.shaderParameter.form.OccursIn (['#', ' '] ++ (receiver ++
        ('.' :: ("set_looped".toList ++ "()".toList) ++ (loopedRecipe ++ back)))) := by
      simpa using hinside
    replace hquoted := shader_of_append (not_mem_word hword (by decide))
      (not_across_of_head (by decide) rfl) (Rule.occursIn_of_apart hnumber hquoted)
    have hback := Rule.occursIn_of_apart loopedRecipe_apart
      (hquoted.of_append_of_apart (Rule.beginsWith _) hquote)
    simpa using hback.append_left
      (receiver ++ ".".toList ++ "set_looped".toList ++ ws ++ "(".toList ++ inner ++ ")".toList) nofun

/-- A comment in the place of a call holds no more than the call and its name. -/
theorem occursIn_of_looped (hcall : IsReceiverCall "set_looped" receiver call)
    (h : rule.form.OccursIn (front ++ ("# ".toList ++ receiver ++
      '.' :: ("set_looped".toList ++ '(' :: ')' :: loopedRecipe)) ++ back)) :
    rule.form.OccursIn (front ++ (call ++ inner ++ ")".toList) ++ back) := by
  have hparts : rule.form.OccursIn (front ++ '#' :: ((' ' :: receiver ++
      '.' :: ("set_looped".toList ++ ['('])) ++ ')' :: (loopedRecipe ++ back))) := by
    simpa using h
  by_cases hrule : rule = .shaderParameter
  · subst hrule
    simpa using shader_looped hcall hparts
  by_cases hown : rule = .setLooped
  · subst hown
    have hoccurs := (hcall.occursIn.append_right (inner ++ ")".toList)).append_left front nofun
    simpa using! hoccurs.append_right back
  have hnumber : rule.form.Lacks '#' := Rule.lacks hrule (by decide) (by decide) (by decide)
  have hparen : rule.form.Lacks ')' := Rule.lacks hrule (by decide) (by decide) (by decide)
  rcases hparts.of_append_cons hnumber with hfront | hcomment
  · simpa using (hfront.append_right (call ++ inner ++ ")".toList)).append_right back
  rcases hcomment.of_append_cons hparen with hquoted | hrest
  · obtain ⟨ws, -, hword, -, rfl⟩ := hcall
    obtain ⟨rfl, hreceiver⟩ := occursIn_quoted hrule hown hword hquoted
    have hoccurs := (hreceiver.append_left front nofun).append_right
      (".".toList ++ "set_looped".toList ++ ws ++ "(".toList ++ inner ++ ")".toList ++ back)
    simpa using hoccurs
  · refine Rule.occursIn_append_left (Rule.occursIn_of_apart loopedRecipe_apart hrest) (.inl ?_)
    exact wordStart_append_paren front (call ++ inner)

/-! ## get_color_at_offset -/

/-- What follows the call in the place of a call. -/
def indexNote : List Char := "  # fixed: use the index of the gradient point".toList

theorem indexNote_apart : ∀ rule ∈ Rule.all, Form.apart rule.leads indexNote := by
  decide

theorem colorAtOffsetCall_eq_replacedCall : colorAtOffsetCall =
    replacedCall "get_color_at_offset" fun receiver =>
      receiver ++ '.' :: ("get_color".toList ++ "(index".toList ++ ')' :: indexNote) := by
  have hnote : ".get_color(index)  # fixed: use the index of the gradient point".toList =
      '.' :: ("get_color".toList ++ "(index".toList ++ ')' :: indexNote) := by
    decide
  exact congrArg (fun note => replacedCall "get_color_at_offset" fun receiver =>
    receiver ++ note) hnote

theorem shader_indexed (hcall : IsReceiverCall "get_color_at_offset" receiver call)
    (h : Rule.shaderParameter.form.OccursIn (front ++ receiver ++
      '.' :: ("get_color".toList ++ "(index".toList ++ ')' :: (indexNote ++ back)))) :
    Rule.shaderParameter.form.OccursIn (front ++ (call ++ inner ++ ')' :: back)) := by
  obtain ⟨ws, -, hword, -, rfl⟩ := hcall
  have hother : Rule.shaderParameter.form.OccursIn (front ++ receiver ++
      '.' :: ("get_color_at_offset".toList ++ ws ++ '(' :: inner ++ ')' :: back)) := by
    refine shader_exchange ?_ (by simp) ?_ ?_ ?_ h
    · exact not_across_of_head (by decide) rfl
    · rw [signed_cons (by decide)]
      decide
    · -- A comment follows the parenthesis of the new call.
      intro hclosed
      have hnote : skipBlanks indexNote ≠ [] ∧ ¬ Signed indexNote := by decide
      have hparen : ')' ∉ '.' :: ("get_color".toList ++ "(index".toList) := by decide
      rw [← List.cons_append, closed_append hparen, closed_cons_paren, signed_append hnote.1]
        at hclosed
      exact absurd hclosed hnote.2
    · intro hinside
      have hindexed : ∀ rule ∈ Rule.all, Form.apart rule.leads
          ('.' :: ("get_color".toList ++ "(index".toList ++ [')'])) := by
        decide
      have hnew : Rule.shaderParameter.form.OccursIn
          ('.' :: ("get_color".toList ++ "(index".toList ++ [')']) ++ (indexNote ++ back)) := by
        simpa using hinside
      have hback := Rule.occursIn_of_apart indexNote_apart (Rule.occursIn_of_apart hindexed hnew)
      simpa using hback.append_left
        ('.' :: ("get_color_at_offset".toList ++ ws ++ '(' :: inner ++ [')'])) nofun
  simpa using hother

/-- The new call holds the name of another method, and the comment after it none. -/
theorem occursIn_of_indexed (hcall : IsReceiverCall "get_color_at_offset" receiver call)
    (h : rule.form.OccursIn (front ++ (receiver ++
      '.' :: ("get_color".toList ++ "(index".toList ++ ')' :: indexNote)) ++ back)) :
    rule.form.OccursIn (front ++ (call ++ inner ++ ")".toList) ++ back) := by
  have hparts : rule.form.OccursIn (front ++ receiver ++
      '.' :: ("get_color".toList ++ "(index".toList ++ ')' :: (indexNote ++ back))) := by
    simpa using h
  by_cases hrule : rule = .shaderParameter
  · subst hrule
    simpa using shader_indexed hcall hparts
  by_cases hown : rule = .colorAtOffset
  · subst hown
    have hoccurs := (hcall.occursIn.append_right (inner ++ ")".toList)).append_left front nofun
    simpa using! hoccurs.append_right back
  have hparen : rule.form.Lacks ')' := Rule.lacks hrule (by decide) (by decide) (by decide)
  have hsplit : rule.form.OccursIn ((front ++ receiver ++
      '.' :: ("get_color".toList ++ "(index".toList)) ++ ')' :: (indexNote ++ back)) := by
    simpa using hparts
  rcases hsplit.of_append_cons hparen with hnew | hrest
  · rcases Rule.occursIn_of_point hrule hnew with hfront | hindex | ⟨name, close, hmember, hfollows⟩
    · obtain ⟨ws, -, -, -, rfl⟩ := hcall
      have hoccurs := hfront.append_right (".".toList ++ "get_color_at_offset".toList ++ ws ++
        "(".toList ++ inner ++ ")".toList ++ back)
      simpa using hoccurs
    · exact absurd hindex (Rule.not_occursIn_of_apart (by decide))
    · obtain ⟨hname, -⟩ := Rule.name_eq_of_follows hmember (by decide) (by decide)
        (leaves_cons (by decide) _) hfollows
      obtain rfl := String.toList_inj.mp hname
      have hnone : ∀ rule ∈ Rule.all, rule.member?.map Prod.fst ≠ some "get_color" := by decide
      exact absurd (by simp [hmember]) (hnone rule (Rule.mem_all rule))
  · refine Rule.occursIn_append_left (Rule.occursIn_of_apart indexNote_apart hrest) (.inl ?_)
    exact wordStart_append_paren front (call ++ inner)

/-! ## ColorRect -/

variable {keyword : String} {piece : List Char}

/-- What stands behind a keyword in the place of `ColorRect`, up to the number sign. -/
def textureName : List Char := ' ' :: "TextureRect  ".toList

/-- The comment behind it. -/
def textureNote : List Char := " fixed: TextureRect handles gradients better".toList

theorem textureName_append :
    " TextureRect  # fixed: TextureRect handles gradients better".toList =
      textureName ++ '#' :: textureNote := by
  decide

theorem textureName_apart : ∀ rule ∈ Rule.all, Form.apart rule.leads (textureName ++ ['#']) := by
  decide

theorem textureNote_apart : ∀ rule ∈ Rule.all, Form.apart rule.leads textureNote := by
  decide

theorem shader_named (hws : Blanks ws) (hne : ws ≠ [])
    (h : Rule.shaderParameter.form.OccursIn
      (front ++ (textureName ++ '#' :: (textureNote ++ back)))) :
    Rule.shaderParameter.form.OccursIn (front ++ (ws ++ ("ColorRect".toList ++ back))) := by
  have hparen : ')' ∉ textureName ++ '#' :: textureNote := by decide
  have hsigned : skipBlanks textureName ≠ [] ∧ ¬ Signed textureName := by decide
  have hblank : ')' ∉ ws := fun hmem => absurd (hws _ hmem) (by decide)
  refine shader_exchange ?_ ?_ ?_ ?_ ?_ h
  · exact not_across_of_head (by decide) rfl
  · obtain ⟨c, ws, rfl⟩ := List.exists_cons_of_ne_nil hne
    rintro ⟨⟩
    simp at hblank
  · rw [signed_append hsigned.1]
    exact hsigned.2
  · intro hclosed
    rw [← List.cons_append, ← List.append_assoc, closed_append hparen] at hclosed
    rw [closed_append hblank, closed_append (by decide)]
    exact hclosed
  · intro hinside
    have hsplit : Rule.shaderParameter.form.OccursIn
        ((textureName ++ ['#']) ++ (textureNote ++ back)) := by
      simpa using hinside
    have hback := Rule.occursIn_of_apart textureNote_apart
      (Rule.occursIn_of_apart textureName_apart hsplit)
    simpa using hback.append_left (ws ++ "ColorRect".toList) nofun

/-- The name that takes the place of `ColorRect` after a keyword, and the comment behind it. -/
theorem occursIn_of_named (hpiece : IsColorRectAfter keyword piece) (hback : Leaves Text.isWord back)
    (h : rule.form.OccursIn
      (front ++ (keyword.toList ++ (textureName ++ '#' :: textureNote)) ++ back)) :
    rule.form.OccursIn (front ++ piece ++ back) := by
  obtain ⟨ws, hne, hws, rfl⟩ := hpiece
  have hparts : rule.form.OccursIn
      ((front ++ keyword.toList ++ textureName) ++ '#' :: (textureNote ++ back)) := by
    simpa using h
  by_cases hown : rule = .colorRect
  · subst hown
    exact ⟨front ++ keyword.toList ++ ws, _, back, nofun, rfl, by simp⟩
  by_cases hrule : rule = .shaderParameter
  · subst hrule
    rw [List.append_assoc] at hparts
    simpa using shader_named hws hne hparts
  have hnumber : rule.form.Lacks '#' := Rule.lacks hrule (by decide) (by decide) (by decide)
  rcases hparts.of_append_cons hnumber with hnamed | hnote
  · have hwords : ∀ c ∈ textureName, Text.isWord c ∨ Text.isBlank c := by decide
    have hfront := Rule.occursIn_of_append_words hown hwords hnamed
    simpa using hfront.append_right (ws ++ "ColorRect".toList ++ back)
  · refine Rule.occursIn_append_left ?_ (.inr hback)
    exact Rule.occursIn_of_apart textureNote_apart hnote

theorem IsColorRectCall.eq_append_paren (h : IsColorRectCall piece) :
    ∃ init, init ≠ [] ∧ ')' ∉ init ∧ piece = init ++ ")".toList := by
  have hblank : ∀ ws, Blanks ws → ')' ∉ ws :=
    fun ws hws hmem => absurd (hws _ hmem) (by decide)
  rcases h with ⟨ws, hws, rfl⟩ | ⟨ws₁, ws₂, hws₁, hws₂, rfl⟩
  · exact ⟨"ColorRect".toList ++ ws ++ "(".toList, by simp, by simp [hblank ws hws], by simp⟩
  · exact ⟨"ColorRect".toList ++ ws₁ ++ ".new".toList ++ ws₂ ++ "(".toList, by simp,
      by simp [hblank ws₁ hws₁, hblank ws₂ hws₂], by simp⟩

theorem IsColorRectCall.occursIn (h : IsColorRectCall piece) :
    Rule.colorRect.form.OccursIn piece := by
  rcases h with ⟨ws, -, rfl⟩ | ⟨ws₁, ws₂, -, -, rfl⟩
  · exact ⟨[], _, ws ++ "()".toList, nofun, rfl, by simp⟩
  · exact ⟨[], _, ws₁ ++ ".new".toList ++ ws₂ ++ "()".toList, nofun, rfl, by simp⟩

theorem shader_constructed (hstart : WordStart front) (hpiece : IsColorRectCall piece)
    (h : Rule.shaderParameter.form.OccursIn
      (front ++ ("TextureRect.new(".toList ++ ')' :: back))) :
    Rule.shaderParameter.form.OccursIn (front ++ (piece ++ back)) := by
  obtain ⟨init, hne, hparen, rfl⟩ := hpiece.eq_append_paren
  have hnew : ')' ∉ "TextureRect.new(".toList ∧ skipBlanks "TextureRect.new(".toList ≠ [] ∧
      ¬ Signed "TextureRect.new(".toList := by
    decide
  rw [List.append_assoc]
  refine shader_exchange (not_across_of_wordStart hstart) ?_ ?_ ?_ ?_ h
  · obtain ⟨c, init, rfl⟩ := List.exists_cons_of_ne_nil hne
    rintro ⟨⟩
    simp at hparen
  · rw [signed_append hnew.2.1]
    exact hnew.2.2
  · intro hclosed
    rw [closed_append hnew.1, closed_cons_paren] at hclosed
    exact (closed_append hparen).mpr (closed_cons_paren.mpr hclosed)
  · intro hinside
    have hapart : ∀ rule ∈ Rule.all,
        Form.apart rule.leads ("TextureRect.new(".toList ++ [')']) := by
      decide
    have hsplit : Rule.shaderParameter.form.OccursIn
        (("TextureRect.new(".toList ++ [')']) ++ back) := by
      simpa using hinside
    simpa using (Rule.occursIn_of_apart hapart hsplit).append_left (init ++ ")".toList) nofun

/-- The construction that takes the place of one of `ColorRect`. -/
theorem occursIn_of_constructed (hstart : WordStart front) (hpiece : IsColorRectCall piece)
    (h : rule.form.OccursIn (front ++ "TextureRect.new()".toList ++ back)) :
    rule.form.OccursIn (front ++ piece ++ back) := by
  by_cases hown : rule = .colorRect
  · subst hown
    exact (hpiece.occursIn.append_left front nofun).append_right back
  by_cases hrule : rule = .shaderParameter
  · subst hrule
    simpa using shader_constructed hstart hpiece (by simpa using h)
  have hparen : rule.form.Lacks ')' := Rule.lacks hrule (by decide) (by decide) (by decide)
  have hparts : rule.form.OccursIn
      (front ++ "TextureRect".toList ++ '.' :: ("new".toList ++ "(".toList) ++ ')' :: back) := by
    simpa using h
  rcases hparts.of_append_cons hparen with hnew | hback
  · rcases Rule.occursIn_of_point hrule hnew with hfront | hcall | ⟨name, close, hmember, hfollows⟩
    · have hoccurs := Rule.occursIn_of_append_words hown (by decide) hfront
      simpa using hoccurs.append_right (piece ++ back)
    · exact absurd hcall (Rule.not_occursIn_of_apart (by decide))
    · obtain ⟨hname, -⟩ := Rule.name_eq_of_follows hmember (by decide) (by decide)
        (leaves_cons (by decide) _) hfollows
      obtain rfl := String.toList_inj.mp hname
      have hnone : ∀ rule ∈ Rule.all, rule.member?.map Prod.fst ≠ some "new" := by decide
      exact absurd (by simp [hmember]) (hnone rule (Rule.mem_all rule))
  · obtain ⟨init, -, -, rfl⟩ := hpiece.eq_append_paren
    exact Rule.occursIn_append_left hback (.inl (wordStart_append_paren front init))

end EditorLink.Migration
