import EditorLink.Proofs.Migration.ReplacedCalls

/-!
# What replacing leaves over

Where a pattern finds something in a rewritten text it finds it in copied characters, when what it
looks for can neither lie in a replacement nor run into one. In copied characters it was there before
the text was rewritten, so one pass leaves nothing over that it looks for itself, and a later pass
brings back nothing that an earlier one removed. This is the case for the passes of `ColorRect`.
-/

namespace EditorLink.Migration

variable {before text out rest replacement front back ws : List Char}

/-! ## Copied words -/

namespace Pattern

variable {p q : Pattern (List Char)}

/-- Every replacement begins with the lead. -/
def LeadsWith (p : Pattern (List Char)) (lead : String) : Prop :=
  ∀ before text replacement rest, p before text = some (replacement, rest) →
    lead.toList <+: replacement

/-- A text that no replacement can run into was copied. -/
theorem Rewritten.copied_prefix {lead : String} {word : List Char} (hlead : p.LeadsWith lead)
    (hword : Form.apart [lead] word) (h : Rewritten p before text (word ++ out)) :
    ∃ rest, text = word ++ rest ∧ Rewritten p (word.reverse ++ before) rest out := by
  induction word generalizing before text with
  | nil => exact ⟨text, rfl, h⟩
  | cons c word ih =>
    have hnot := Form.agree_eq_false_of_apart hword nofun lead (List.mem_singleton_self lead)
    have hrest : Form.apart [lead] word := Form.apart_of_append [c] hword
    generalize hwhole : c :: word ++ out = whole at h
    cases h with
    | done => cases hwhole
    | copied hnone hcopied =>
      obtain ⟨rfl, rfl⟩ := List.cons_eq_cons.mp hwhole
      obtain ⟨rest, rfl, hrewritten⟩ := ih hrest hcopied
      exact ⟨rest, rfl, by simpa using hrewritten⟩
    | replaced hne hmatch hreplaced =>
      have hstarts : lead.toList <+: c :: word ++ out := by
        rw [hwhole]
        exact (hlead _ _ _ _ hmatch).trans (List.prefix_append _ _)
      rw [Form.agree_of_prefix_append hstarts] at hnot
      cases hnot

/-- Where every replacement begins with a word character, a rewritten text that begins otherwise
began so before. -/
theorem Rewritten.leaves (hp : ∀ before text replacement rest, p before text = some (replacement, rest) →
      ¬ Leaves Text.isWord replacement)
    (h : Rewritten p before text out) (hleaves : Leaves Text.isWord out) :
    Leaves Text.isWord text := by
  cases h with
  | done => exact hleaves
  | copied hnone hrest => exact hleaves
  | replaced hne hmatch hrest =>
    exact absurd hleaves (not_leaves_append (hp _ _ _ _ hmatch) _)

/-! ## Places of a rewritten text -/

theorem occursFrom_append {α : Type} {pattern : Pattern α} :
    pattern.occursFrom before (front ++ back) ↔
      (∃ init tail, front = init ++ tail ∧ tail ≠ [] ∧
        (pattern (init.reverse ++ before) (tail ++ back)).isSome) ∨
      pattern.occursFrom (front.reverse ++ before) back := by
  induction front generalizing before with
  | nil =>
    simp
  | cons c front ih =>
    rw [List.cons_append, occursFrom, Bool.or_eq_true, ih, List.reverse_cons, List.append_assoc,
      List.singleton_append, ← or_assoc]
    refine or_congr_left ⟨?_, ?_⟩
    · rintro (hhere | ⟨init, tail, rfl, hne, hlater⟩)
      · exact ⟨[], c :: front, rfl, List.cons_ne_nil _ _, hhere⟩
      · exact ⟨c :: init, tail, rfl, hne, by simpa using hlater⟩
    · rintro ⟨init, tail, heq, hne, hsome⟩
      cases init with
      | nil =>
        obtain rfl : c :: front = tail := heq
        exact .inl hsome
      | cons d init =>
        obtain ⟨rfl, rfl⟩ := List.cons_eq_cons.mp heq
        exact .inr ⟨init, tail, rfl, hne, by simpa using hsome⟩

/-- The pattern `q` finds nothing in a text that `p` has rewritten when it matches only where `p`
does, when a match in copied characters was there before, and when none begins in a replacement.
`Same` says what of the text before a place the pattern `q` depends on. -/
theorem Rewritten.occursFrom_eq_false (Same : List Char → List Char → Prop) {new : List Char}
    (hcopied : ∀ new before c rest out, Same new before → Rewritten p (c :: before) rest out →
      (q new (c :: out)).isSome → (q before (c :: rest)).isSome)
    (hreplaced : ∀ new before piece rest replacement out, Same new before →
      p before (piece ++ rest) = some (replacement, rest) →
      Rewritten p (piece.reverse ++ before) rest out →
      Same (replacement.reverse ++ new) (piece.reverse ++ before) ∧
        ∀ init tail, replacement = init ++ tail → tail ≠ [] →
          q (init.reverse ++ new) (tail ++ out) = none)
    (hsame : ∀ new before c, Same new before → Same (c :: new) (c :: before))
    (h : Rewritten p before text out)
    (honly : ∀ front piece, text = front ++ piece → p (front.reverse ++ before) piece = none →
      q (front.reverse ++ before) piece = none)
    (hstart : Same new before) : q.occursFrom new out = false := by
  induction h generalizing new with
  | done => rfl
  | @copied before rest out c hnone hrest ih =>
    rw [occursFrom, Bool.or_eq_false_iff]
    constructor
    · refine eq_false_of_ne_true fun hsome => ?_
      have hbefore := hcopied _ _ _ _ _ hstart hrest hsome
      have hnowhere : q before (c :: rest) = none := honly [] (c :: rest) rfl hnone
      simp [hnowhere] at hbefore
    · refine ih (fun front piece htext => ?_) (hsame _ _ c hstart)
      have hfront := honly (c :: front) piece (congrArg (c :: ·) htext)
      simpa using hfront
  | @replaced before piece rest out replacement hne hmatch hrest ih =>
    obtain ⟨hnext, hnone⟩ := hreplaced _ _ _ _ _ _ hstart hmatch hrest
    rw [Bool.eq_false_iff, Ne, occursFrom_append]
    rintro (⟨init, tail, heq, htail, hsome⟩ | hlater)
    · simp [hnone init tail heq htail] at hsome
    · rw [ih (fun front other htext => ?_) hnext] at hlater
      · cases hlater
      · have hfront := honly (piece ++ front) other (by rw [htext, List.append_assoc])
        simpa using hfront

end Pattern

/-! ## The passes of ColorRect -/

namespace Form

variable {leads : List String}

theorem agree_append_eq_false {lead : List Char} (h : agree front lead = false) :
    agree (front ++ back) lead = false := by
  induction front generalizing lead with
  | nil => cases h
  | cons c front ih =>
    cases lead with
    | nil => cases h
    | cons d lead =>
      rw [agree, Bool.and_eq_false_iff] at h
      rw [List.cons_append, agree, Bool.and_eq_false_iff]
      exact h.imp_right ih

theorem apart_append (hfront : apart leads front) (hback : apart leads back) :
    apart leads (front ++ back) := by
  induction front with
  | nil => exact hback
  | cons c front ih =>
    have hnot := agree_eq_false_of_apart hfront nofun
    rw [List.cons_append, apart, Bool.and_eq_true, List.all_eq_true]
    refine ⟨fun lead hlead => ?_, ih (apart_of_append [c] hfront)⟩
    rw [← List.cons_append, agree_append_eq_false (hnot lead hlead)]
    rfl

theorem apart_blanks (hleads : ∀ lead ∈ leads, Solid lead) (hws : Blanks ws) : apart leads ws := by
  induction ws with
  | nil => rfl
  | cons c ws ih =>
    obtain ⟨hc, hws⟩ := List.forall_mem_cons.mp hws
    rw [apart, Bool.and_eq_true, List.all_eq_true]
    refine ⟨fun lead hlead => ?_, ih hws⟩
    have hsolid := hleads lead hlead
    unfold Solid at hsolid
    cases hlist : lead.toList with
    | nil => simp [hlist] at hsolid
    | cons d others =>
      have hne : c ≠ d := by
        rintro rfl
        simp [hlist, hc] at hsolid
      simp [agree, hne]

end Form

variable {keyword word : String}

theorem colorRectAfter_leadsWith (keyword : String) :
    (colorRectAfter keyword).LeadsWith keyword := by
  intro before text replacement rest h
  obtain ⟨_, -, -, -, rfl⟩ := colorRectAfter_eq_some_iff.mp h
  exact List.prefix_append _ _

theorem colorRectCall_leadsWith : colorRectCall.LeadsWith "TextureRect.new()" := by
  intro before text replacement rest h
  rw [← List.reverse_reverse before] at h
  obtain ⟨_, -, -, -, rfl⟩ := colorRectCall_eq_some_iff.mp h
  exact List.prefix_refl _

theorem colorRectAfter_isSome_iff : (colorRectAfter keyword before text).isSome ↔
    ∃ ws back, ws ≠ [] ∧ Blanks ws ∧ Leaves Text.isWord back ∧
      text = keyword.toList ++ (ws ++ "ColorRect".toList) ++ back := by
  rw [Option.isSome_iff_exists]
  constructor
  · rintro ⟨⟨replacement, after⟩, h⟩
    obtain ⟨_, ⟨ws, hne, hws, rfl⟩, hend, rfl, -⟩ := colorRectAfter_eq_some_iff.mp h
    exact ⟨ws, after, hne, hws, hend, by simp⟩
  · rintro ⟨ws, after, hne, hws, hend, rfl⟩
    refine ⟨(_, after), colorRectAfter_eq_some_iff.mpr ⟨_, ⟨ws, hne, hws, rfl⟩, hend, ?_, rfl⟩⟩
    simp

/-- `ColorRect` after a keyword, in characters that another pass has copied. -/
theorem colorRectAfter_of_copied {p : Pattern (List Char)} {lead : String} {c : Char}
    {new : List Char} (hlead : p.LeadsWith lead) (hstarts : ¬ Leaves Text.isWord lead.toList)
    (hapart : ∀ ws, ws ≠ [] → Blanks ws →
      Form.apart [lead] (keyword.toList.tail ++ (ws ++ "ColorRect".toList)))
    (hkeyword : keyword.toList ≠ []) (h : Pattern.Rewritten p (c :: before) rest out)
    (hsome : (colorRectAfter keyword new (c :: out)).isSome) :
    (colorRectAfter keyword before (c :: rest)).isSome := by
  obtain ⟨ws, back, hne, hws, hend, heq⟩ := colorRectAfter_isSome_iff.mp hsome
  obtain ⟨d, letters, hletters⟩ := List.exists_cons_of_ne_nil hkeyword
  rw [hletters] at heq hapart
  obtain ⟨rfl, rfl⟩ := List.cons_eq_cons.mp heq
  obtain ⟨back', rfl, hback⟩ := h.copied_prefix hlead (hapart ws hne hws)
  refine colorRectAfter_isSome_iff.mpr ⟨ws, back', hne, hws, hback.leaves ?_ hend, ?_⟩
  · intro before text replacement rest hmatch
    obtain ⟨others, rfl⟩ := hlead _ _ _ _ hmatch
    exact not_leaves_append hstarts others
  · rw [hletters]
    simp

/-- A pattern that looks for a keyword finds none in a text apart from it. -/
theorem colorRectAfter_eq_none (hapart : Form.apart [keyword] front) (hne : front ≠ []) :
    colorRectAfter keyword before (front ++ back) = none := by
  by_contra hsome
  obtain ⟨ws, after, -, -, -, heq⟩ :=
    colorRectAfter_isSome_iff.mp (Option.isSome_iff_ne_none.mpr hsome)
  have hprefix : keyword.toList <+: front ++ back := by
    rw [heq, List.append_assoc]
    exact List.prefix_append _ _
  have hnot := Form.agree_eq_false_of_apart hapart hne keyword (List.mem_singleton_self keyword)
  rw [Form.agree_of_prefix_append hprefix] at hnot
  cases hnot

/-- A pass brings no `ColorRect` after a keyword. -/
theorem colorRectAfter_occurs_replaceAll {p : Pattern (List Char)} {lead : String}
    (hp : p.Consumes) (hlead : p.LeadsWith lead) (hstarts : ¬ Leaves Text.isWord lead.toList)
    (hkeyword : keyword.toList ≠ [])
    (hapart : ∀ ws, ws ≠ [] → Blanks ws →
      Form.apart [lead] (keyword.toList.tail ++ (ws ++ "ColorRect".toList)))
    (hreplaced : ∀ before text replacement rest, p before text = some (replacement, rest) →
      ∀ new out init tail, replacement = init ++ tail → tail ≠ [] →
        colorRectAfter keyword new (tail ++ out) = none)
    (honly : ∀ front piece, text = front ++ piece → p front.reverse piece = none →
      colorRectAfter keyword front.reverse piece = none) :
    (colorRectAfter keyword).occurs (p.replaceAll text) = false := by
  have hrewritten := Pattern.rewritten_replaceFrom hp [] text
  refine hrewritten.occursFrom_eq_false (fun _ _ => True) ?_ ?_ (fun _ _ _ _ => trivial)
    (by simpa using honly) trivial
  · intro new before c rest out _ hcopied
    exact colorRectAfter_of_copied hlead hstarts hapart hkeyword hcopied
  · intro new before piece rest replacement out _ hmatch _
    exact ⟨trivial, fun init tail heq hne => hreplaced _ _ _ _ hmatch _ _ init tail heq hne⟩

/-- What takes the place of `ColorRect` after a keyword. -/
theorem colorRectAfter_replacement
    (hmatch : colorRectAfter keyword before text = some (replacement, rest)) :
    replacement = keyword.toList ++ (textureName ++ '#' :: textureNote) := by
  obtain ⟨_, -, -, -, rfl⟩ := colorRectAfter_eq_some_iff.mp hmatch
  rw [textureName_append]

theorem colorRectAfter_textureName : colorRectAfter keyword before
    (keyword.toList ++ (textureName ++ '#' :: textureNote) ++ back) = none := by
  by_contra hsome
  obtain ⟨ws, after, -, hws, -, heq⟩ :=
    colorRectAfter_isSome_iff.mp (Option.isSome_iff_ne_none.mpr hsome)
  simp only [List.append_assoc, List.append_cancel_left_eq] at heq
  have hname : skipBlanks textureName ≠ [] ∧ (skipBlanks textureName).head? = some 'T' := by
    decide
  have hskip := congrArg (fun text => (skipBlanks text).head?) heq
  rw [skipBlanks_append_of_ne_nil hname.1, List.head?_append_of_ne_nil _ hname.1, hname.2,
    skipBlanks_append hws, skipBlanks_of_leaves ((by decide : Solid "ColorRect").leaves after)]
    at hskip
  simp at hskip

theorem apart_colorRect {leads : List String} (hleads : ∀ lead ∈ leads, Solid lead)
    (hfront : Form.apart leads front) (hname : Form.apart leads "ColorRect".toList)
    (hws : Blanks ws) : Form.apart leads (front ++ (ws ++ "ColorRect".toList)) :=
  Form.apart_append hfront (Form.apart_append (Form.apart_blanks hleads hws) hname)

/-- The pass for a keyword leaves none over. -/
theorem colorRectAfter_leftover (hsolid : Solid keyword)
    (hstarts : ¬ Leaves Text.isWord keyword.toList)
    (hkeyword : Form.apart [keyword] keyword.toList.tail)
    (hname : Form.apart [keyword] "ColorRect".toList)
    (hnote : Form.apart [keyword] (keyword.toList.tail ++ (textureName ++ '#' :: textureNote)))
    (text : List Char) :
    (colorRectAfter keyword).occurs ((colorRectAfter keyword).replaceAll text) = false := by
  have hne : keyword.toList ≠ [] := by
    intro hnil
    simp [Solid, hnil] at hsolid
  refine colorRectAfter_occurs_replaceAll (colorRectAfter_adds keyword).consumes
    (colorRectAfter_leadsWith keyword) hstarts hne ?_ ?_ (fun _ _ _ hnone => hnone)
  · intro ws _ hws
    exact apart_colorRect (by simpa using hsolid) hkeyword hname hws
  · intro before text replacement rest hmatch new out init tail heq htail
    rw [colorRectAfter_replacement hmatch] at heq
    cases init with
    | nil =>
      obtain rfl : _ = tail := heq
      exact colorRectAfter_textureName
    | cons c init =>
      obtain ⟨d, letters, hletters⟩ := List.exists_cons_of_ne_nil hne
      rw [hletters] at heq hnote
      have hinit : letters ++ (textureName ++ '#' :: textureNote) = init ++ tail :=
        (List.cons_eq_cons.mp heq).2
      exact colorRectAfter_eq_none (Form.apart_of_append init (hinit ▸ hnote)) htail

/-- The pass for `extends` brings back no `ColorRect` after `class_name`. -/
theorem class_name_leftover (h : (colorRectAfter "class_name").occurs text = false) :
    (colorRectAfter "class_name").occurs ((colorRectAfter "extends").replaceAll text) = false := by
  have hstarts : ¬ Leaves Text.isWord "extends".toList :=
    fun hleaves => absurd (hleaves 'e' (by decide)) (by decide)
  have hnote : Form.apart ["class_name"] ("extends".toList ++ (textureName ++ '#' :: textureNote)) := by
    decide
  refine colorRectAfter_occurs_replaceAll (colorRectAfter_adds _).consumes
    (colorRectAfter_leadsWith _) hstarts (by decide) ?_ ?_ ?_
  · -- The last letter of `class_name` begins `extends`, but a blank follows it.
    intro ws hne hws
    have hletters : Form.apart ["extends"] "lass_nam".toList := by decide
    have hname : Form.apart ["extends"] "ColorRect".toList := by decide
    have hsplit : "class_name".toList.tail = "lass_nam".toList ++ ['e'] := by decide
    have hblanks := Form.apart_append
      (Form.apart_blanks (by decide : ∀ lead ∈ ["extends"], Solid lead) hws) hname
    rw [hsplit, List.append_assoc]
    refine Form.apart_append hletters ?_
    obtain ⟨blank, ws, rfl⟩ := List.exists_cons_of_ne_nil hne
    have hblank : blank ≠ 'x' := by
      rintro rfl
      exact absurd (hws 'x' List.mem_cons_self) (by decide)
    have hlead : "extends".toList = ['e', 'x', 't', 'e', 'n', 'd', 's'] := by decide
    rw [List.singleton_append, Form.apart, hblanks]
    simp [Form.agree, hlead, hblank]
  · intro before text replacement rest hmatch new out init tail heq htail
    rw [colorRectAfter_replacement hmatch] at heq
    exact colorRectAfter_eq_none (Form.apart_of_append init (heq ▸ hnote)) htail
  · exact fun front piece htext _ =>
      Pattern.eq_none_of_occurs (colorRectAfter_adds _).consumes.nil h htext

/-- The pass for constructions brings back no `ColorRect` after a keyword. -/
theorem keyword_leftover (hkeyword : keyword.toList ≠ [])
    (hletters : Form.apart ["TextureRect.new()"] keyword.toList.tail)
    (hcall : Form.apart [keyword] "TextureRect.new()".toList)
    (h : (colorRectAfter keyword).occurs text = false) :
    (colorRectAfter keyword).occurs (colorRectCall.replaceAll text) = false := by
  have hstarts : ¬ Leaves Text.isWord "TextureRect.new()".toList :=
    fun hleaves => absurd (hleaves 'T' (by decide)) (by decide)
  have hname : Form.apart ["TextureRect.new()"] "ColorRect".toList := by decide
  refine colorRectAfter_occurs_replaceAll colorRectCall_adds.consumes colorRectCall_leadsWith hstarts
    hkeyword ?_ ?_ ?_
  · intro ws _ hws
    exact apart_colorRect (by decide) hletters hname hws
  · intro before text replacement rest hmatch new out init tail heq htail
    rw [← List.reverse_reverse before] at hmatch
    obtain ⟨_, -, -, -, rfl⟩ := colorRectCall_eq_some_iff.mp hmatch
    exact colorRectAfter_eq_none (Form.apart_of_append init (heq ▸ hcall)) htail
  · exact fun front piece htext _ =>
      Pattern.eq_none_of_occurs (colorRectAfter_adds _).consumes.nil h htext

/-! ## Constructions -/

theorem colorRectCall_isSome_iff : (colorRectCall before text).isSome ↔
    atWordStart before ∧ ∃ piece back, IsColorRectCall piece ∧ text = piece ++ back := by
  rw [Option.isSome_iff_exists, ← List.reverse_reverse before]
  simp only [Prod.exists, colorRectCall_eq_some_iff, atWordStart_reverse]
  constructor
  · rintro ⟨_, after, piece, hstart, hpiece, rfl, -⟩
    exact ⟨hstart, piece, after, hpiece, rfl⟩
  · rintro ⟨hstart, piece, after, hpiece, rfl⟩
    exact ⟨_, after, piece, hstart, hpiece, rfl, rfl⟩

/-- The letters of a construction but the first, of which a replacement can begin with none. -/
theorem IsColorRectCall.apart {piece : List Char} (h : IsColorRectCall piece) :
    ∃ letters, piece = 'C' :: letters ∧ Form.apart ["TextureRect.new()"] letters := by
  have hlead : ∀ lead ∈ ["TextureRect.new()"], Solid lead := by decide
  have hname : Form.apart ["TextureRect.new()"] "olorRect".toList := by decide
  have hnew : Form.apart ["TextureRect.new()"] ".new".toList := by decide
  have hparens : Form.apart ["TextureRect.new()"] "()".toList := by decide
  rcases h with ⟨ws, hws, rfl⟩ | ⟨ws₁, ws₂, hws₁, hws₂, rfl⟩
  · refine ⟨"olorRect".toList ++ (ws ++ "()".toList), by simp, ?_⟩
    exact Form.apart_append hname (Form.apart_append (Form.apart_blanks hlead hws) hparens)
  · refine ⟨"olorRect".toList ++ (ws₁ ++ (".new".toList ++ (ws₂ ++ "()".toList))), by simp, ?_⟩
    refine Form.apart_append hname (Form.apart_append (Form.apart_blanks hlead hws₁) ?_)
    exact Form.apart_append hnew (Form.apart_append (Form.apart_blanks hlead hws₂) hparens)

/-- The pass for constructions leaves none over. -/
theorem colorRectCall_leftover (text : List Char) :
    colorRectCall.occurs (colorRectCall.replaceAll text) = false := by
  have hrewritten := Pattern.rewritten_replaceFrom colorRectCall_adds.consumes [] text
  refine hrewritten.occursFrom_eq_false (fun new before => atWordStart new = atWordStart before)
    ?_ ?_ (fun _ _ _ _ => rfl) (fun _ _ _ hnone => hnone) rfl
  · intro new before c rest out hsame hrest hsome
    obtain ⟨hstart, piece, back, hpiece, heq⟩ := colorRectCall_isSome_iff.mp hsome
    obtain ⟨letters, rfl, hletters⟩ := hpiece.apart
    obtain ⟨rfl, rfl⟩ := List.cons_eq_cons.mp heq
    obtain ⟨back', rfl, -⟩ := hrest.copied_prefix colorRectCall_leadsWith hletters
    exact colorRectCall_isSome_iff.mpr ⟨hsame ▸ hstart, _, back', hpiece, rfl⟩
  · intro new before piece rest replacement out _ hmatch _
    rw [← List.reverse_reverse before] at hmatch
    obtain ⟨piece, -, hpiece, heq, rfl⟩ := colorRectCall_eq_some_iff.mp hmatch
    obtain rfl := List.append_cancel_right heq
    obtain ⟨init, -, -, rfl⟩ := hpiece.eq_append_paren
    refine ⟨?_, fun init tail heq hne => ?_⟩
    · have hnew : "TextureRect.new()".toList = "TextureRect.new(".toList ++ ")".toList := by
        decide
      rw [hnew, List.reverse_append, List.reverse_append]
      rfl
    · refine Option.not_isSome_iff_eq_none.mp fun hsome => ?_
      obtain ⟨-, piece, back, hother, hpieceEq⟩ := colorRectCall_isSome_iff.mp hsome
      obtain ⟨letters, rfl, -⟩ := hother.apart
      obtain ⟨c, tail, rfl⟩ := List.exists_cons_of_ne_nil hne
      obtain ⟨rfl, -⟩ := List.cons_eq_cons.mp hpieceEq
      have hletter : 'C' ∉ "TextureRect.new()".toList := by decide
      simp [heq] at hletter

/-- The edit of `ColorRect` leaves nothing over that one of its passes looks for. -/
theorem colorRect_edit_leftover (source : List Char) : ∀ pass ∈ FixStrategy.colorRect.passes,
    pass.occurs (FixStrategy.colorRect.edit source) = false := by
  have hclass : (colorRectAfter "class_name").occurs
      ((colorRectAfter "class_name").replaceAll source) = false := by
    refine colorRectAfter_leftover (by decide) ?_ ?_ ?_ ?_ source
    · exact fun hleaves => absurd (hleaves 'c' (by decide)) (by decide)
    all_goals decide
  have hextends : ∀ text, (colorRectAfter "extends").occurs
      ((colorRectAfter "extends").replaceAll text) = false := by
    refine colorRectAfter_leftover (by decide) ?_ ?_ ?_ ?_
    · exact fun hleaves => absurd (hleaves 'e' (by decide)) (by decide)
    all_goals decide
  have hedit : FixStrategy.colorRect.edit source = colorRectCall.replaceAll
      ((colorRectAfter "extends").replaceAll ((colorRectAfter "class_name").replaceAll source)) :=
    rfl
  rw [hedit]
  simp only [FixStrategy.passes, List.forall_mem_cons]
  refine ⟨?_, ?_, colorRectCall_leftover _, List.forall_mem_nil _⟩
  · exact keyword_leftover (by decide) (by decide) (by decide)
      (class_name_leftover hclass)
  · exact keyword_leftover (by decide) (by decide) (by decide) (hextends _)

theorem colorRect_not_appliesTo_edit (source : List Char) :
    ¬ FixStrategy.AppliesTo (FixStrategy.colorRect.edit source) .colorRect := by
  intro happlies
  obtain ⟨pass, hpass, hoccurs⟩ := (FixStrategy.exists_pass_iff .colorRect).mpr happlies
  simp [colorRect_edit_leftover source pass hpass] at hoccurs

end EditorLink.Migration
