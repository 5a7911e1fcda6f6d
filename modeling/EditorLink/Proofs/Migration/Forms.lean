import Mathlib.Data.List.Infix
import EditorLink.Proofs.Migration.Detection

/-!
# Where forms occur in a text put together

A form is a set of pieces, some of which count only at the start of a word. What a rule looks for
is a form. This module says where a form can occur in a text that is put together from parts: a
character that no piece holds keeps the parts apart, a part without a closing character ends no
piece, and a part that agrees with no lead starts none. For the names that rules look for behind a
point, the point alone decides.
-/

namespace EditorLink.Migration

/-- Pieces of a text, which may count only where a word starts. -/
structure Form where
  IsPiece : List Char → Prop
  startsWord : Bool := false

namespace Form

def OccursIn (form : Form) (source : List Char) : Prop :=
  ∃ front piece back, (form.startsWord → WordStart front) ∧ form.IsPiece piece ∧
    source = front ++ piece ++ back

/-- No piece holds the character. -/
def Lacks (form : Form) (c : Char) : Prop := ∀ piece, form.IsPiece piece → c ∉ piece

/-- Every piece ends with one of the characters. -/
def EndsWith (form : Form) (closers : List Char) : Prop :=
  ∀ piece, form.IsPiece piece → ∃ init, ∃ closer ∈ closers, piece = init ++ [closer]

/-- Every piece begins with one of the leads. -/
def BeginsWith (form : Form) (leads : List String) : Prop :=
  ∀ piece, form.IsPiece piece → ∃ lead ∈ leads, lead.toList <+: piece

/-- The two texts do not differ before one of them ends. -/
def agree : List Char → List Char → Bool
  | c :: cs, d :: ds => c == d && agree cs ds
  | _, _ => true

/-- At no place of the text can one of the leads begin, whatever follows the text. -/
def apart (leads : List String) : List Char → Bool
  | [] => true
  | c :: rest => leads.all (fun lead => !agree (c :: rest) lead.toList) && apart leads rest

theorem agree_of_prefix_append {lead rest back : List Char} (h : lead <+: rest ++ back) :
    agree rest lead := by
  induction rest generalizing lead with
  | nil => rfl
  | cons c rest ih =>
    cases lead with
    | nil => rfl
    | cons d lead =>
      obtain ⟨rfl, hrest⟩ := List.cons_prefix_cons.mp h
      simpa [agree] using ih hrest

theorem agree_eq_false_of_apart {leads : List String} {rest : List Char} (h : apart leads rest)
    (hne : rest ≠ []) : ∀ lead ∈ leads, agree rest lead.toList = false := by
  obtain ⟨c, rest, rfl⟩ := List.exists_cons_of_ne_nil hne
  rw [apart, Bool.and_eq_true, List.all_eq_true] at h
  simpa using h.1

theorem apart_of_append {leads : List String} (front : List Char) {back : List Char}
    (h : apart leads (front ++ back)) : apart leads back := by
  induction front with
  | nil => exact h
  | cons c front ih =>
    rw [List.cons_append, apart, Bool.and_eq_true] at h
    exact ih h.2

end Form

section

variable {form : Form} {front back text piece : List Char} {c : Char}

theorem wordStart_nil : WordStart [] := by
  rintro c ⟨⟩

theorem WordStart.of_append (h : WordStart (front ++ back)) : WordStart back := by
  cases back with
  | nil => exact wordStart_nil
  | cons d back =>
    intro c hc
    exact h c (by simpa [List.getLast?_append] using hc)

theorem WordStart.append (hfront : WordStart front) (hback : WordStart back) :
    WordStart (front ++ back) := by
  cases back with
  | nil => simpa using hfront
  | cons d back =>
    intro c hc
    exact hback c (by simpa [List.getLast?_append] using hc)

theorem wordStart_append_singleton (front : List Char) (hc : Text.isWord c = false) :
    WordStart (front ++ [c]) := by
  intro d hd
  obtain rfl : c = d := by simpa using hd
  exact hc

namespace Form

theorem OccursIn.append_right (h : form.OccursIn front) (back : List Char) :
    form.OccursIn (front ++ back) := by
  obtain ⟨before, piece, after, hstart, hpiece, rfl⟩ := h
  exact ⟨before, piece, after ++ back, hstart, hpiece, by simp⟩

theorem OccursIn.append_left (h : form.OccursIn back) (front : List Char)
    (hfront : form.startsWord → WordStart front) : form.OccursIn (front ++ back) := by
  obtain ⟨before, piece, after, hstart, hpiece, rfl⟩ := h
  exact ⟨front ++ before, piece, after, fun hword => (hfront hword).append (hstart hword), hpiece,
    by simp⟩

/-- A form that occurs in a text of two parts occurs in one of them or lies across the cut. -/
theorem OccursIn.cut (h : form.OccursIn (front ++ back)) :
    form.OccursIn front ∨
      (∃ before init rest after, form.IsPiece (init ++ rest) ∧ init ≠ [] ∧ rest ≠ [] ∧
        (form.startsWord → WordStart before) ∧ front = before ++ init ∧ back = rest ++ after) ∨
      form.OccursIn back := by
  obtain ⟨before, piece, after, hstart, hpiece, heq⟩ := h
  rw [List.append_assoc] at heq
  rcases List.append_eq_append_iff.mp heq with ⟨gap, rfl, hback⟩ | ⟨gap, rfl, hback⟩
  · exact .inr (.inr ⟨gap, piece, after, fun hword => (hstart hword).of_append, hpiece,
      by simpa using hback⟩)
  · rcases List.append_eq_append_iff.mp hback with ⟨rest, rfl, rfl⟩ | ⟨rest, rfl, rfl⟩
    · exact .inl ⟨before, piece, rest, hstart, hpiece, by simp⟩
    · rcases eq_or_ne gap [] with rfl | hgap
      · exact .inr (.inr ⟨[], rest, after, fun _ => wordStart_nil, hpiece, rfl⟩)
      · rcases eq_or_ne rest [] with rfl | hrest
        · exact .inl ⟨before, gap, [], hstart, by simpa using hpiece, by simp⟩
        · exact .inr (.inl ⟨before, gap, rest, after, hpiece, hgap, hrest, hstart, rfl, rfl⟩)

/-- A character that no piece holds keeps what stands before it and after it apart. -/
theorem OccursIn.of_append_cons (hc : form.Lacks c) (h : form.OccursIn (front ++ c :: back)) :
    form.OccursIn front ∨ form.OccursIn back := by
  rcases h.cut with hfront | ⟨_, init, rest, after, hpiece, -, hrest, -, -, hback⟩ |
    ⟨before, piece, after, hstart, hpiece, hback⟩
  · exact .inl hfront
  · obtain ⟨d, rest, rfl⟩ := List.exists_cons_of_ne_nil hrest
    obtain ⟨rfl, -⟩ := List.cons_eq_cons.mp hback
    exact absurd (by simp) (hc _ hpiece)
  · cases before with
    | nil =>
      cases piece with
      | nil => exact .inl ⟨[], [], front, fun _ => wordStart_nil, hpiece, rfl⟩
      | cons d piece =>
        obtain ⟨rfl, -⟩ := List.cons_eq_cons.mp hback
        exact absurd List.mem_cons_self (hc _ hpiece)
    | cons d before =>
      obtain ⟨rfl, rfl⟩ := List.cons_eq_cons.mp hback
      have hbefore : WordStart ([c] ++ before) → WordStart before := WordStart.of_append
      exact .inr ⟨before, piece, after, fun hword => hbefore (hstart hword), hpiece, rfl⟩

/-- A part at the end that holds no closing character ends no piece. -/
theorem OccursIn.of_append_of_endsWith {closers : List Char} (hends : form.EndsWith closers)
    (hback : ∀ closer ∈ closers, closer ∉ back) (h : form.OccursIn (front ++ back)) :
    form.OccursIn front := by
  rcases h.cut with hfront | ⟨_, init, rest, after, hpiece, -, hrest, -, -, rfl⟩ |
    ⟨before, piece, after, -, hpiece, rfl⟩
  · exact hfront
  · obtain ⟨start, closer, hcloser, heq⟩ := hends _ hpiece
    have hlast := congrArg List.getLast? heq
    rw [List.getLast?_append_of_ne_nil _ hrest, List.getLast?_concat] at hlast
    exact absurd (List.mem_append_left after (List.mem_of_getLast? hlast)) (hback closer hcloser)
  · obtain ⟨start, closer, hcloser, rfl⟩ := hends _ hpiece
    exact absurd (by simp) (hback closer hcloser)

/-- A part at the start that is apart from every lead starts no piece. -/
theorem OccursIn.of_append_of_apart {leads : List String} (hbegins : form.BeginsWith leads)
    (hapart : apart leads front) (h : form.OccursIn (front ++ back)) : form.OccursIn back := by
  obtain ⟨before, piece, after, hstart, hpiece, heq⟩ := h
  rw [List.append_assoc] at heq
  rcases List.append_eq_append_iff.mp heq with ⟨gap, rfl, rfl⟩ | ⟨gap, rfl, hback⟩
  · exact ⟨gap, piece, after, fun hword => (hstart hword).of_append, hpiece, by simp⟩
  · rcases eq_or_ne gap [] with rfl | hgap
    · exact ⟨[], piece, after, fun _ => wordStart_nil, hpiece, hback.symm⟩
    · obtain ⟨lead, hlead, hprefix⟩ := hbegins piece hpiece
      have hfalse := agree_eq_false_of_apart (apart_of_append before hapart) hgap lead hlead
      have hleads : lead.toList <+: gap ++ back := hback ▸ hprefix.trans (List.prefix_append _ _)
      rw [agree_of_prefix_append hleads] at hfalse
      cases hfalse

end Form

end

/-! ## The forms of rules -/

def IsCall (name : String) (piece : List Char) : Prop :=
  ∃ ws, Blanks ws ∧ piece = ".".toList ++ name.toList ++ ws ++ "(".toList

def IsShaderArithmetic (piece : List Char) : Prop :=
  ∃ argument ws sign, argument ≠ [] ∧ ')' ∉ argument ∧ Blanks ws ∧ sign ∈ ['+', '-', '*', '/'] ∧
    piece = "get_shader_parameter(".toList ++ argument ++ ")".toList ++ ws ++ [sign]

namespace Rule

def form : Rule → Form
  | .hasProperty => ⟨IsCall "has_property", false⟩
  | .setLooped => ⟨IsCall "set_looped", false⟩
  | .colorAtOffset => ⟨IsCall "get_color_at_offset", false⟩
  | .colorRect => ⟨(· = "ColorRect".toList), false⟩
  | .shaderParameter => ⟨IsShaderArithmetic, false⟩
  | .material property => ⟨IsTarget property, true⟩

/-- The name that a rule looks for behind a point, and the character that closes the piece. -/
def member? : Rule → Option (String × Char)
  | .hasProperty => some ("has_property", '(')
  | .setLooped => some ("set_looped", '(')
  | .colorAtOffset => some ("get_color_at_offset", '(')
  | .colorRect => none
  | .shaderParameter => none
  | .material property => some (property.name, '=')

/-- How the pieces of a rule begin. -/
def leads : Rule → List String
  | .hasProperty => [".has_property"]
  | .setLooped => [".set_looped"]
  | .colorAtOffset => [".get_color_at_offset"]
  | .colorRect => ["ColorRect"]
  | .shaderParameter => ["get_shader_parameter("]
  | .material _ => ["material", "process_material"]

/-- How the pieces of a rule end. -/
def closers : Rule → List Char
  | .hasProperty => ['(']
  | .setLooped => ['(']
  | .colorAtOffset => ['(']
  | .colorRect => ['t']
  | .shaderParameter => ['+', '-', '*', '/']
  | .material _ => ['=']

variable {rule : Rule} {source : List Char}

theorem callOccurs_iff {name : String} :
    CallOccurs name source ↔ (Form.mk (IsCall name) false).OccursIn source := by
  constructor
  · rintro ⟨front, ws, back, hws, rfl⟩
    exact ⟨front, _, back, fun _ => by contradiction, ⟨ws, hws, rfl⟩, by simp⟩
  · rintro ⟨front, piece, back, -, ⟨ws, hws, rfl⟩, rfl⟩
    exact ⟨front, ws, back, hws, by simp⟩

theorem occursIn_iff (rule : Rule) : rule.OccursIn source ↔ rule.form.OccursIn source := by
  cases rule with
  | hasProperty => exact callOccurs_iff
  | setLooped => exact callOccurs_iff
  | colorAtOffset => exact callOccurs_iff
  | colorRect => simp [OccursIn, form, Form.OccursIn]
  | shaderParameter =>
    constructor
    · rintro ⟨front, argument, ws, sign, back, hne, hmem, hws, hsign, rfl⟩
      exact ⟨front, _, back, fun _ => by contradiction, ⟨argument, ws, sign, hne, hmem, hws, hsign,
        rfl⟩, by simp⟩
    · rintro ⟨front, piece, back, -, ⟨argument, ws, sign, hne, hmem, hws, hsign, rfl⟩, rfl⟩
      exact ⟨front, argument, ws, sign, back, hne, hmem, hws, hsign, by simp⟩
  | material property =>
    constructor
    · rintro ⟨front, target, back, hstart, htarget, rfl⟩
      exact ⟨front, target, back, fun _ => hstart, htarget, rfl⟩
    · rintro ⟨front, target, back, hstart, htarget, rfl⟩
      exact ⟨front, target, back, hstart rfl, htarget, rfl⟩

theorem beginsWith (rule : Rule) : rule.form.BeginsWith rule.leads := by
  cases rule with
  | colorRect =>
    rintro piece rfl
    exact ⟨_, List.mem_singleton_self _, List.prefix_refl _⟩
  | shaderParameter =>
    rintro piece ⟨argument, ws, sign, -, -, -, -, rfl⟩
    exact ⟨_, List.mem_singleton_self _, by simp [List.append_assoc]⟩
  | material property =>
    rintro piece ⟨lead, ws₁, ws₂, ws₃, rfl | rfl, -, -, -, rfl⟩
    · exact ⟨"material", by simp [leads], by simp [List.append_assoc]⟩
    · exact ⟨"process_material", by simp [leads], by simp [List.append_assoc]⟩
  | _ =>
    rintro piece ⟨ws, -, rfl⟩
    exact ⟨_, List.mem_singleton_self _, by simp⟩

theorem endsWith (rule : Rule) : rule.form.EndsWith rule.closers := by
  cases rule with
  | colorRect =>
    rintro piece rfl
    exact ⟨"ColorRec".toList, 't', by simp [closers], by simp⟩
  | shaderParameter =>
    rintro piece ⟨argument, ws, sign, -, -, -, hsign, rfl⟩
    exact ⟨_, sign, hsign, rfl⟩
  | material property =>
    rintro piece ⟨lead, ws₁, ws₂, ws₃, -, -, -, -, rfl⟩
    exact ⟨_, '=', List.mem_singleton_self _, rfl⟩
  | _ =>
    rintro piece ⟨ws, -, rfl⟩
    exact ⟨_, '(', List.mem_singleton_self _, rfl⟩

/-- A text at the start where no rule can begin a piece. -/
theorem occursIn_of_apart {front back : List Char}
    (hapart : ∀ rule ∈ Rule.all, Form.apart rule.leads front)
    (h : rule.form.OccursIn (front ++ back)) : rule.form.OccursIn back :=
  h.of_append_of_apart rule.beginsWith (hapart rule (Rule.mem_all rule))

theorem not_occursIn_nil : ¬ rule.form.OccursIn [] := by
  rintro ⟨before, piece, after, -, hpiece, heq⟩
  obtain ⟨init, closer, -, rfl⟩ := rule.endsWith piece hpiece
  simp at heq

theorem not_occursIn_of_apart (hapart : ∀ rule ∈ Rule.all, Form.apart rule.leads source) :
    ¬ rule.form.OccursIn source :=
  fun h => not_occursIn_nil (occursIn_of_apart hapart (by simpa using h))

/-- Only a name alone can end with a letter. -/
theorem isWord_closer (hrule : rule ≠ .colorRect) :
    ∀ closer ∈ rule.closers, Text.isWord closer = false ∧ Text.isBlank closer = false := by
  have hall : ∀ rule ∈ Rule.all, rule ≠ .colorRect →
      ∀ closer ∈ rule.closers, Text.isWord closer = false ∧ Text.isBlank closer = false := by
    decide
  exact hall rule (Rule.mem_all rule) hrule

/-- Words and blanks end no piece but a name alone. -/
theorem occursIn_of_append_words {front back : List Char} (hrule : rule ≠ .colorRect)
    (hback : ∀ c ∈ back, Text.isWord c ∨ Text.isBlank c)
    (h : rule.form.OccursIn (front ++ back)) : rule.form.OccursIn front := by
  refine h.of_append_of_endsWith rule.endsWith fun closer hcloser hmem => ?_
  obtain ⟨hword, hblank⟩ := isWord_closer hrule closer hcloser
  rcases hback closer hmem with h | h
  · simp [hword] at h
  · simp [hblank] at h

/-! ## Characters of pieces -/

variable {piece : List Char} {c : Char}

theorem isWord_of_mem_name {property : MaterialProperty} (h : c ∈ property.name.toList) :
    Text.isWord c := by
  have hall : ∀ property : MaterialProperty, ∀ d ∈ property.name.toList, Text.isWord d := by
    intro property
    cases property <;> decide
  exact hall property c h

theorem isWord_of_mem_colorRect (hpiece : Rule.colorRect.form.IsPiece piece) (hc : c ∈ piece) :
    Text.isWord c := by
  obtain rfl : piece = "ColorRect".toList := hpiece
  have hall : ∀ d ∈ "ColorRect".toList, Text.isWord d := by decide
  exact hall c hc

/-- Words, blanks and three other characters are all that the pieces of a rule hold, unless the rule
looks for arguments of a call. -/
theorem mem_piece (hrule : rule ≠ .shaderParameter) (hpiece : rule.form.IsPiece piece)
    (hc : c ∈ piece) : Text.isWord c ∨ Text.isBlank c ∨ c ∈ ['.', '(', '='] := by
  have hcall : ∀ name : String, (∀ d ∈ name.toList, Text.isWord d) → IsCall name piece →
      Text.isWord c ∨ Text.isBlank c ∨ c ∈ ['.', '(', '='] := by
    rintro name hname ⟨ws, hws, rfl⟩
    simp only [List.mem_append] at hc
    rcases hc with ((hc | hc) | hc) | hc
    · exact .inr (.inr (by simp_all))
    · exact .inl (hname c hc)
    · exact .inr (.inl (hws c hc))
    · exact .inr (.inr (by simp_all))
  cases rule with
  | hasProperty => exact hcall "has_property" (by decide) hpiece
  | setLooped => exact hcall "set_looped" (by decide) hpiece
  | colorAtOffset => exact hcall "get_color_at_offset" (by decide) hpiece
  | colorRect => exact .inl (isWord_of_mem_colorRect hpiece hc)
  | shaderParameter => exact absurd rfl hrule
  | material property =>
    obtain ⟨lead, ws₁, ws₂, ws₃, hlead, hws₁, hws₂, hws₃, rfl⟩ := hpiece
    have hword : ∀ d ∈ lead ++ "material".toList, Text.isWord d := by
      rcases hlead with rfl | rfl <;> decide
    simp only [List.append_assoc, List.mem_append] at hc hword
    rcases hc with hc | hc | hc | hc | hc | hc | hc | hc
    · exact .inl (hword c (.inl hc))
    · exact .inl (hword c (.inr hc))
    · exact .inr (.inl (hws₁ c hc))
    · exact .inr (.inr (by simp_all))
    · exact .inr (.inl (hws₂ c hc))
    · exact .inl (isWord_of_mem_name hc)
    · exact .inr (.inl (hws₃ c hc))
    · exact .inr (.inr (by simp_all))

theorem lacks (hrule : rule ≠ .shaderParameter) (hword : Text.isWord c = false)
    (hblank : Text.isBlank c = false) (hc : c ∉ ['.', '(', '=']) : rule.form.Lacks c := by
  intro piece hpiece hmem
  rcases mem_piece hrule hpiece hmem with h | h | h
  · simp [hword] at h
  · simp [hblank] at h
  · exact hc h

theorem colorRect_lacks (hword : Text.isWord c = false) : Rule.colorRect.form.Lacks c := by
  intro piece hpiece hmem
  simp [isWord_of_mem_colorRect hpiece hmem] at hword

/-! ## Names behind a point -/

variable {name : String} {close : Char} {front back : List Char}

/-- A text that goes on with a name between blanks and the closing character. -/
def Follows (name : String) (close : Char) (text : List Char) : Prop :=
  ∃ ws₁ ws₂ back, Blanks ws₁ ∧ Blanks ws₂ ∧
    text = ws₁ ++ name.toList ++ ws₂ ++ close :: back

/-- A piece with a name has its only point before the name. -/
theorem piece_of_member (h : rule.member? = some (name, close)) (hpiece : rule.form.IsPiece piece) :
    ∃ lead ws₁ ws₂, '.' ∉ lead ∧ Blanks ws₁ ∧ Blanks ws₂ ∧
      piece = lead ++ '.' :: (ws₁ ++ name.toList ++ ws₂ ++ [close]) := by
  cases rule with
  | colorRect => cases h
  | shaderParameter => cases h
  | material property =>
    cases h
    obtain ⟨lead, ws₁, ws₂, ws₃, hlead, hws₁, hws₂, hws₃, rfl⟩ := hpiece
    refine ⟨lead ++ "material".toList ++ ws₁, ws₂, ws₃, ?_, hws₂, hws₃, by simp⟩
    have hblank : '.' ∉ ws₁ := fun hmem => absurd (hws₁ _ hmem) (by decide)
    rcases hlead with rfl | rfl <;> simp [hblank]
  | _ =>
    cases h
    obtain ⟨ws, hws, rfl⟩ := hpiece
    exact ⟨[], [], ws, by simp, by simp [Blanks], hws, by simp⟩

theorem point_not_mem (h : rule.member? = some (name, close)) :
    '.' ∉ name.toList ∧ close ≠ '.' := by
  cases rule with
  | material property => cases property <;> cases h <;> decide
  | _ => cases h <;> decide

theorem not_occursIn_of_no_point (h : rule.member? = some (name, close)) (hpoint : '.' ∉ source) :
    ¬ rule.form.OccursIn source := by
  rintro ⟨before, piece, after, -, hpiece, rfl⟩
  obtain ⟨lead, ws₁, ws₂, -, -, -, rfl⟩ := piece_of_member h hpiece
  simp at hpoint

/-- Around a point a piece lies before it, behind it, or goes on behind it with the name. -/
theorem occursIn_of_point_of_member (h : rule.member? = some (name, close))
    (hoccurs : rule.form.OccursIn (front ++ '.' :: back)) :
    rule.form.OccursIn front ∨ rule.form.OccursIn back ∨ Follows name close back := by
  obtain ⟨hname, hclose⟩ := point_not_mem h
  have htail : ∀ ws₁ ws₂, Blanks ws₁ → Blanks ws₂ →
      '.' ∉ ws₁ ++ name.toList ++ ws₂ ++ [close] := by
    intro ws₁ ws₂ hws₁ hws₂ hmem
    have hblank : ∀ ws, Blanks ws → '.' ∉ ws := fun ws hws hmem => absurd (hws _ hmem) (by decide)
    simp [hblank ws₁ hws₁, hblank ws₂ hws₂, hname, hclose.symm] at hmem
  rcases hoccurs.cut with hfront | ⟨before, init, rest, after, hpiece, -, hrest, -, -, hback⟩ |
    ⟨before, piece, after, hstart, hpiece, hback⟩
  · exact .inl hfront
  · obtain ⟨d, rest, rfl⟩ := List.exists_cons_of_ne_nil hrest
    obtain ⟨rfl, rfl⟩ := List.cons_eq_cons.mp hback
    obtain ⟨lead, ws₁, ws₂, hlead, hws₁, hws₂, heq⟩ := piece_of_member h hpiece
    rcases List.append_eq_append_iff.mp heq with ⟨gap, rfl, hgap⟩ | ⟨gap, rfl, hgap⟩
    · cases gap with
      | nil =>
        obtain ⟨-, rfl⟩ := List.cons_eq_cons.mp hgap
        exact .inr (.inr ⟨ws₁, ws₂, after, hws₁, hws₂, by simp⟩)
      | cons d gap =>
        obtain ⟨rfl, -⟩ := List.cons_eq_cons.mp hgap
        simp at hlead
    · cases gap with
      | nil =>
        obtain ⟨-, rfl⟩ := List.cons_eq_cons.mp hgap
        exact .inr (.inr ⟨ws₁, ws₂, after, hws₁, hws₂, by simp⟩)
      | cons d gap =>
        obtain ⟨-, hgap⟩ := List.cons_eq_cons.mp hgap
        exact absurd (hgap ▸ by simp) (htail ws₁ ws₂ hws₁ hws₂)
  · cases before with
    | nil =>
      obtain ⟨lead, ws₁, ws₂, hlead, hws₁, hws₂, rfl⟩ := piece_of_member h hpiece
      cases lead with
      | nil =>
        obtain ⟨-, rfl⟩ := List.cons_eq_cons.mp hback
        exact .inr (.inr ⟨ws₁, ws₂, after, hws₁, hws₂, by simp⟩)
      | cons d lead =>
        obtain ⟨rfl, -⟩ := List.cons_eq_cons.mp hback
        simp at hlead
    | cons d before =>
      obtain ⟨rfl, rfl⟩ := List.cons_eq_cons.mp hback
      have hbefore : WordStart (['.'] ++ before) → WordStart before := WordStart.of_append
      exact .inr (.inl ⟨before, piece, after, fun hword => hbefore (hstart hword), hpiece, rfl⟩)

theorem occursIn_of_point (hrule : rule ≠ .shaderParameter)
    (hoccurs : rule.form.OccursIn (front ++ '.' :: back)) :
    rule.form.OccursIn front ∨ rule.form.OccursIn back ∨
      ∃ name close, rule.member? = some (name, close) ∧ Follows name close back := by
  cases hmember : rule.member? with
  | none =>
    obtain rfl : rule = .colorRect := by cases rule <;> first | rfl | contradiction
    exact (hoccurs.of_append_cons (colorRect_lacks (by decide))).imp_right .inl
  | some member =>
    exact (occursIn_of_point_of_member hmember hoccurs).imp_right
      (.imp_right fun hfollows => ⟨_, _, rfl, hfollows⟩)

/-- Only the rule that looks for a bare name finds something in a text without a point. -/
theorem eq_colorRect_of_no_point (hrule : rule ≠ .shaderParameter) (hpoint : '.' ∉ source)
    (h : rule.form.OccursIn source) : rule = .colorRect := by
  cases hmember : rule.member? with
  | none => cases rule <;> first | rfl | contradiction
  | some member => exact absurd h (not_occursIn_of_no_point hmember hpoint)

/-- The name that follows is the word that the text goes on with, and after it and blanks comes the
closing character. -/
theorem name_eq_of_follows {word : List Char} (h : rule.member? = some (name, close))
    (hword : ∀ c ∈ word, Text.isWord c) (hne : word ≠ []) (hback : Leaves Text.isWord back)
    (hfollows : Follows name close (word ++ back)) :
    name.toList = word ∧ (skipBlanks back).head? = some close := by
  have hname : (∀ c ∈ name.toList, Text.isWord c) ∧ name.toList ≠ [] ∧
      Text.isWord close = false ∧ Text.isBlank close = false := by
    cases rule with
    | material property => cases property <;> cases h <;> decide
    | _ => cases h <;> decide
  obtain ⟨ws₁, ws₂, after, hws₁, hws₂, heq⟩ := hfollows
  have hblank : ws₁ = [] := by
    cases ws₁ with
    | nil => rfl
    | cons d ws₁ =>
      obtain ⟨e, word, rfl⟩ := List.exists_cons_of_ne_nil hne
      obtain ⟨rfl, -⟩ := List.cons_eq_cons.mp heq
      have hd := Text.isWord_of_isBlank (hws₁ e List.mem_cons_self)
      rw [hword e List.mem_cons_self] at hd
      cases hd
  have hleaves : Leaves Text.isWord (ws₂ ++ close :: after) := by
    cases ws₂ with
    | nil => exact leaves_cons hname.2.2.1 after
    | cons d ws₂ => exact leaves_cons (Text.isWord_of_isBlank (hws₂ d List.mem_cons_self)) _
  rw [hblank, List.nil_append, List.append_assoc] at heq
  have htaken := congrArg (List.takeWhile Text.isWord) heq
  rw [takeWhile_append_of_leaves hword hback, takeWhile_append_of_leaves hname.1 hleaves] at htaken
  rw [htaken, List.append_cancel_left_eq] at heq
  rw [heq, skipBlanks_append hws₂, skipBlanks_of_leaves (leaves_cons hname.2.2.2 after)]
  exact ⟨htaken.symm, rfl⟩

/-- A name tells which rule looks for it. -/
theorem eq_of_member {other : Rule} {close' : Char} (h : rule.member? = some (name, close))
    (hother : other.member? = some (name, close')) : rule = other := by
  have hall : ∀ rule ∈ Rule.all, ∀ other ∈ Rule.all, rule.member?.isSome →
      rule.member?.map Prod.fst = other.member?.map Prod.fst → rule = other := by decide
  refine hall rule (Rule.mem_all rule) other (Rule.mem_all other) ?_ ?_
  · simp [h]
  · simp [h, hother]

/-- Where no word goes on, no piece begins that has to start a word. -/
theorem occursIn_append_left (h : rule.form.OccursIn back)
    (hfront : WordStart front ∨ Leaves Text.isWord back) : rule.form.OccursIn (front ++ back) := by
  obtain ⟨before, piece, after, hstart, hpiece, rfl⟩ := h
  refine ⟨front ++ before, piece, after, fun hword => ?_, hpiece, by simp⟩
  rcases hfront with hfront | hleaves
  · exact hfront.append (hstart hword)
  · cases before with
    | nil =>
      cases rule with
      | material property =>
        obtain ⟨lead, ws₁, ws₂, ws₃, rfl | rfl, -, -, -, rfl⟩ := hpiece
        · exact absurd (hleaves 'm' rfl) (by decide)
        · exact absurd (hleaves 'p' rfl) (by decide)
      | _ => cases hword
    | cons d before =>
      intro c hc
      exact hstart hword c (by simpa [List.getLast?_append] using hc)

end Rule

end EditorLink.Migration
