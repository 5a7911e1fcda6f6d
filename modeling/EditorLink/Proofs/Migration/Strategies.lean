import Mathlib.Data.List.DropRight
import Mathlib.Data.Option.Basic
import EditorLink.Migration.Fix
import EditorLink.Proofs.Migration.Detection
import EditorLink.Proofs.Migration.Replacing
import EditorLink.Proofs.Text.Cuts

/-!
# What fix strategies rewrite

A rule looks for a call or an assignment in any form, and the strategy of its change rewrites some
forms only. `FixStrategy.AppliesTo` says of a script, without editing it, that it holds a form that
the strategy rewrites. An edit changes a script just when the strategy applies to it, and what it
rewrites is always a piece that the rule of the change looks for.
-/

namespace EditorLink.Migration

/-! ## The forms that strategies rewrite -/

/-- A plain word before the point of a method's call, up to the opening parenthesis. -/
def IsReceiverCall (name : String) (receiver call : List Char) : Prop :=
  ∃ ws, receiver ≠ [] ∧ (∀ c ∈ receiver, Text.isWord c) ∧ Blanks ws ∧
    call = receiver ++ ".".toList ++ name.toList ++ ws ++ "(".toList

/-- A quoted property name with the closing parenthesis. The two quotes may be of different
kinds. -/
def IsQuotedArgument (property argument : List Char) : Prop :=
  ∃ ws₁ opening closing ws₂, Blanks ws₁ ∧ isQuote opening ∧ property ≠ [] ∧
    (∀ c ∈ property, isQuote c = false) ∧ isQuote closing ∧ Blanks ws₂ ∧
    argument = ws₁ ++ [opening] ++ property ++ [closing] ++ ws₂ ++ ")".toList

/-- The header of a branch on a check of a property. -/
def IsCheckHeader (indent receiver property header : List Char) : Prop :=
  ∃ ws₁ call argument ws₂, (∀ c ∈ indent, isIndent c) ∧ ws₁ ≠ [] ∧ Blanks ws₁ ∧
    IsReceiverCall "has_property" receiver call ∧ IsQuotedArgument property argument ∧
    Blanks ws₂ ∧
    header = indent ++ "if".toList ++ ws₁ ++ call ++ argument ++ ws₂ ++ ":".toList

/-- A text that is empty or ends with a line break, as it stands before the start of a line. -/
def LineStart (before : List Char) : Prop := ∀ c ∈ before.getLast?, c = '\n'

/-- `ColorRect` as the name that a keyword introduces. -/
def IsColorRectAfter (keyword : String) (piece : List Char) : Prop :=
  ∃ ws, ws ≠ [] ∧ Blanks ws ∧ piece = keyword.toList ++ ws ++ "ColorRect".toList

/-- `ColorRect()` or `ColorRect.new()`. -/
def IsColorRectCall (piece : List Char) : Prop :=
  (∃ ws, Blanks ws ∧ piece = "ColorRect".toList ++ ws ++ "()".toList) ∨
    ∃ ws₁ ws₂, Blanks ws₁ ∧ Blanks ws₂ ∧
      piece = "ColorRect".toList ++ ws₁ ++ ".new".toList ++ ws₂ ++ "()".toList

/-- A script that holds a form that the strategy rewrites: a check of a property with a plain
receiver and a quoted name; a call with a plain receiver and a closing parenthesis after it;
`ColorRect` after `class_name` or `extends` with no word character behind it, or at a word start and
called without arguments; an assignment to the material's property with a value, that is with a
character other than a semicolon or a line break where only blanks stand before it. -/
def FixStrategy.AppliesTo (source : List Char) : FixStrategy → Prop
  | .hasProperty => ∃ front receiver call property argument back,
      IsReceiverCall "has_property" receiver call ∧ IsQuotedArgument property argument ∧
      source = front ++ call ++ argument ++ back
  | .setLooped => ∃ front receiver call back,
      IsReceiverCall "set_looped" receiver call ∧ ')' ∈ back ∧ source = front ++ call ++ back
  | .colorAtOffset => ∃ front receiver call back,
      IsReceiverCall "get_color_at_offset" receiver call ∧ ')' ∈ back ∧
      source = front ++ call ++ back
  | .colorRect => ∃ front piece back,
      ((IsColorRectAfter "class_name" piece ∨ IsColorRectAfter "extends" piece) ∧
          Leaves Text.isWord back ∨ WordStart front ∧ IsColorRectCall piece) ∧
      source = front ++ piece ++ back
  | .material property => ∃ front target ws c back, WordStart front ∧ IsTarget property target ∧
      Blanks ws ∧ endsValue c = false ∧ source = front ++ target ++ ws ++ [c] ++ back

variable {source rest after before replacement : List Char} {name : String}
  {property : MaterialProperty}

/-! ## Counting marks -/

theorem count_of_class {p : Char → Bool} {cs : List Char} {mark : Char} (h : ∀ c ∈ cs, p c)
    (hmark : p mark = false) : cs.count mark = 0 := by
  apply List.count_eq_zero.mpr
  intro hmem
  rw [h mark hmem] at hmark
  cases hmark

theorem count_blanks {ws : List Char} {mark : Char} (h : Blanks ws)
    (hmark : Text.isBlank mark = false) : ws.count mark = 0 :=
  count_of_class h hmark

theorem count_dropWhile {p : Char → Bool} {mark : Char} (hmark : p mark = false) (cs : List Char) :
    (cs.dropWhile p).count mark = cs.count mark := by
  have hcount := congrArg (List.count mark) (List.takeWhile_append_dropWhile (p := p) (l := cs))
  rw [List.count_append, count_of_class (fun c hc => mem_takeWhile hc) hmark] at hcount
  omega

theorem count_trim {mark : Char} (hmark : Text.isBlank mark = false) (cs : List Char) :
    (Text.trim cs).count mark = cs.count mark := by
  rw [Text.trim, Text.trimBoth, Text.dropRightWhile, List.count_reverse, count_dropWhile hmark,
    List.count_reverse, count_dropWhile hmark]

/-! ## Receivers and arguments -/

theorem receiver?_eq_some_iff {receiver : List Char} :
    receiver? name rest = some (receiver, after) ↔
      ∃ call, IsReceiverCall name receiver call ∧ rest = call ++ after := by
  simp only [receiver?, Option.bind_eq_bind, Option.bind_eq_some_iff, Prod.exists,
    word?_eq_some_iff, literal?_eq_some_iff, openParen?_eq_some_iff, Option.pure_def,
    Option.some_inj, Prod.mk.injEq]
  constructor
  · rintro ⟨_, _, ⟨rfl, hne, hword, -⟩, _, rfl, _, rfl, _, ⟨ws, hws, rfl⟩, rfl, rfl⟩
    exact ⟨_, ⟨ws, hne, hword, hws, rfl⟩, by simp⟩
  · rintro ⟨call, ⟨ws, hne, hword, hws, rfl⟩, rfl⟩
    refine ⟨receiver, ".".toList ++ (name.toList ++ (ws ++ '(' :: after)),
      ⟨by simp, hne, hword, ?_⟩, _, rfl, _, rfl, after, ⟨ws, hws, rfl⟩, rfl, rfl⟩
    rintro c ⟨⟩
    decide

theorem quote?_eq_some_iff : quote? rest = some after ↔
    ∃ q, isQuote q ∧ rest = q :: after := by
  cases rest with
  | nil => simp [quote?]
  | cons c rest =>
    by_cases hc : isQuote c
    · simp [quote?, hc]
    · simp only [quote?, hc, List.cons_eq_cons]
      constructor
      · intro h
        cases h
      · rintro ⟨q, hq, rfl, -⟩
        exact absurd hq hc

theorem leaves_quote {q : Char} (hq : isQuote q) (rest : List Char) :
    Leaves Text.isBlank (q :: rest) := by
  rintro c ⟨⟩
  simp only [isQuote, Bool.or_eq_true, beq_iff_eq] at hq
  rcases hq with rfl | rfl <;> decide

theorem quotedArgument?_eq_some_iff {property : List Char} :
    quotedArgument? rest = some (property, after) ↔
      ∃ argument, IsQuotedArgument property argument ∧ rest = argument ++ after := by
  simp only [quotedArgument?, Option.bind_eq_bind, Option.bind_eq_some_iff, Prod.exists,
    quote?_eq_some_iff, run?_eq_some_iff, Option.pure_def, Option.some_inj, Prod.mk.injEq,
    literal?_skipBlanks_eq_some_iff (by decide : Solid ")"), Bool.not_eq_true']
  constructor
  · rintro ⟨_, ⟨opening, hopening, hskip⟩, _, _, ⟨rfl, hne, hproperty, -⟩, _,
      ⟨closing, hclosing, rfl⟩, _, ⟨ws₂, hws₂, rfl⟩, rfl, rfl⟩
    obtain ⟨ws₁, hws₁, rfl⟩ := (skipBlanks_eq_iff (leaves_quote hopening _)).mp hskip
    exact ⟨_, ⟨ws₁, opening, closing, ws₂, hws₁, hopening, hne, hproperty, hclosing, hws₂, rfl⟩,
      by simp⟩
  · rintro ⟨argument, ⟨ws₁, opening, closing, ws₂, hws₁, hopening, hne, hproperty, hclosing, hws₂,
      rfl⟩, rfl⟩
    refine ⟨property ++ closing :: (ws₂ ++ (")".toList ++ after)), ⟨opening, hopening, ?_⟩, property,
      closing :: (ws₂ ++ (")".toList ++ after)), ⟨rfl, hne, hproperty, ?_⟩, _,
      ⟨closing, hclosing, rfl⟩, after, ⟨ws₂, hws₂, rfl⟩, rfl, rfl⟩
    · refine (skipBlanks_eq_iff (leaves_quote hopening _)).mpr ⟨ws₁, hws₁, ?_⟩
      simp
    · rintro c ⟨⟩
      simpa using hclosing

/-! ## Checks of a property -/

theorem propertyCheckCall_eq_some_iff :
    propertyCheckCall before rest = some (replacement, after) ↔
      ∃ receiver call property argument, IsReceiverCall "has_property" receiver call ∧
        IsQuotedArgument property argument ∧ rest = call ++ argument ++ after ∧
        replacement = "(".toList ++ receiver ++ ".get(\"".toList ++ property ++
          "\") != null)".toList := by
  simp only [propertyCheckCall, Option.bind_eq_bind, Option.bind_eq_some_iff, Prod.exists,
    receiver?_eq_some_iff, quotedArgument?_eq_some_iff, Option.pure_def, Option.some_inj,
    Prod.mk.injEq]
  constructor
  · rintro ⟨receiver, _, ⟨call, hcall, rfl⟩, property, _, ⟨argument, hargument, rfl⟩, rfl, rfl⟩
    exact ⟨receiver, call, property, argument, hcall, hargument, by simp, rfl⟩
  · rintro ⟨receiver, call, property, argument, hcall, hargument, rfl, rfl⟩
    exact ⟨receiver, argument ++ after, ⟨call, hcall, by simp⟩, property, after,
      ⟨argument, hargument, rfl⟩, rfl, rfl⟩

theorem IsReceiverCall.leaves {receiver call : List Char} (h : IsReceiverCall name receiver call)
    (others : List Char) : Leaves Text.isBlank (call ++ others) := by
  obtain ⟨ws, hne, hword, -, rfl⟩ := h
  obtain ⟨c, receiver, rfl⟩ := List.exists_cons_of_ne_nil hne
  rintro d ⟨⟩
  refine eq_false_of_ne_true fun hblank => ?_
  have hc := hword c List.mem_cons_self
  rw [Text.isWord_of_isBlank hblank] at hc
  cases hc

theorem atLineStart_reverse (before : List Char) :
    atLineStart before.reverse = true ↔ LineStart before := by
  unfold LineStart
  rw [← List.head?_reverse]
  cases before.reverse with
  | nil => simp [atLineStart]
  | cons c cs => simp [atLineStart]

/-- The header of a branch on a check of a property, and what it becomes. -/
theorem propertyCheckHeader_eq_some_iff {front : List Char} :
    propertyCheckHeader front.reverse rest = some (replacement, after) ↔
      LineStart front ∧ ∃ indent receiver property header,
        IsCheckHeader indent receiver property header ∧ rest = header ++ after ∧
        replacement = indent ++ "var ".toList ++ property ++ "_value = ".toList ++ receiver ++
          ".get(\"".toList ++ property ++ "\")\n".toList ++ indent ++ "if ".toList ++ property ++
          "_value != null:  # fixed: has_property() replaced with get() + null check".toList := by
  simp only [propertyCheckHeader, Option.bind_eq_bind, Option.bind_eq_some_iff, Prod.exists,
    literal?_eq_some_iff, someBlanks?_eq_some_iff, receiver?_eq_some_iff,
    quotedArgument?_eq_some_iff, literal?_skipBlanks_eq_some_iff (by decide : Solid ":"),
    Option.guard_eq_some', atLineStart_reverse, Option.pure_def, Option.some_inj, Prod.mk.injEq]
  constructor
  · rintro ⟨_, hstart, _, hif, _, ⟨ws₁, hne, hws₁, rfl, -⟩, receiver, _, ⟨call, hcall, rfl⟩,
      property, _, ⟨argument, hargument, rfl⟩, _, ⟨ws₂, hws₂, rfl⟩, rfl, rfl⟩
    refine ⟨hstart, rest.takeWhile isIndent, receiver, property, _, ⟨ws₁, call, argument, ws₂,
      fun c hc => mem_takeWhile hc, hne, hws₁, hcall, hargument, hws₂, rfl⟩, ?_, rfl⟩
    conv_lhs => rw [← List.takeWhile_append_dropWhile (p := isIndent) (l := rest), hif]
    simp
  · rintro ⟨hstart, indent, receiver, property, _, ⟨ws₁, call, argument, ws₂, hindent, hne, hws₁,
      hcall, hargument, hws₂, rfl⟩, rfl, rfl⟩
    have hif : ∀ others, Leaves isIndent ("if".toList ++ others) := by
      rintro others c ⟨⟩
      decide
    simp only [List.append_assoc]
    rw [takeWhile_append_of_leaves hindent (hif _), dropWhile_append_of_leaves hindent (hif _)]
    exact ⟨(), hstart, _, rfl, _, ⟨ws₁, hne, hws₁, rfl, hcall.leaves _⟩, receiver, _,
      ⟨call, hcall, rfl⟩, property, _, ⟨argument, hargument, rfl⟩, after, ⟨ws₂, hws₂, rfl⟩, rfl,
      rfl⟩

theorem propertyCheckHeader_spec
    (h : propertyCheckHeader before rest = some (replacement, after)) :
    ∃ indent ws₁ receiver call property argument ws₂, (∀ c ∈ indent, isIndent c) ∧ Blanks ws₁ ∧
      IsReceiverCall "has_property" receiver call ∧ IsQuotedArgument property argument ∧
      Blanks ws₂ ∧
      rest = indent ++ "if".toList ++ ws₁ ++ call ++ argument ++ ws₂ ++ ":".toList ++ after ∧
      replacement = indent ++ "var ".toList ++ property ++ "_value = ".toList ++ receiver ++
        ".get(\"".toList ++ property ++ "\")\n".toList ++ indent ++ "if ".toList ++ property ++
        "_value != null:  # fixed: has_property() replaced with get() + null check".toList := by
  rw [← List.reverse_reverse before, propertyCheckHeader_eq_some_iff] at h
  obtain ⟨-, indent, receiver, property, _, ⟨ws₁, call, argument, ws₂, hindent, -, hws₁, hcall,
    hargument, hws₂, rfl⟩, hrest, hreplacement⟩ := h
  exact ⟨indent, ws₁, receiver, call, property, argument, ws₂, hindent, hws₁, hcall, hargument,
    hws₂, hrest, hreplacement⟩

theorem IsReceiverCall.count_bang {receiver call : List Char}
    (h : IsReceiverCall "has_property" receiver call) :
    receiver.count '!' = 0 ∧ call.count '!' = 0 := by
  obtain ⟨ws, -, hword, hws, rfl⟩ := h
  have hreceiver : receiver.count '!' = 0 := count_of_class hword (by decide)
  have hblanks : ws.count '!' = 0 := count_blanks hws (by decide)
  refine ⟨hreceiver, ?_⟩
  simp [List.count_append, hreceiver, hblanks]

theorem IsQuotedArgument.count_bang {property argument : List Char}
    (h : IsQuotedArgument property argument) : argument.count '!' = property.count '!' := by
  obtain ⟨ws₁, opening, closing, ws₂, hws₁, hopening, -, -, hclosing, hws₂, rfl⟩ := h
  have hquote : ∀ q, isQuote q → [q].count '!' = 0 := fun q hq =>
    count_of_class (p := isQuote) (by simpa using hq) (by decide)
  have hblanks₁ : ws₁.count '!' = 0 := count_blanks hws₁ (by decide)
  have hblanks₂ : ws₂.count '!' = 0 := count_blanks hws₂ (by decide)
  simp only [List.count_append, hquote opening hopening, hquote closing hclosing, hblanks₁,
    hblanks₂]
  simp

/-- The comparison with null brings the mark; the name of the property is kept with its marks. -/
theorem propertyCheckCall_adds : propertyCheckCall.Adds '!' := by
  intro before text replacement rest h
  obtain ⟨receiver, call, property, argument, hcall, hargument, rfl, rfl⟩ :=
    propertyCheckCall_eq_some_iff.mp h
  refine ⟨call ++ argument, ?_, rfl, ?_⟩
  · obtain ⟨ws, hne, -, -, rfl⟩ := hcall
    simp
  · simp [List.count_append, hcall.count_bang, hargument.count_bang]

theorem propertyCheckHeader_adds : propertyCheckHeader.Adds '!' := by
  intro before text replacement rest h
  obtain ⟨indent, ws₁, receiver, call, property, argument, ws₂, hindent, hws₁, hcall, hargument,
    hws₂, rfl, rfl⟩ := propertyCheckHeader_spec h
  refine ⟨indent ++ "if".toList ++ ws₁ ++ call ++ argument ++ ws₂ ++ ":".toList, by simp, rfl, ?_⟩
  have hmark : indent.count '!' = 0 := count_of_class hindent (by decide)
  have hblanks₁ : ws₁.count '!' = 0 := count_blanks hws₁ (by decide)
  have hblanks₂ : ws₂.count '!' = 0 := count_blanks hws₂ (by decide)
  have hwords : "if".toList.count '!' = 0 ∧ ":".toList.count '!' = 0 := by decide
  have hnote : 0 < ("_value != null:  # fixed: has_property() replaced with get() + null check"
      ).toList.count '!' := by decide
  simp only [List.count_append, hmark, hblanks₁, hblanks₂, hcall.count_bang, hargument.count_bang]
  omega

theorem propertyCheckCall_occurs_iff : propertyCheckCall.occurs source ↔
    FixStrategy.AppliesTo source .hasProperty := by
  rw [Pattern.occurs_iff propertyCheckCall_adds.consumes.nil]
  simp only [propertyCheckCall_eq_some_iff]
  constructor
  · rintro ⟨front, _, _, back, rfl, receiver, call, property, argument, hcall, hargument, rfl, -⟩
    exact ⟨front, receiver, call, property, argument, back, hcall, hargument, by simp⟩
  · rintro ⟨front, receiver, call, property, argument, back, hcall, hargument, rfl⟩
    exact ⟨front, _, _, back, by simp, receiver, call, property, argument, hcall, hargument, rfl,
      rfl⟩

/-- The branch holds the check that it branches on. -/
theorem appliesTo_of_propertyCheckHeader (h : propertyCheckHeader.occurs source) :
    FixStrategy.AppliesTo source .hasProperty := by
  obtain ⟨front, _, _, back, rfl, hmatch⟩ := (Pattern.occurs_iff propertyCheckHeader_adds.consumes.nil).mp h
  obtain ⟨indent, ws₁, receiver, call, property, argument, ws₂, -, -, hcall, hargument, -, rfl, -⟩ :=
    propertyCheckHeader_spec hmatch
  exact ⟨front ++ indent ++ "if".toList ++ ws₁, receiver, call, property, argument,
    ws₂ ++ ":".toList ++ back, hcall, hargument, by simp⟩

/-! ## Calls that go with their arguments -/

/-- A call of a method, with everything up to the next closing parenthesis, becomes a text made from
its receiver. -/
def replacedCall (name : String) (template : List Char → List Char) : Pattern (List Char) :=
  fun _ rest => do
    let (receiver, rest) ← receiver? name rest
    let rest ← throughParen? rest
    return (template receiver, rest)

variable {template : List Char → List Char}

theorem replacedCall_eq_some_iff :
    replacedCall name template before rest = some (replacement, after) ↔
      ∃ receiver call inner, IsReceiverCall name receiver call ∧ ')' ∉ inner ∧
        rest = call ++ (inner ++ ')' :: after) ∧ replacement = template receiver := by
  simp only [replacedCall, Option.bind_eq_bind, Option.bind_eq_some_iff, Prod.exists,
    receiver?_eq_some_iff, throughParen?_eq_some_iff, Option.pure_def, Option.some_inj,
    Prod.mk.injEq]
  constructor
  · rintro ⟨receiver, _, ⟨call, hcall, rfl⟩, _, ⟨inner, hinner, rfl⟩, rfl, rfl⟩
    exact ⟨receiver, call, inner, hcall, hinner, rfl, rfl⟩
  · rintro ⟨receiver, call, inner, hcall, hinner, rfl, rfl⟩
    exact ⟨receiver, _, ⟨call, hcall, rfl⟩, after, ⟨inner, hinner, rfl⟩, rfl, rfl⟩

theorem replacedCall_consumes (name : String) (template : List Char → List Char) :
    (replacedCall name template).Consumes := by
  intro before text replacement rest h
  obtain ⟨receiver, call, inner, -, -, rfl, -⟩ := replacedCall_eq_some_iff.mp h
  exact ⟨call ++ inner ++ ")".toList, by simp, by simp⟩

theorem replacedCall_occurs_iff : (replacedCall name template).occurs source ↔
    ∃ front receiver call back,
      IsReceiverCall name receiver call ∧ ')' ∈ back ∧ source = front ++ call ++ back := by
  rw [Pattern.occurs_iff (replacedCall_consumes name template).nil]
  simp only [replacedCall_eq_some_iff]
  constructor
  · rintro ⟨front, _, _, back, rfl, receiver, call, inner, hcall, -, rfl, -⟩
    exact ⟨front, receiver, call, inner ++ ')' :: back, hcall, by simp, by simp⟩
  · rintro ⟨front, receiver, call, back, hcall, hmem, rfl⟩
    obtain ⟨inner, after, rfl, hinner⟩ := List.eq_append_cons_of_mem hmem
    exact ⟨front, _, _, after, by simp, receiver, call, inner, hcall, hinner, rfl, rfl⟩

/-- A comment begins with a number sign, and the call that it replaces with a word. -/
theorem replacedCall_parts_of_comment (h : ∀ receiver, (template receiver).head? = some '#') :
    (replacedCall name template).Parts := by
  intro before text replacement rest hmatch hstarts
  obtain ⟨receiver, call, inner, ⟨ws, hne, hword, -, rfl⟩, -, rfl, rfl⟩ :=
    replacedCall_eq_some_iff.mp hmatch
  obtain ⟨c, cs, rfl⟩ := List.exists_cons_of_ne_nil hne
  obtain ⟨tail, htail⟩ := hstarts
  have hhead := congrArg List.head? htail
  rw [List.head?_append, h] at hhead
  obtain rfl : '#' = c := Option.some.inj hhead
  exact absurd (hword '#' (by simp)) (by decide)

/-- A call of another method on the same receiver. -/
theorem replacedCall_parts_of_call {call : List Char}
    (h : ∀ receiver, receiver ++ call <+: template receiver)
    (hcall : ∀ rest, ¬ call <+: ".".toList ++ name.toList ++ rest) :
    (replacedCall name template).Parts := by
  intro before text replacement rest hmatch hstarts
  obtain ⟨receiver, _, inner, ⟨ws, -, -, -, rfl⟩, -, rfl, rfl⟩ := replacedCall_eq_some_iff.mp hmatch
  have hstart := (h receiver).trans hstarts
  simp only [List.append_assoc, List.prefix_append_right_inj] at hstart
  exact hcall _ (by simpa using hstart)

theorem loopedCall_eq : ∃ note : List Char,
    loopedCall = replacedCall "set_looped" fun receiver => "# ".toList ++ receiver ++ note :=
  ⟨_, rfl⟩

theorem loopedCall_parts : loopedCall.Parts := by
  obtain ⟨note, heq⟩ := loopedCall_eq
  rw [heq]
  exact replacedCall_parts_of_comment fun receiver => rfl

theorem colorAtOffsetCall_eq :
    ∃ template, colorAtOffsetCall = replacedCall "get_color_at_offset" template ∧
      ∀ receiver, receiver ++ ".get_color(".toList <+: template receiver :=
  ⟨_, rfl, fun receiver => (List.prefix_append_right_inj receiver).mpr (by decide)⟩

theorem colorAtOffsetCall_parts : colorAtOffsetCall.Parts := by
  obtain ⟨template, heq, htemplate⟩ := colorAtOffsetCall_eq
  rw [heq]
  refine replacedCall_parts_of_call htemplate fun rest hstarts => ?_
  simp [List.cons_prefix_cons] at hstarts

/-! ## ColorRect -/

theorem colorRectAfter_eq_some_iff {keyword : String} :
    colorRectAfter keyword before rest = some (replacement, after) ↔
      ∃ piece, IsColorRectAfter keyword piece ∧ Leaves Text.isWord after ∧ rest = piece ++ after ∧
        replacement = keyword.toList ++
          " TextureRect  # fixed: TextureRect handles gradients better".toList := by
  simp only [colorRectAfter, Option.bind_eq_bind, Option.bind_eq_some_iff, literal?_eq_some_iff,
    someBlanks?_eq_some_iff, Option.guard_eq_some', atWordEnd_iff, Option.pure_def,
    Option.some_inj, Prod.mk.injEq, exists_const]
  constructor
  · rintro ⟨_, rfl, _, ⟨ws, hne, hws, rfl, -⟩, _, rfl, hend, rfl, rfl⟩
    exact ⟨_, ⟨ws, hne, hws, rfl⟩, hend, by simp, rfl⟩
  · rintro ⟨_, ⟨ws, hne, hws, rfl⟩, hend, rfl, rfl⟩
    refine ⟨ws ++ ("ColorRect".toList ++ after), by simp, _, ⟨ws, hne, hws, rfl, ?_⟩, after, rfl,
      hend, rfl, rfl⟩
    exact (by decide : Solid "ColorRect").leaves after

theorem colorRectAfter_adds (keyword : String) : (colorRectAfter keyword).Adds 'T' := by
  intro before text replacement rest h
  obtain ⟨_, ⟨ws, hne, hws, rfl⟩, -, rfl, rfl⟩ := colorRectAfter_eq_some_iff.mp h
  refine ⟨_, by simp, rfl, ?_⟩
  have hblanks : ws.count 'T' = 0 := count_blanks hws (by decide)
  have hwords : "ColorRect".toList.count 'T' = 0 ∧
      0 < " TextureRect  # fixed: TextureRect handles gradients better".toList.count 'T' := by
    decide
  simp only [List.count_append]
  omega

theorem colorRectAfter_occurs_iff {keyword : String} : (colorRectAfter keyword).occurs source ↔
    ∃ front piece back, IsColorRectAfter keyword piece ∧ Leaves Text.isWord back ∧
      source = front ++ piece ++ back := by
  rw [Pattern.occurs_iff (colorRectAfter_adds keyword).consumes.nil]
  simp only [colorRectAfter_eq_some_iff]
  constructor
  · rintro ⟨front, _, _, back, rfl, piece, hpiece, hend, rfl, -⟩
    exact ⟨front, piece, back, hpiece, hend, by simp⟩
  · rintro ⟨front, piece, back, hpiece, hend, rfl⟩
    exact ⟨front, _, _, back, by simp, piece, hpiece, hend, rfl, rfl⟩

/-- What follows the name in a call, with or without `.new`. -/
theorem skipNew_eq_some_iff :
    literal? "()" (((literal? ".new" (skipBlanks rest)).map skipBlanks).getD (skipBlanks rest)) =
        some after ↔
      (∃ ws, Blanks ws ∧ rest = ws ++ "()".toList ++ after) ∨
        ∃ ws₁ ws₂, Blanks ws₁ ∧ Blanks ws₂ ∧
          rest = ws₁ ++ ".new".toList ++ ws₂ ++ "()".toList ++ after := by
  have hbare : ∀ others, literal? ".new" ("()".toList ++ others) = none := fun _ => rfl
  constructor
  · intro h
    obtain ⟨ws, hws, hrest⟩ := exists_blanks rest
    cases hnew : literal? ".new" (skipBlanks rest) with
    | none =>
      rw [hnew, Option.map_none, Option.getD_none, literal?_eq_some_iff] at h
      rw [h] at hrest
      exact .inl ⟨ws, hws, by simpa using hrest⟩
    | some others =>
      rw [hnew, Option.map_some, Option.getD_some,
        literal?_skipBlanks_eq_some_iff (by decide : Solid "()")] at h
      obtain ⟨ws₂, hws₂, rfl⟩ := h
      rw [literal?_eq_some_iff.mp hnew] at hrest
      exact .inr ⟨ws, ws₂, hws, hws₂, by simpa using hrest⟩
  · rintro (⟨ws, hws, rfl⟩ | ⟨ws₁, ws₂, hws₁, hws₂, rfl⟩)
    · rw [List.append_assoc, skipBlanks_append hws,
        skipBlanks_of_leaves ((by decide : Solid "()").leaves after), hbare]
      exact literal?_eq_some_iff.mpr rfl
    · have hskip : skipBlanks (ws₁ ++ ".new".toList ++ ws₂ ++ "()".toList ++ after) =
          ".new".toList ++ (ws₂ ++ ("()".toList ++ after)) := by
        refine (skipBlanks_eq_iff ((by decide : Solid ".new").leaves _)).mpr ⟨ws₁, hws₁, ?_⟩
        simp
      rw [hskip, literal?_eq_some_iff.mpr rfl, Option.map_some, Option.getD_some]
      exact (literal?_skipBlanks_eq_some_iff (by decide)).mpr ⟨ws₂, hws₂, rfl⟩

theorem colorRectCall_eq_some_iff {front : List Char} :
    colorRectCall front.reverse rest = some (replacement, after) ↔
      ∃ piece, WordStart front ∧ IsColorRectCall piece ∧ rest = piece ++ after ∧
        replacement = "TextureRect.new()".toList := by
  simp only [colorRectCall, Option.bind_eq_bind, Option.bind_eq_some_iff, literal?_eq_some_iff,
    Option.guard_eq_some', atWordStart_reverse, Option.pure_def, Option.some_inj, Prod.mk.injEq,
    exists_const]
  constructor
  · rintro ⟨hstart, name, rfl, _, hcall, rfl, rfl⟩
    rcases skipNew_eq_some_iff.mp (literal?_eq_some_iff.mpr hcall) with
      ⟨ws, hws, rfl⟩ | ⟨ws₁, ws₂, hws₁, hws₂, rfl⟩
    · exact ⟨_, hstart, .inl ⟨ws, hws, rfl⟩, by simp, rfl⟩
    · exact ⟨_, hstart, .inr ⟨ws₁, ws₂, hws₁, hws₂, rfl⟩, by simp, rfl⟩
  · rintro ⟨_, hstart, ⟨ws, hws, rfl⟩ | ⟨ws₁, ws₂, hws₁, hws₂, rfl⟩, rfl, rfl⟩
    · refine ⟨hstart, ws ++ "()".toList ++ after, by simp, after, ?_, rfl, rfl⟩
      exact literal?_eq_some_iff.mp (skipNew_eq_some_iff.mpr (.inl ⟨ws, hws, rfl⟩))
    · refine ⟨hstart, ws₁ ++ ".new".toList ++ ws₂ ++ "()".toList ++ after, by simp, after, ?_, rfl,
        rfl⟩
      exact literal?_eq_some_iff.mp
        (skipNew_eq_some_iff.mpr (.inr ⟨ws₁, ws₂, hws₁, hws₂, rfl⟩))

theorem IsColorRectCall.count {piece : List Char} (h : IsColorRectCall piece) :
    piece.count 'T' = 0 := by
  have hblanks : ∀ ws, Blanks ws → ws.count 'T' = 0 := fun ws hws => count_blanks hws (by decide)
  rcases h with ⟨ws, hws, rfl⟩ | ⟨ws₁, ws₂, hws₁, hws₂, rfl⟩
  · simp [List.count_append, hblanks ws hws]
  · simp [List.count_append, hblanks ws₁ hws₁, hblanks ws₂ hws₂]

theorem colorRectCall_adds : colorRectCall.Adds 'T' := by
  intro before text replacement rest h
  rw [← List.reverse_reverse before] at h
  obtain ⟨piece, -, hpiece, rfl, rfl⟩ := colorRectCall_eq_some_iff.mp h
  refine ⟨piece, ?_, rfl, ?_⟩
  · rcases hpiece with ⟨ws, -, rfl⟩ | ⟨ws₁, ws₂, -, -, rfl⟩ <;> simp
  · rw [hpiece.count]
    decide

theorem colorRectCall_occurs_iff : colorRectCall.occurs source ↔
    ∃ front piece back, WordStart front ∧ IsColorRectCall piece ∧
      source = front ++ piece ++ back := by
  rw [Pattern.occurs_iff colorRectCall_adds.consumes.nil]
  simp only [colorRectCall_eq_some_iff]
  constructor
  · rintro ⟨front, _, _, back, rfl, piece, hstart, hpiece, rfl, -⟩
    exact ⟨front, piece, back, hstart, hpiece, by simp⟩
  · rintro ⟨front, piece, back, hstart, hpiece, rfl⟩
    exact ⟨front, _, _, back, by simp, piece, hstart, hpiece, rfl, rfl⟩

/-! ## Assignments to a material's properties -/

theorem exists_trim (text : List Char) :
    ∃ ws₁ ws₂, Blanks ws₁ ∧ Blanks ws₂ ∧ text = ws₁ ++ Text.trim text ++ ws₂ :=
  Text.exists_trimBoth Text.isBlank text

theorem dropRightWhile_ne_nil_iff (p : Char → Bool) (cs : List Char) :
    Text.dropRightWhile p cs ≠ [] ↔ ∃ c ∈ cs, p c = false := by
  have hempty : Text.dropRightWhile p cs = [] ↔ ∀ c ∈ cs, p c := List.rdropWhile_eq_nil_iff
  rw [Ne, hempty]
  simp

theorem run?_isSome_iff {p : Char → Bool} : (run? p rest).isSome ↔
    ∃ c back, p c ∧ rest = c :: back := by
  cases rest with
  | nil => simp [run?]
  | cons c back => by_cases hc : p c <;> simp [run?, hc]

theorem assignedValue?_spec {value : List Char} (h : assignedValue? rest = some (value, after)) :
    value ≠ [] ∧ rest = value ++ after := by
  unfold assignedValue? at h
  dsimp only at h
  split at h
  · next taken others hrun =>
    cases h
    obtain ⟨hskip, hne, -, -⟩ := run?_eq_some_iff.mp hrun
    refine ⟨by simp [hne], ?_⟩
    rw [List.append_assoc, ← hskip]
    exact List.takeWhile_append_dropWhile.symm
  · split at h
    · cases h
    · next hne =>
      cases h
      refine ⟨by simpa using hne, (List.prefix_iff_eq_append.mp ?_).symm⟩
      exact (List.rdropWhile_prefix _ _).trans (List.takeWhile_prefix _)

/-- There is a value where something stands after the blanks, or a blank other than a line break. -/
theorem assignedValue?_isSome : (assignedValue? rest).isSome ↔
    (∃ c back, endsValue c = false ∧ skipBlanks rest = c :: back) ∨
      ∃ c ∈ rest.takeWhile Text.isBlank, c ≠ '\n' := by
  have hrun : (run? (!endsValue ·) (skipBlanks rest)).isSome ↔ _ := run?_isSome_iff
  have hkept := dropRightWhile_ne_nil_iff (· == '\n') (rest.takeWhile Text.isBlank)
  simp only [Bool.not_eq_true'] at hrun
  simp only [beq_eq_false_iff_ne] at hkept
  rw [← hrun, ← hkept]
  unfold assignedValue?
  dsimp only
  cases run? (!endsValue ·) (skipBlanks rest) with
  | some found => simp
  | none => simp

theorem assignedValue?_isSome_iff : (assignedValue? rest).isSome ↔
    ∃ ws c back, Blanks ws ∧ endsValue c = false ∧ rest = ws ++ c :: back := by
  rw [assignedValue?_isSome]
  constructor
  · rintro (⟨c, back, hc, hskip⟩ | ⟨c, hmem, hc⟩)
    · obtain ⟨ws, hws, hrest⟩ := exists_blanks rest
      exact ⟨ws, c, back, hws, hc, hskip ▸ hrest⟩
    · obtain ⟨ws, others, hblanks, -⟩ := List.eq_append_cons_of_mem hmem
      have hall : ∀ d ∈ ws ++ c :: others, Text.isBlank d :=
        fun d hd => mem_takeWhile (hblanks ▸ hd)
      refine ⟨ws, c, others ++ skipBlanks rest, fun d hd => hall d (by simp [hd]), ?_, ?_⟩
      · have hend : c ≠ ';' := by
          rintro rfl
          exact absurd (hall ';' (by simp)) (by decide)
        simp [endsValue, hend, hc]
      · rw [← List.cons_append, ← List.append_assoc, ← hblanks]
        exact List.takeWhile_append_dropWhile.symm
  · rintro ⟨ws, c, back, hws, hc, rfl⟩
    by_cases hblank : Text.isBlank c
    · refine .inr ⟨c, ?_, ?_⟩
      · rw [List.takeWhile_append_of_pos hws]
        simp [hblank]
      · rintro rfl
        exact absurd hc (by decide)
    · have hleaves : Leaves Text.isBlank (c :: back) := by
        rintro d ⟨⟩
        simpa using hblank
      exact .inl ⟨c, back, hc, (skipBlanks_eq_iff hleaves).mpr ⟨ws, hws, rfl⟩⟩

/-- A value goes to a semicolon, to a line break or to the end of the text. -/
theorem assignedValue?_ends (h : assignedValue? rest = some (value, after)) :
    ∀ c ∈ after.head?, endsValue c := by
  obtain ⟨-, hvalue⟩ := assignedValue?_spec h
  unfold assignedValue? at h
  dsimp only at h
  split at h
  · next taken others hrun =>
    cases h
    obtain ⟨-, -, -, hleaves⟩ := run?_eq_some_iff.mp hrun
    intro c hc
    simpa using hleaves c hc
  · next hnone =>
    split at h
    · cases h
    · -- The value is the blanks up to the last that is no line break.
      obtain ⟨hkept, -⟩ := Prod.mk.inj (Option.some.inj h)
      obtain ⟨breaks, hbreaks, hblanks⟩ :=
        Text.exists_dropRightWhile (· == '\n') (rest.takeWhile Text.isBlank)
      rw [hkept] at hblanks
      have hafter : after = breaks ++ skipBlanks rest := by
        have hrest : value ++ after = value ++ (breaks ++ skipBlanks rest) := by
          rw [← List.append_assoc, ← hblanks, ← hvalue]
          exact List.takeWhile_append_dropWhile.symm
        exact List.append_cancel_left hrest
      intro c hc
      rw [hafter] at hc
      cases breaks with
      | nil =>
        by_contra hends
        have hsome : (run? (!endsValue ·) (skipBlanks rest)).isSome := by
          obtain ⟨back, hback⟩ := List.head?_eq_some_iff.mp hc
          exact run?_isSome_iff.mpr ⟨c, back, by simpa using hends, hback⟩
        simp [hnone] at hsome
      | cons d breaks =>
        obtain rfl : d = c := by simpa using hc
        have hd : d = '\n' := by simpa using hbreaks d List.mem_cons_self
        simp [endsValue, hd]

/-- The pattern takes a target and the value that is assigned to it. A target has an owner, or it
stands where a word starts. -/
theorem materialStatement_taken {front : List Char}
    (h : materialStatement property front.reverse rest = some (replacement, after)) :
    ∃ value others, assignedValue? others = some (value, after) ∧
      ((∃ owner target, owner ≠ [] ∧ (∀ c ∈ owner, Text.isWord c) ∧ IsTarget property target ∧
          rest = owner ++ ".".toList ++ target ++ others ∧
          replacement = movedAssignment property owner (Text.trim value)) ∨
        ∃ target, WordStart front ∧ IsTarget property target ∧ rest = target ++ others ∧
          replacement =
            movedAssignment property (particlesAbove front.reverse) (Text.trim value)) := by
  unfold materialStatement at h
  split at h
  · next hfound =>
    cases h
    simp only [Option.bind_eq_some_iff, Option.map_eq_some_iff, Prod.exists,
      ownedTarget?_eq_some_iff, Prod.mk.injEq] at hfound
    obtain ⟨owner, _, ⟨target, hne, hword, htarget, rfl⟩, value, _, hvalue, rfl, rfl, rfl⟩ := hfound
    exact ⟨value, _, hvalue, .inl ⟨owner, target, hne, hword, htarget, by simp, rfl⟩⟩
  · simp only [Option.bind_eq_bind, Option.bind_eq_some_iff, Prod.exists, Option.guard_eq_some',
      atWordStart_reverse, materialTarget?_eq_some_iff, Option.pure_def, Option.some_inj,
      Prod.mk.injEq] at h
    obtain ⟨_, hstart, _, ⟨target, htarget, rfl⟩, value, _, hvalue, rfl, rfl⟩ := h
    exact ⟨value, _, hvalue, .inr ⟨target, hstart, htarget, rfl, rfl⟩⟩

/-- An assignment with an owner is moved to the owner. Else it stands where a word starts, and is
moved to the node that the text before gives. -/
theorem materialStatement_eq_some {property : MaterialProperty} {front : List Char}
    (h : materialStatement property front.reverse rest = some (replacement, after)) :
    (∃ owner target value, owner ≠ [] ∧ (∀ c ∈ owner, Text.isWord c) ∧ IsTarget property target ∧
        value ≠ [] ∧ (∀ c ∈ after.head?, endsValue c) ∧
        rest = owner ++ ".".toList ++ target ++ value ++ after ∧
        replacement = movedAssignment property owner (Text.trim value)) ∨
      ∃ target value, WordStart front ∧ IsTarget property target ∧
        value ≠ [] ∧ (∀ c ∈ after.head?, endsValue c) ∧ rest = target ++ value ++ after ∧
        replacement =
          movedAssignment property (particlesAbove front.reverse) (Text.trim value) := by
  obtain ⟨value, others, hvalue, howner⟩ := materialStatement_taken h
  have hends := assignedValue?_ends hvalue
  obtain ⟨hvalueNe, rfl⟩ := assignedValue?_spec hvalue
  rcases howner with ⟨owner, target, hne, hword, htarget, rfl, rfl⟩ |
    ⟨target, hstart, htarget, rfl, rfl⟩
  · exact .inl ⟨owner, target, value, hne, hword, htarget, hvalueNe, hends, by simp, rfl⟩
  · exact .inr ⟨target, value, hstart, htarget, hvalueNe, hends, by simp, rfl⟩

theorem materialStatement_ends
    (h : materialStatement property before rest = some (replacement, after)) :
    ∀ c ∈ after.head?, endsValue c := by
  rw [← List.reverse_reverse before] at h
  rcases materialStatement_eq_some h with ⟨_, _, _, -, -, -, -, hends, -⟩ |
    ⟨_, _, -, -, -, hends, -⟩
  · exact hends
  · exact hends

/-- The form with an owner is tried first, and where it has no value the other form is tried. -/
theorem materialStatement_isSome_iff {front : List Char} :
    (materialStatement property front.reverse rest).isSome ↔
      (∃ owner after, ownedTarget? property rest = some (owner, after) ∧
          (assignedValue? after).isSome) ∨
        WordStart front ∧ ∃ after, materialTarget? property rest = some after ∧
          (assignedValue? after).isSome := by
  have hbare : (do
      guard (atWordStart front.reverse)
      let rest ← materialTarget? property rest
      let (value, rest) ← assignedValue? rest
      return (movedAssignment property (particlesAbove front.reverse) (Text.trim value),
        rest) : Option (List Char × List Char)).isSome ↔
      WordStart front ∧ ∃ after, materialTarget? property rest = some after ∧
          (assignedValue? after).isSome := by
    rw [← atWordStart_reverse]
    by_cases hstart : atWordStart front.reverse
    · cases materialTarget? property rest with
      | none => simp
      | some others => cases hvalue : assignedValue? others <;> simp [hstart, hvalue]
    · simp [hstart]
  unfold materialStatement
  cases howned : ownedTarget? property rest with
  | none => simpa using hbare
  | some owned =>
    obtain ⟨owner, others⟩ := owned
    cases hvalue : assignedValue? others with
    | none => simpa [hvalue] using hbare
    | some found => simp [hvalue]

theorem IsTarget.count {target : List Char} (h : IsTarget property target) :
    target.count '#' = 0 := by
  obtain ⟨lead, ws₁, ws₂, ws₃, hlead, hws₁, hws₂, hws₃, rfl⟩ := h
  have hblanks : ∀ ws, Blanks ws → ws.count '#' = 0 := fun ws hws => count_blanks hws (by decide)
  have hname : property.name.toList.count '#' = 0 := by cases property <;> decide
  have hstart : lead.count '#' = 0 := by rcases hlead with rfl | rfl <;> decide
  simp [List.count_append, hblanks ws₁ hws₁, hblanks ws₂ hws₂, hblanks ws₃ hws₃, hname, hstart]

/-- The note behind the moved assignment begins with the mark; the value keeps its own. -/
theorem count_lt_movedAssignment {value : List Char} (node : List Char) :
    value.count '#' < (movedAssignment property node (Text.trim value)).count '#' := by
  have hnote : "  # fixed: moved from material.".toList.count '#' = 1 := by decide
  simp only [movedAssignment, List.count_append, hnote,
    count_trim (by decide : Text.isBlank '#' = false)]
  omega

theorem materialStatement_adds (property : MaterialProperty) :
    (materialStatement property).Adds '#' := by
  intro before text replacement rest h
  rw [← List.reverse_reverse before] at h
  rcases materialStatement_eq_some h with
    ⟨owner, target, value, -, hword, htarget, hne, -, rfl, rfl⟩ |
    ⟨target, value, -, htarget, hne, -, rfl, hreplacement⟩
  · refine ⟨owner ++ ".".toList ++ target ++ value, by simp, rfl, ?_⟩
    have howner : owner.count '#' = 0 := count_of_class hword (by decide)
    have hpoint : ".".toList.count '#' = 0 := by decide
    rw [List.count_append, List.count_append, List.count_append, howner, hpoint, htarget.count,
      Nat.zero_add]
    exact count_lt_movedAssignment owner
  · refine ⟨target ++ value, by simp [hne], rfl, ?_⟩
    rw [hreplacement, List.count_append, htarget.count, Nat.zero_add]
    exact count_lt_movedAssignment _

theorem materialStatement_occurs_iff : (materialStatement property).occurs source ↔
    FixStrategy.AppliesTo source (.material property) := by
  rw [Pattern.occurs_iff_isSome (materialStatement_adds property).consumes.nil]
  simp only [materialStatement_isSome_iff, assignedValue?_isSome_iff, ownedTarget?_eq_some_iff,
    materialTarget?_eq_some_iff]
  constructor
  · rintro ⟨front, _, rfl, ⟨owner, _, ⟨target, -, -, htarget, rfl⟩, ws, c, back, hws, hc, rfl⟩ |
      ⟨hstart, _, ⟨target, htarget, rfl⟩, ws, c, back, hws, hc, rfl⟩⟩
    · refine ⟨front ++ owner ++ ".".toList, target, ws, c, back, ?_, htarget, hws, hc, by simp⟩
      exact wordStart_append_point (front ++ owner)
    · exact ⟨front, target, ws, c, back, hstart, htarget, hws, hc, by simp⟩
  · rintro ⟨front, target, ws, c, back, hstart, htarget, hws, hc, rfl⟩
    refine ⟨front, target ++ (ws ++ c :: back), by simp, .inr ⟨hstart, _, ⟨target, htarget, rfl⟩, ws,
      c, back, hws, hc, rfl⟩⟩

/-! ## Edits -/

theorem FixStrategy.exists_pass_iff (strategy : FixStrategy) :
    (∃ pass ∈ strategy.passes, pass.occurs source) ↔ strategy.AppliesTo source := by
  cases strategy with
  | hasProperty =>
    simp only [passes, List.mem_cons, List.not_mem_nil, or_false, exists_eq_or_imp, exists_eq_left,
      propertyCheckCall_occurs_iff]
    -- The header holds the call that the second pass looks for.
    exact or_iff_right_of_imp appliesTo_of_propertyCheckHeader
  | setLooped =>
    obtain ⟨note, heq⟩ := loopedCall_eq
    simp only [passes, List.mem_singleton, exists_eq_left, heq, replacedCall_occurs_iff, AppliesTo]
  | colorAtOffset =>
    obtain ⟨template, heq, -⟩ := colorAtOffsetCall_eq
    simp only [passes, List.mem_singleton, exists_eq_left, heq, replacedCall_occurs_iff, AppliesTo]
  | colorRect =>
    simp only [passes, List.mem_cons, List.not_mem_nil, or_false, exists_eq_or_imp, exists_eq_left,
      colorRectAfter_occurs_iff, colorRectCall_occurs_iff]
    constructor
    · rintro (⟨front, piece, back, hpiece, hend, rfl⟩ | ⟨front, piece, back, hpiece, hend, rfl⟩ |
        ⟨front, piece, back, hstart, hpiece, rfl⟩)
      · exact ⟨front, piece, back, .inl ⟨.inl hpiece, hend⟩, rfl⟩
      · exact ⟨front, piece, back, .inl ⟨.inr hpiece, hend⟩, rfl⟩
      · exact ⟨front, piece, back, .inr ⟨hstart, hpiece⟩, rfl⟩
    · rintro ⟨front, piece, back, ⟨hpiece | hpiece, hend⟩ | ⟨hstart, hpiece⟩, rfl⟩
      · exact .inl ⟨front, piece, back, hpiece, hend, rfl⟩
      · exact .inr (.inl ⟨front, piece, back, hpiece, hend, rfl⟩)
      · exact .inr (.inr ⟨front, piece, back, hstart, hpiece, rfl⟩)
  | material property =>
    simp only [passes, List.mem_singleton, exists_eq_left]
    exact materialStatement_occurs_iff

theorem FixStrategy.edit_eq_self {strategy : FixStrategy} (h : ¬ strategy.AppliesTo source) :
    strategy.edit source = source := by
  rw [← exists_pass_iff] at h
  refine Pattern.applyPasses_eq_self fun pass hpass => ?_
  exact eq_false_of_ne_true fun hoccurs => h ⟨pass, hpass, hoccurs⟩

/-- What the strategy makes of a script that it applies to does not begin the script, whatever is
added to it. -/
theorem FixStrategy.not_prefix_edit {strategy : FixStrategy} (h : strategy.AppliesTo source) :
    ¬ strategy.edit source <+: source := by
  have hpass := (exists_pass_iff strategy).mpr h
  -- With several passes a later one can meet what an earlier one wrote, so those are followed by a
  -- mark that every replacement adds, and not by where the texts part.
  have hmarked : ∀ mark, (∀ pass ∈ strategy.passes, pass.Adds mark) →
      ¬ strategy.edit source <+: source := fun mark hadds =>
    Pattern.not_prefix_of_count_lt (Pattern.count_lt_applyPasses hadds hpass)
  cases strategy with
  | hasProperty =>
    refine hmarked '!' (List.forall_mem_cons.mpr ⟨propertyCheckHeader_adds, ?_⟩)
    exact List.forall_mem_singleton.mpr propertyCheckCall_adds
  | setLooped =>
    obtain ⟨note, heq⟩ := loopedCall_eq
    have hoccurs : loopedCall.occurs source := by simpa [passes] using hpass
    refine Pattern.not_prefix_replaceAll loopedCall_parts ?_ hoccurs
    exact heq ▸ replacedCall_consumes _ _
  | colorAtOffset =>
    obtain ⟨template, heq, -⟩ := colorAtOffsetCall_eq
    have hoccurs : colorAtOffsetCall.occurs source := by simpa [passes] using hpass
    refine Pattern.not_prefix_replaceAll colorAtOffsetCall_parts ?_ hoccurs
    exact heq ▸ replacedCall_consumes _ _
  | colorRect =>
    refine hmarked 'T' (List.forall_mem_cons.mpr ⟨colorRectAfter_adds _, ?_⟩)
    refine List.forall_mem_cons.mpr ⟨colorRectAfter_adds _, ?_⟩
    exact List.forall_mem_singleton.mpr colorRectCall_adds
  | material property =>
    exact hmarked '#' (List.forall_mem_singleton.mpr (materialStatement_adds property))

end EditorLink.Migration
