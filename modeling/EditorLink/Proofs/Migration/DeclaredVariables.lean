import EditorLink.Proofs.Migration.Comments

/-!
# Variables that rewritten headers declare

The header of a branch on a check becomes two lines: a declaration of a variable and a null check of
it. The variable is named after the quoted property, and a property may have any name without
quotes. So the variable is one word just when the property is; otherwise, as with
`shader_parameter/glow`, the two lines are no declaration and no check of one variable. The pass for
calls runs over the two lines afterwards. Where the property is one word it leaves them as they are:
no check begins in them, and none that begins before them reaches them.
-/

namespace EditorLink.Migration

/-- The variable that takes the value of a property. -/
def variableFor (property : List Char) : List Char := property ++ "_value".toList

/-- The declaration of the variable for a property, and the null check of it. -/
def declaringLines (indent receiver property : List Char) : List Char :=
  indent ++ "var ".toList ++ variableFor property ++ " = ".toList ++ receiver ++ ".get(\"".toList ++
    property ++ "\")\n".toList ++ indent ++ "if ".toList ++ variableFor property ++
    " != null:".toList

/-- The header of a branch on a check begins the text. -/
def BeginsHeader (text : List Char) : Prop :=
  ∃ indent receiver property header back, IsCheckHeader indent receiver property header ∧
    text = header ++ back

/-- A character is kept where no header begins a line. A piece that is replaced is a header, and the
variable that is declared in its place is one word just when the property is; then the edited script
holds both lines as they were written. -/
def Segment.DeclaresVariable (edited before back : List Char) : Segment → Prop
  | kept c => ¬ (LineStart before ∧ BeginsHeader (c :: back))
  | replaced piece replacement => LineStart before ∧ ∃ indent receiver property,
      IsCheckHeader indent receiver property piece ∧
      replacement = declaringLines indent receiver property ++
        "  # fixed: has_property() replaced with get() + null check".toList ∧
      ((∀ c ∈ variableFor property, Text.isWord c) ↔ ∀ c ∈ property, Text.isWord c) ∧
      ((∀ c ∈ property, Text.isWord c) → declaringLines indent receiver property <:+: edited)

variable {indent receiver property left back init tail ws front before rest piece replacement :
  List Char} {c : Char} {segments : List Segment}

theorem isWord_variableFor : (∀ c ∈ variableFor property, Text.isWord c) ↔
    ∀ c ∈ property, Text.isWord c := by
  have hsuffix : ∀ c ∈ "_value".toList, Text.isWord c := by decide
  constructor
  · intro h c hc
    exact h c (List.mem_append_left _ hc)
  · intro h c hc
    rcases List.mem_append.mp hc with hc | hc
    · exact h c hc
    · exact hsuffix c hc

/-! ## Checks before their quotes -/

/-- Blanks behind a text are none where the whole ends with another character. -/
theorem eq_of_append_blanks (hws : Blanks ws) (hc : Text.isBlank c = false)
    (h : left ++ ws = front ++ [c]) : left = front ++ [c] := by
  rcases List.eq_nil_or_concat ws with rfl | ⟨ws, d, rfl⟩
  · simpa using h
  · rw [List.concat_eq_append, ← List.append_assoc] at h
    obtain rfl : d = c := (List.cons_eq_cons.mp (List.append_inj_right' h rfl)).1
    simp [hws d (by simp)] at hc

/-- A call of another method ends otherwise. -/
theorem IsReceiverCall.append_blanks_ne {other call : List Char}
    (hcall : IsReceiverCall "has_property" other call) (hws : Blanks ws) (front : List Char) :
    call ++ ws ≠ front ++ "get(".toList := by
  intro h
  obtain ⟨ws', -, -, hws', rfl⟩ := hcall
  have hget : "get(".toList = "ge".toList ++ ['t'] ++ ['('] := by decide
  have hparen : "(".toList = ['('] := by decide
  have hname : "has_property".toList = "has_propert".toList ++ ['y'] := by decide
  rw [hget, ← List.append_assoc] at h
  have hopen := eq_of_append_blanks hws (by decide) h
  rw [hparen] at hopen
  have hblanks := List.append_cancel_right hopen
  rw [← List.append_assoc] at hblanks
  have hend := eq_of_append_blanks hws' (by decide) hblanks
  rw [hname, ← List.append_assoc] at hend
  have hlast := List.append_inj_right' hend rfl
  simp at hlast

theorem not_isQuote_of_isWord (h : Text.isWord c) : isQuote c = false := by
  refine eq_false_of_ne_true fun hquote => ?_
  simp only [isQuote, Bool.or_eq_true, beq_iff_eq] at hquote
  rcases hquote with rfl | rfl <;> exact absurd h (by decide)

theorem not_isQuote_of_isBlank (h : Text.isBlank c) : isQuote c = false := by
  refine eq_false_of_ne_true fun hquote => ?_
  simp [leaves_quote hquote [] c rfl] at h

theorem IsReceiverCall.not_isQuote {other call : List Char}
    (h : IsReceiverCall "has_property" other call) : ∀ c ∈ call, isQuote c = false := by
  obtain ⟨ws, -, hword, hws, rfl⟩ := h
  have hname : ∀ c ∈ ".".toList ++ "has_property".toList, isQuote c = false := by decide
  have hparen : ∀ c ∈ "(".toList, isQuote c = false := by decide
  rw [List.append_assoc other]
  refine List.forall_mem_append.mpr ⟨List.forall_mem_append.mpr ⟨?_, ?_⟩, hparen⟩
  · exact List.forall_mem_append.mpr ⟨fun c hc => not_isQuote_of_isWord (hword c hc), hname⟩
  · exact fun c hc => not_isQuote_of_isBlank (hws c hc)

/-- A check has two quotes, so of two quotes in it the first opens the name. -/
theorem exists_blanks_of_check {other call name argument gap : List Char}
    (hcall : IsReceiverCall "has_property" other call) (hargument : IsQuotedArgument name argument)
    (h : front ++ '"' :: (property ++ '"' :: gap) = call ++ argument) :
    ∃ ws, Blanks ws ∧ front = call ++ ws := by
  obtain ⟨ws₁, opening, closing, ws₂, hws₁, hopening, -, hname, hclosing, hws₂, rfl⟩ := hargument
  have hnone : ∀ text : List Char, (∀ c ∈ text, isQuote c = false) → text.countP isQuote = 0 :=
    fun text htext => List.countP_eq_zero.mpr fun c hc => by simp [htext c hc]
  have hbefore : ∀ c ∈ call ++ ws₁, isQuote c = false :=
    List.forall_mem_append.mpr
      ⟨hcall.not_isQuote, fun c hc => not_isQuote_of_isBlank (hws₁ c hc)⟩
  have hafter : ∀ c ∈ ws₂ ++ ")".toList, isQuote c = false :=
    List.forall_mem_append.mpr ⟨fun c hc => not_isQuote_of_isBlank (hws₂ c hc), by decide⟩
  have hmark : isQuote '"' := by decide
  have hsplit : front ++ '"' :: (property ++ '"' :: gap) =
      (call ++ ws₁) ++ opening :: (name ++ closing :: (ws₂ ++ ")".toList)) := by
    simpa using h
  have hfront : ∀ c ∈ front, isQuote c = false := by
    have hcount := congrArg (List.countP isQuote) hsplit
    rw [List.countP_append, List.countP_append, hnone _ hbefore] at hcount
    simp only [List.countP_cons, hmark, hopening, if_true] at hcount
    rw [List.countP_append, List.countP_append, hnone _ hname] at hcount
    simp only [List.countP_cons, hmark, hclosing, hnone _ hafter, if_true] at hcount
    have hzero : front.countP isQuote = 0 := by omega
    intro c hc
    simpa using List.countP_eq_zero.mp hzero c hc
  have htake := congrArg (List.takeWhile (!isQuote ·)) hsplit
  rw [takeWhile_append_of_leaves (by simpa using hfront) (leaves_cons (by simp [hmark]) _),
    takeWhile_append_of_leaves (by simpa using hbefore)
      (leaves_cons (by simp [hopening]) _)] at htake
  exact ⟨ws₁, hws₁, htake⟩

/-! ## The two lines -/

/-- The first line up to the point of the look-up. -/
def declarationHead (indent receiver property : List Char) : List Char :=
  indent ++ "var ".toList ++ variableFor property ++ " = ".toList ++ receiver

/-- What follows the parenthesis of the look-up, but the colon at the end. -/
def nullCheck (indent property : List Char) : List Char :=
  "\n".toList ++ indent ++ "if ".toList ++ variableFor property ++ " != null".toList

theorem declaringLines_eq (indent receiver property : List Char) :
    declaringLines indent receiver property = declarationHead indent receiver property ++
      '.' :: ("get(".toList ++ '"' :: (property ++ '"' :: ')' :: nullCheck indent property)) ++
        [':'] := by
  have hget : ".get(\"".toList = '.' :: ("get(".toList ++ ['"']) := by decide
  have hclose : "\")\n".toList = '"' :: ')' :: "\n".toList := by decide
  have hnull : " != null:".toList = " != null".toList ++ [':'] := by decide
  rw [declaringLines, declarationHead, nullCheck, hget, hclose, hnull]
  simp only [List.append_assoc, List.cons_append, List.nil_append]

section Lines

variable (hindent : ∀ c ∈ indent, isIndent c) (hreceiver : ∀ c ∈ receiver, Text.isWord c)
  (hproperty : ∀ c ∈ property, Text.isWord c)

include hindent hreceiver hproperty

/-- The point and the closing parenthesis stand in the look-up only. -/
theorem not_mem_declaringLines (hc : c ∈ ['.', ')']) :
    c ∉ declarationHead indent receiver property ∧ c ∉ property ∧
      c ∉ nullCheck indent property := by
  have hmarks : ∀ c ∈ ['.', ')'], Text.isWord c = false ∧ isIndent c = false ∧
      ∀ s ∈ ["var ", "_value", " = ", "\n", "if ", " != null"], c ∉ s.toList := by
    decide
  obtain ⟨hword, hnot, hliterals⟩ := hmarks c hc
  have hi : c ∉ indent := fun h => by simp [hindent c h] at hnot
  have hr : c ∉ receiver := fun h => by simp [hreceiver c h] at hword
  have hp : c ∉ property := fun h => by simp [hproperty c h] at hword
  have hvalue := hliterals "_value" (by simp)
  refine ⟨?_, hp, ?_⟩
  · simp only [declarationHead, variableFor, List.mem_append, not_or]
    exact ⟨⟨⟨⟨hi, hliterals "var " (by simp)⟩, hp, hvalue⟩, hliterals " = " (by simp)⟩, hr⟩
  · simp only [nullCheck, variableFor, List.mem_append, not_or]
    exact ⟨⟨⟨⟨hliterals "\n" (by simp), hi⟩, hliterals "if " (by simp)⟩, hp, hvalue⟩,
      hliterals " != null" (by simp)⟩

/-- No check begins in the two lines: the only point in them is followed by `get`. -/
theorem not_beginsCheck_in_lines (h : declaringLines indent receiver property = init ++ tail)
    (hne : tail ≠ []) (back : List Char) : ¬ BeginsCheck (tail ++ back) := by
  obtain ⟨hhead, hp, hcheck⟩ := not_mem_declaringLines hindent hreceiver hproperty
    (by decide : '.' ∈ ['.', ')'])
  rintro ⟨other, _, name, argument, rest, ⟨ws, -, hword, -, rfl⟩, -, heq⟩
  obtain ⟨others, heq⟩ :
      ∃ others, tail ++ back = other ++ '.' :: ("has_property".toList ++ others) :=
    ⟨ws ++ ("(".toList ++ (argument ++ rest)), by simpa using heq⟩
  rcases List.eq_nil_or_concat tail with rfl | ⟨tail, last, rfl⟩
  · exact hne rfl
  rw [declaringLines_eq, List.concat_eq_append, ← List.append_assoc init] at h
  obtain ⟨hlines, hlast⟩ := List.append_inj' h rfl
  obtain rfl : ':' = last := (List.cons_eq_cons.mp hlast).1
  rw [List.concat_eq_append, List.append_assoc, List.singleton_append] at heq
  rcases List.append_eq_append_iff.mp heq with ⟨gap, rfl, hgap⟩ | ⟨gap, rfl, hgap⟩
  · -- The colon at the end would belong to the receiver.
    cases gap with
    | nil => simp at hgap
    | cons c gap =>
      obtain ⟨rfl, -⟩ := List.cons_eq_cons.mp hgap
      exact absurd (hword ':' (by simp)) (by decide)
  · cases gap with
    | nil => simp at hgap
    | cons c gap =>
      obtain ⟨rfl, hname⟩ := List.cons_eq_cons.mp hgap
      rw [← List.append_assoc] at hlines
      obtain ⟨-, -, rfl⟩ :=
        (List.append_cons_inj_of_notMem hhead (by simp [hp, hcheck])).mp hlines
      simp at hname

/-- No check that begins before the two lines reaches them: it would hold both quotes of the
look-up, and before the first quote stands a call of another method. -/
theorem not_check_into_lines (hne : tail ≠ [])
    (hmatch : propertyCheckCall before (init ++ tail ++ rest) = some (replacement, rest)) :
    tail ++ rest ≠ declaringLines indent receiver property ++ back := by
  intro heq
  obtain ⟨other, call, name, argument, hcall, hargument, hpiece, -⟩ :=
    propertyCheckCall_eq_some_iff.mp hmatch
  have hwhole := List.append_cancel_right hpiece
  -- The parenthesis at the end of the check stands behind the quotes.
  obtain ⟨gap, rfl⟩ : ∃ gap, tail = declarationHead indent receiver property ++
      '.' :: ("get(".toList ++ '"' :: (property ++ '"' :: gap)) := by
    obtain ⟨⟨front, hfront⟩, -⟩ := propertyCheckCall_ends hmatch
    rcases List.eq_nil_or_concat tail with rfl | ⟨others, last, rfl⟩
    · exact absurd rfl hne
    rw [List.concat_eq_append, ← List.append_assoc] at hfront
    obtain rfl : last = ')' := (List.cons_eq_cons.mp (List.append_inj_right' hfront rfl)).1
    obtain ⟨hhead, hp, -⟩ := not_mem_declaringLines hindent hreceiver hproperty
      (by decide : ')' ∈ ['.', ')'])
    have hsplit : (declarationHead indent receiver property ++
        '.' :: ("get(".toList ++ '"' :: (property ++ ['"']))) ++
          ((')' :: nullCheck indent property ++ ':' :: back) ++ []) = others ++ ')' :: rest := by
      rw [declaringLines_eq] at heq
      simpa using heq.symm
    obtain ⟨init, -, rfl, -⟩ := exists_middle (by simp [hhead, hp]) (by simp) hsplit
    exact ⟨init ++ [')'], by simp⟩
  have hsplit : (init ++ declarationHead indent receiver property ++ '.' :: "get(".toList) ++
      '"' :: (property ++ '"' :: gap) = call ++ argument := by
    simpa using hwhole
  obtain ⟨ws, hws, hcheck⟩ := exists_blanks_of_check hcall hargument hsplit
  refine hcall.append_blanks_ne hws (init ++ declarationHead indent receiver property ++ ['.']) ?_
  rw [← hcheck, List.append_assoc _ ['.'], List.singleton_append]

/-- The pass for calls keeps the two lines. -/
theorem declaringLines_infix
    (h : propertyCheckCall.Segments
      (left ++ (declaringLines indent receiver property ++ back)) segments) :
    declaringLines indent receiver property <:+: newText segments := by
  rcases exists_place h.oldText_eq with ⟨earlier, later, rfl, -, hlater⟩ |
    ⟨earlier, replacement, init, tail, later, hsegments, -, htail, -, hlines⟩
  · have hnone : ∀ init tail, declaringLines indent receiver property = init ++ tail → tail ≠ [] →
        ∀ before, propertyCheckCall before (tail ++ back) = none := by
      intro init tail hsplit hne before
      refine Option.not_isSome_iff_eq_none.mp fun hsome => ?_
      have hbegins := beginsCheck_iff.mpr hsome
      exact not_beginsCheck_in_lines hindent hreceiver hproperty hsplit hne back hbegins
    obtain ⟨others, rfl, -⟩ := h.kept_words hlater hnone
    refine ⟨newText earlier, newText others, ?_⟩
    rw [newText_append, newText_append, newText_kept, List.append_assoc]
  · obtain ⟨-, hmatch⟩ := h.eq_some_of_replaced earlier (init ++ tail) replacement later hsegments
    exact absurd hlines.symm (not_check_into_lines hindent hreceiver hproperty htail hmatch)

end Lines

/-! ## Edited scripts -/

/-- What takes the place of a header: the two lines, and a comment behind them. -/
theorem propertyCheckHeader_declares
    (h : propertyCheckHeader front.reverse (piece ++ rest) = some (replacement, rest)) :
    LineStart front ∧ ∃ indent receiver property, IsCheckHeader indent receiver property piece ∧
      replacement = declaringLines indent receiver property ++
        "  # fixed: has_property() replaced with get() + null check".toList := by
  obtain ⟨hstart, indent, receiver, property, header, hheader, hpiece, hreplacement⟩ :=
    propertyCheckHeader_eq_some_iff.mp h
  obtain rfl := List.append_cancel_right hpiece
  refine ⟨hstart, indent, receiver, property, hheader, ?_⟩
  have hdeclared : "_value = ".toList = "_value".toList ++ " = ".toList := by decide
  have hchecked : ("_value != null:  # fixed: has_property() replaced with get() + null check"
      ).toList = "_value".toList ++ (" != null:".toList ++
        "  # fixed: has_property() replaced with get() + null check".toList) := by
    rw [← String.toList_append, ← String.toList_append]
    rfl
  rw [hreplacement, hdeclared, hchecked, declaringLines, variableFor]
  simp only [List.append_assoc]

/-- The edit for `has_property` rewrites the leftmost headers that do not overlap. The variable that
it declares for one is a single word just when the quoted property is. -/
theorem headers_declare_variables (source : List Char) :
    ∃ heads, propertyCheckHeader.Segments source heads ∧
      ∀ earlier segment later, heads = earlier ++ segment :: later →
        segment.DeclaresVariable (FixStrategy.hasProperty.edit source) (oldText earlier)
          (oldText later) := by
  obtain ⟨heads, hheads⟩ := Pattern.exists_segments propertyCheckHeader_adds.consumes source
  refine ⟨heads, hheads, fun earlier segment later hsegments => ?_⟩
  cases segment with
  | kept c =>
    have hnone := hheads.eq_none_of_kept earlier c later hsegments
    rintro ⟨hstart, indent, receiver, property, header, back, hheader, hbegins⟩
    rw [propertyCheckHeader_eq_some_iff.mpr
      ⟨hstart, indent, receiver, property, header, hheader, hbegins, rfl⟩] at hnone
    cases hnone
  | replaced piece replacement =>
    obtain ⟨-, hmatch⟩ := hheads.eq_some_of_replaced earlier piece replacement later hsegments
    obtain ⟨hstart, indent, receiver, property, hheader, hlines⟩ :=
      propertyCheckHeader_declares hmatch
    refine ⟨hstart, indent, receiver, property, hheader, hlines, isWord_variableFor,
      fun hproperty => ?_⟩
    -- The pass for calls meets the two lines behind what was written before them.
    obtain ⟨calls, hcalls⟩ :=
      Pattern.exists_segments propertyCheckCall_adds.consumes (newText heads)
    have hedit : newText calls = FixStrategy.hasProperty.edit source := by
      rw [hcalls.newText_eq, hheads.newText_eq]
      rfl
    rw [hsegments, newText_append, newText_cons, Segment.new, hlines, List.append_assoc] at hcalls
    rw [← hedit]
    obtain ⟨ws₁, call, argument, ws₂, hindent, -, -, ⟨ws, -, hreceiver, -⟩, -⟩ := hheader
    exact declaringLines_infix hindent hreceiver hproperty hcalls

/-- A property with a slash in its name. -/
example : FixStrategy.hasProperty.edit "if m.has_property(\"a/b\"):".toList =
    ("var a/b_value = m.get(\"a/b\")\nif a/b_value != null:" ++
      "  # fixed: has_property() replaced with get() + null check").toList := by
  decide +kernel

end EditorLink.Migration
