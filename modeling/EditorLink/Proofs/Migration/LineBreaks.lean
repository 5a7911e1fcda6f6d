import Mathlib.Data.List.Infix
import EditorLink.Proofs.Migration.Assignments

/-!
# Patterns above a line break

What a pattern finds in a text it also finds when more stands below a line break, and nothing else,
if two things hold: nothing that the pattern looks for is left unfinished at the end of the text,
and what stands below does not begin with a character with which such a thing goes on.
-/

namespace EditorLink.Migration

variable {rest below : List Char} {p : Char → Bool} {s name : String}

/-! ## Texts above and below -/

/-- A text above a line break, with what stands below it. -/
def atop (below rest : List Char) : List Char := rest ++ '\n' :: below

/-- Behind blanks a form goes on with one of these. -/
def goesOn (c : Char) : Bool :=
  isQuote c || c == '(' || c == ')' || c == ':' || c == '.' || c == '='

/-- No form that stands above goes on in the text. -/
def startsAnew (text : List Char) : Bool := (skipBlanks text).head?.all (!goesOn ·)

/-- There are not only blanks. -/
def somethingFollows (rest : List Char) : Bool := !(skipBlanks rest).isEmpty

theorem somethingFollows_iff : somethingFollows rest ↔ skipBlanks rest ≠ [] := by
  simp [somethingFollows]

/-- What stands from a place on passes a test, at every place of a text. -/
def everyPlace (test : List Char → Bool) (text : List Char) : Bool := text.tails.all test

theorem test_of_everyPlace {test : List Char → Bool} {text : List Char}
    (h : everyPlace test text) (hrest : rest <:+ text) : test rest :=
  List.all_eq_true.mp h rest ((List.mem_tails rest text).mpr hrest)

theorem everyPlace_and {test other : List Char → Bool} {text : List Char}
    (h : everyPlace (fun rest => test rest && other rest) text) :
    everyPlace test text ∧ everyPlace other text := by
  simp only [everyPlace, List.all_eq_true, Bool.and_eq_true] at h ⊢
  exact ⟨fun rest hrest => (h rest hrest).1, fun rest hrest => (h rest hrest).2⟩

/-! ## Parts -/

theorem isPrefixOf?_atop {cs : List Char} (hcs : '\n' ∉ cs) :
    cs.isPrefixOf? (atop below rest) = (cs.isPrefixOf? rest).map (atop below) := by
  induction cs generalizing rest with
  | nil => rfl
  | cons c cs ih =>
    obtain ⟨hc, hcs⟩ := List.ne_and_not_mem_of_not_mem_cons hcs
    cases rest with
    | nil => simp [atop, List.isPrefixOf?, Ne.symm hc]
    | cons d rest =>
      have hatop : atop below (d :: rest) = d :: atop below rest := rfl
      rw [hatop, List.isPrefixOf?, List.isPrefixOf?, ih hcs]
      split <;> rfl

theorem literal?_atop (hs : '\n' ∉ s.toList) :
    literal? s (atop below rest) = (literal? s rest).map (atop below) :=
  isPrefixOf?_atop hs

/-- A run that stops in a text, or at what follows it, is the same run with more behind. -/
theorem run_append_of_stops {more : List Char}
    (h : (∃ c ∈ rest, p c = false) ∨ Leaves p more) :
    (rest ++ more).takeWhile p = rest.takeWhile p ∧
      (rest ++ more).dropWhile p = rest.dropWhile p ++ more := by
  induction rest with
  | nil =>
    have hmore : Leaves p more := by simpa using h
    exact ⟨takeWhile_append_of_leaves (List.forall_mem_nil _) hmore,
      dropWhile_append_of_leaves (List.forall_mem_nil _) hmore⟩
  | cons c rest ih =>
    by_cases hc : p c
    · have hrest : (∃ c ∈ rest, p c = false) ∨ Leaves p more := by
        simpa [hc] using h
      simp [hc, ih hrest]
    · simp [hc]

theorem run?_append_of_stops {more : List Char}
    (h : (∃ c ∈ rest, p c = false) ∨ Leaves p more) :
    run? p (rest ++ more) = (run? p rest).map (Prod.map id (· ++ more)) := by
  obtain ⟨htake, hdrop⟩ := run_append_of_stops h
  simp only [run?, htake, hdrop]
  split <;> rfl

theorem run?_atop (hbreak : p '\n' = false) :
    run? p (atop below rest) = (run? p rest).map (Prod.map id (atop below)) :=
  run?_append_of_stops (.inr (leaves_cons hbreak below))

theorem word?_atop : word? (atop below rest) = (word? rest).map (Prod.map id (atop below)) :=
  run?_atop (by decide)

theorem skipBlanks_atop (h : skipBlanks rest ≠ []) :
    skipBlanks (atop below rest) = atop below (skipBlanks rest) :=
  skipBlanks_append_of_ne_nil h _

theorem skipBlanks_over_of_blank (h : skipBlanks rest = []) :
    skipBlanks (atop below rest) = skipBlanks below := by
  have hblank : Blanks rest := List.dropWhile_eq_nil_iff.mp h
  rw [atop, skipBlanks_append hblank]
  rfl

theorem someBlanks?_atop (h : skipBlanks rest ≠ []) :
    someBlanks? (atop below rest) = (someBlanks? rest).map (atop below) := by
  cases rest with
  | nil => exact absurd rfl h
  | cons c rest =>
    have hatop : atop below (c :: rest) = c :: atop below rest := rfl
    rw [hatop, someBlanks?, someBlanks?]
    split
    · next hc =>
      have hrest : skipBlanks rest ≠ [] := by
        simpa [skipBlanks, hc] using h
      rw [skipBlanks_atop hrest]
      rfl
    · rfl

section

variable (hbelow : startsAnew below)

include hbelow

/-- Behind blanks a literal is found only if it is there without what stands below. -/
theorem literal?_skipBlanks_atop (hs : '\n' ∉ s.toList) (hgoes : s.toList.head?.any goesOn) :
    literal? s (skipBlanks (atop below rest)) =
      (literal? s (skipBlanks rest)).map (atop below) := by
  by_cases hblank : skipBlanks rest = []
  · obtain ⟨c, hc, hgoesOn⟩ := (Option.any_eq_true _ _).mp hgoes
    obtain ⟨cs, hcs⟩ := List.head?_eq_some_iff.mp hc
    have hnone : ∀ text : List Char, text.head?.all (!goesOn ·) → literal? s text = none := by
      intro text htext
      refine Option.eq_none_iff_forall_ne_some.mpr fun after hafter => ?_
      rw [literal?_eq_some_iff, hcs] at hafter
      subst hafter
      simp [hgoesOn] at htext
    rw [skipBlanks_over_of_blank hblank, hblank, hnone _ hbelow, hnone [] rfl]
    rfl
  · rw [skipBlanks_atop hblank, literal?_atop hs]

theorem quote?_skipBlanks_atop :
    quote? (skipBlanks (atop below rest)) = (quote? (skipBlanks rest)).map (atop below) := by
  by_cases hblank : skipBlanks rest = []
  · rw [skipBlanks_over_of_blank hblank, hblank]
    unfold startsAnew at hbelow
    cases hfront : skipBlanks below with
    | nil => rfl
    | cons c others =>
      rw [hfront] at hbelow
      have hc : isQuote c = false := by
        simp [goesOn] at hbelow
        tauto
      simp [quote?, hc]
  · rw [skipBlanks_atop hblank]
    obtain ⟨c, others, hfront⟩ := List.exists_cons_of_ne_nil hblank
    have hatop : atop below (c :: others) = c :: atop below others := rfl
    rw [hfront, hatop, quote?, quote?]
    split <;> rfl

theorem openParen?_atop : openParen? (atop below rest) = (openParen? rest).map (atop below) :=
  literal?_skipBlanks_atop hbelow (by decide) (by decide)

theorem receiver?_atop (hname : '\n' ∉ name.toList) :
    receiver? name (atop below rest) = (receiver? name rest).map (Prod.map id (atop below)) := by
  simp only [receiver?, word?_atop, literal?_atop hname,
    literal?_atop (s := ".") (by decide), openParen?_atop hbelow, Option.bind_eq_bind,
    Option.bind_map, Option.map_bind, Function.comp_def, Prod.map_fst, Prod.map_snd, id_eq]
  rfl

/-- An argument is read alike when the string that begins it is closed in the text. -/
theorem quotedArgument?_atop
    (hclosed : (quote? (skipBlanks rest)).all fun rest => rest.any isQuote) :
    quotedArgument? (atop below rest) =
      (quotedArgument? rest).map (Prod.map id (atop below)) := by
  simp only [quotedArgument?, quote?_skipBlanks_atop hbelow, Option.bind_eq_bind]
  cases hquote : quote? (skipBlanks rest) with
  | none => rfl
  | some others =>
    rw [hquote, Option.all_some, List.any_eq_true] at hclosed
    have hrun : run? (!isQuote ·) (atop below others) =
        (run? (!isQuote ·) others).map (Prod.map id (atop below)) := by
      refine run?_append_of_stops (.inl ?_)
      simpa using hclosed
    have hclose : ∀ text, quote? (atop below text) = (quote? text).map (atop below) := by
      intro text
      cases text with
      | nil => rfl
      | cons c text =>
        have hatop : atop below (c :: text) = c :: atop below text := rfl
        rw [hatop, quote?, quote?]
        split <;> rfl
    simp only [Option.map_some, Option.bind_some, hrun, hclose,
      literal?_skipBlanks_atop hbelow (s := ")") (by decide) (by decide), Option.bind_map,
      Option.map_bind, Function.comp_def, Prod.map_fst, Prod.map_snd, id_eq]
    rfl

end

theorem throughParen?_atop (h : ')' ∈ rest) :
    throughParen? (atop below rest) = (throughParen? rest).map (atop below) := by
  have hdrop : (atop below rest).dropWhile (· != ')') =
      atop below (rest.dropWhile (· != ')')) :=
    (run_append_of_stops (.inl ⟨')', h, rfl⟩)).2
  rw [throughParen?, hdrop, literal?_atop (by decide)]
  rfl

/-! ## Unfinished forms -/

/-- No form that the strategy looks for is left unfinished at the end of the text: calls are closed
in it, and strings in the calls of `has_property`; and something follows in it behind `if`,
`class_name` and `extends`, behind the point after `material`, and behind the equals sign of an
assignment. -/
def FixStrategy.finishes (text : List Char) : FixStrategy → Bool
  | .hasProperty => everyPlace (fun rest => (receiver? "has_property" rest).all (fun found =>
      (quote? (skipBlanks found.2)).all fun rest => rest.any isQuote) &&
        (literal? "if" rest).all somethingFollows) text
  | .setLooped => everyPlace (fun rest =>
      (receiver? "set_looped" rest).all fun found => found.2.contains ')') text
  | .colorAtOffset => everyPlace (fun rest =>
      (receiver? "get_color_at_offset" rest).all fun found => found.2.contains ')') text
  | .colorRect => everyPlace (fun rest =>
      (literal? "class_name" rest).all somethingFollows &&
        (literal? "extends" rest).all somethingFollows) text
  | .material property => everyPlace (fun rest =>
      ((literal? "material" rest).bind fun rest => literal? "." (skipBlanks rest)).all
          somethingFollows &&
        (materialTarget? property rest).all somethingFollows) text

/-- At every place of a text the pattern finds the same when something stands below. -/
def Pattern.KeptIn {α : Type} (pattern : Pattern α) (text below : List Char) : Prop :=
  ∀ before rest, rest <:+ text →
    pattern before (atop below rest) = (pattern before rest).map (Prod.map id (atop below))

section

variable {text : List Char} {template : List Char → List Char}

theorem colorRectAfter_keptIn {keyword : String} (hkeyword : '\n' ∉ keyword.toList)
    (h : everyPlace (fun rest => (literal? keyword rest).all somethingFollows) text) :
    (colorRectAfter keyword).KeptIn text below := by
  intro before rest hrest
  have hplace := test_of_everyPlace h hrest
  simp only [colorRectAfter, literal?_atop hkeyword, Option.bind_eq_bind]
  cases hfound : literal? keyword rest with
  | none => rfl
  | some others =>
    rw [hfound, Option.all_some, somethingFollows_iff] at hplace
    have hend : ∀ text, atWordEnd (atop below text) = atWordEnd text := by
      intro text
      cases text <;> rfl
    simp only [Option.map_some, Option.bind_some, someBlanks?_atop hplace,
      literal?_atop (by decide : '\n' ∉ "ColorRect".toList), hend, Option.bind_map,
      Option.map_bind, Function.comp_def]
    rfl

variable (hbelow : startsAnew below)

include hbelow

theorem replacedCall_keptIn (hname : '\n' ∉ name.toList)
    (h : everyPlace (fun rest =>
      (receiver? name rest).all fun found => found.2.contains ')') text) :
    (replacedCall name template).KeptIn text below := by
  intro before rest hrest
  have hclosed := test_of_everyPlace h hrest
  simp only [replacedCall, receiver?_atop hbelow hname, Option.bind_eq_bind]
  cases hfound : receiver? name rest with
  | none => rfl
  | some found =>
    rw [hfound, Option.all_some, List.contains_iff_mem] at hclosed
    simp only [Option.map_some, Option.bind_some, Prod.map_snd, throughParen?_atop hclosed,
      Option.bind_map, Option.map_bind, Function.comp_def, Prod.map_fst, id_eq]
    rfl

theorem propertyCheckCall_keptIn (h : FixStrategy.hasProperty.finishes text) :
    propertyCheckCall.KeptIn text below := by
  intro before rest hrest
  have hplace := test_of_everyPlace h hrest
  rw [Bool.and_eq_true] at hplace
  simp only [propertyCheckCall, receiver?_atop hbelow (by decide : '\n' ∉ "has_property".toList),
    Option.bind_eq_bind]
  cases hfound : receiver? "has_property" rest with
  | none => rfl
  | some found =>
    rw [hfound, Option.all_some] at hplace
    simp only [Option.map_some, Option.bind_some, Prod.map_snd,
      quotedArgument?_atop hbelow hplace.1, Option.bind_map, Option.map_bind, Function.comp_def,
      Prod.map_fst, id_eq]
    rfl

theorem propertyCheckHeader_keptIn (h : FixStrategy.hasProperty.finishes text) :
    propertyCheckHeader.KeptIn text below := by
  intro before rest hrest
  obtain ⟨htake, hdrop⟩ : (atop below rest).takeWhile isIndent = rest.takeWhile isIndent ∧
      (atop below rest).dropWhile isIndent = atop below (rest.dropWhile isIndent) :=
    run_append_of_stops (.inr (leaves_cons (by decide) below))
  have hindent : rest.dropWhile isIndent <:+ text := (List.dropWhile_suffix _).trans hrest
  simp only [propertyCheckHeader, htake, hdrop, literal?_atop (by decide : '\n' ∉ "if".toList),
    Option.bind_eq_bind, Option.map_bind]
  congr 1
  funext _
  cases hif : literal? "if" (rest.dropWhile isIndent) with
  | none => rfl
  | some head =>
    have hfollows := (Bool.and_eq_true _ _ ▸ test_of_everyPlace h hindent).2
    rw [hif, Option.all_some, somethingFollows_iff] at hfollows
    simp only [Option.map_some, Option.bind_some, Function.comp_apply, someBlanks?_atop hfollows]
    cases hblanks : someBlanks? head with
    | none => rfl
    | some call =>
      have hcall : call <:+ text := by
        obtain ⟨ws, -, -, hhead, -⟩ := someBlanks?_eq_some_iff.mp hblanks
        rw [literal?_eq_some_iff.mp hif, hhead] at hindent
        exact ((List.suffix_append _ _).trans (List.suffix_append _ _)).trans hindent
      simp only [Option.map_some, Option.bind_some,
        receiver?_atop hbelow (by decide : '\n' ∉ "has_property".toList)]
      cases hfound : receiver? "has_property" call with
      | none => rfl
      | some found =>
        have hclosed := (Bool.and_eq_true _ _ ▸ test_of_everyPlace h hcall).1
        rw [hfound, Option.all_some] at hclosed
        simp only [Option.map_some, Option.bind_some, Prod.map_fst, Prod.map_snd, id_eq,
          quotedArgument?_atop hbelow hclosed, Option.bind_map, Option.map_bind,
          Function.comp_def, literal?_skipBlanks_atop hbelow (by decide : '\n' ∉ ":".toList)
            (by decide)]
        rfl

theorem colorRectCall_keptIn : colorRectCall.KeptIn text below := by
  intro before rest _
  have hcall : ∀ rest, literal? "()" (skipBlanks (atop below rest)) =
      (literal? "()" (skipBlanks rest)).map (atop below) :=
    fun _ => literal?_skipBlanks_atop hbelow (by decide) (by decide)
  simp only [colorRectCall, literal?_atop (by decide : '\n' ∉ "ColorRect".toList),
    Option.bind_eq_bind, Option.map_bind]
  congr 1
  funext _
  cases literal? "ColorRect" rest with
  | none => rfl
  | some others =>
    simp only [Option.map_some, Option.bind_some, Function.comp_apply,
      literal?_skipBlanks_atop hbelow (by decide : '\n' ∉ ".new".toList) (by decide)]
    cases literal? ".new" (skipBlanks others) with
    | none =>
      simp only [Option.map_none, Option.getD_none, hcall, Option.bind_map, Option.map_bind,
        Function.comp_def]
      rfl
    | some called =>
      simp only [Option.map_some, Option.getD_some, hcall, Option.bind_map, Option.map_bind,
        Function.comp_def]
      rfl

/-- A target is read alike where something follows the point after `material`. -/
theorem materialTarget?_atop {property : MaterialProperty}
    (h : FixStrategy.finishes text (.material property)) (hrest : rest <:+ text) :
    materialTarget? property (atop below rest) =
      (materialTarget? property rest).map (atop below) := by
  have hname : '\n' ∉ property.name.toList := by cases property <;> decide
  have hlead : (literal? "process_" (atop below rest)).getD (atop below rest) =
      atop below ((literal? "process_" rest).getD rest) := by
    rw [literal?_atop (by decide)]
    cases literal? "process_" rest <;> rfl
  have hsuffix : (literal? "process_" rest).getD rest <:+ text := by
    cases hfound : literal? "process_" rest with
    | none => exact hrest
    | some others =>
      rw [literal?_eq_some_iff.mp hfound] at hrest
      exact (List.suffix_append _ _).trans hrest
  have hplace := (Bool.and_eq_true _ _ ▸ test_of_everyPlace h hsuffix).1
  simp only [materialTarget?, hlead, literal?_atop (by decide : '\n' ∉ "material".toList),
    Option.bind_eq_bind]
  cases hword : literal? "material" ((literal? "process_" rest).getD rest) with
  | none => rfl
  | some others =>
    rw [hword, Option.bind_some] at hplace
    simp only [Option.map_some, Option.bind_some,
      literal?_skipBlanks_atop hbelow (by decide : '\n' ∉ ".".toList) (by decide)]
    cases hpoint : literal? "." (skipBlanks others) with
    | none => rfl
    | some named =>
      rw [hpoint, Option.all_some, somethingFollows_iff] at hplace
      simp only [Option.map_some, Option.bind_some, skipBlanks_atop hplace, literal?_atop hname,
        literal?_skipBlanks_atop hbelow (by decide : '\n' ∉ "=".toList) (by decide),
        Option.bind_map, Option.map_bind, Function.comp_def]

end

/-- A value is read alike where something follows the blanks before it. -/
theorem assignedValue?_atop (h : skipBlanks rest ≠ []) :
    assignedValue? (atop below rest) = (assignedValue? rest).map (Prod.map id (atop below)) := by
  have hstop : ∃ c ∈ rest, Text.isBlank c = false := by
    simpa [skipBlanks] using h
  have hblanks : (atop below rest).takeWhile Text.isBlank = rest.takeWhile Text.isBlank :=
    (run_append_of_stops (.inl hstop)).1
  simp only [assignedValue?, hblanks, skipBlanks_atop h,
    run?_atop (p := (!endsValue ·)) (by decide : (!endsValue '\n') = false)]
  cases run? (!endsValue ·) (skipBlanks rest) with
  | some found => rfl
  | none =>
    -- The value is the blanks up to the last that is no line break.
    obtain ⟨breaks, -, hkept⟩ :=
      Text.exists_dropRightWhile (· == '\n') (rest.takeWhile Text.isBlank)
    have hlength : (Text.dropRightWhile (· == '\n') (rest.takeWhile Text.isBlank)).length ≤
        rest.length := by
      have hprefix : (rest.takeWhile Text.isBlank).length ≤ rest.length :=
        (List.takeWhile_prefix _).length_le
      rw [hkept, List.length_append] at hprefix
      omega
    simp only [Option.map_none, atop, List.drop_append_of_le_length hlength]
    split <;> rfl

/-! ## Assignments -/

/-- An assignment to a property: its value, and what follows. -/
def assigned? (property : MaterialProperty) (rest : List Char) : Option (List Char × List Char) :=
  (materialTarget? property rest).bind assignedValue?

/-- The form with an owner, or else the one without where a word starts. -/
theorem materialStatement_eq_or (property : MaterialProperty) (before rest : List Char) :
    materialStatement property before rest =
      ((word? rest).bind fun found => (literal? "." found.2).bind fun rest =>
        (assigned? property rest).map fun taken =>
          (movedAssignment property found.1 (Text.trim taken.1), taken.2)).or
      (if atWordStart before then (assigned? property rest).map fun taken =>
        (movedAssignment property (particlesAbove before) (Text.trim taken.1), taken.2)
      else none) := by
  have hbare : (do
      guard (atWordStart before)
      let rest ← materialTarget? property rest
      let taken ← assignedValue? rest
      return (movedAssignment property (particlesAbove before) (Text.trim taken.1), taken.2) :
        Option (List Char × List Char)) =
      if atWordStart before then (assigned? property rest).map fun taken =>
        (movedAssignment property (particlesAbove before) (Text.trim taken.1), taken.2)
      else none := by
    by_cases hstart : atWordStart before
    · cases htarget : materialTarget? property rest with
      | none => simp [hstart, assigned?, htarget]
      | some others => cases hvalue : assignedValue? others <;>
          simp [hstart, assigned?, htarget, hvalue]
    · simp [hstart]
  rw [← hbare]
  unfold materialStatement ownedTarget? assigned?
  cases hword : word? rest with
  | none => rfl
  | some found =>
    cases hpoint : literal? "." found.2 with
    | none => simp [hpoint]
    | some others =>
      cases htarget : materialTarget? property others with
      | none => simp [hpoint, htarget]
      | some assigned => cases hvalue : assignedValue? assigned <;>
          simp [hpoint, htarget, hvalue]

section

variable {text : List Char} {property : MaterialProperty} (hbelow : startsAnew below)
  (h : FixStrategy.finishes text (.material property))

include hbelow h

theorem assigned?_atop (hrest : rest <:+ text) :
    assigned? property (atop below rest) =
      (assigned? property rest).map (Prod.map id (atop below)) := by
  have hplace := (Bool.and_eq_true _ _ ▸ test_of_everyPlace h hrest).2
  rw [assigned?, assigned?, materialTarget?_atop hbelow h hrest]
  cases htarget : materialTarget? property rest with
  | none => rfl
  | some others =>
    rw [htarget, Option.all_some, somethingFollows_iff] at hplace
    exact assignedValue?_atop hplace

theorem materialStatement_keptIn : (materialStatement property).KeptIn text below := by
  intro before rest hrest
  rw [materialStatement_eq_or, materialStatement_eq_or, Option.map_or,
    assigned?_atop hbelow h hrest, word?_atop]
  congr 1
  · cases hword : word? rest with
    | none => rfl
    | some found =>
      simp only [Option.map_some, Option.bind_some, Prod.map_fst, Prod.map_snd, id_eq,
        literal?_atop (by decide : '\n' ∉ ".".toList)]
      cases hpoint : literal? "." found.2 with
      | none => rfl
      | some others =>
        have hothers : others <:+ text := by
          obtain ⟨hsplit, -⟩ := word?_eq_some_iff.mp hword
          rw [hsplit, literal?_eq_some_iff.mp hpoint] at hrest
          exact ((List.suffix_append _ _).trans (List.suffix_append _ _)).trans hrest
        simp only [Option.map_some, Option.bind_some, assigned?_atop hbelow h hothers,
          Option.map_map]
        rfl
  · split
    · simp only [Option.map_map]
      rfl
    · rfl

end

/-! ## Passes of strategies -/

theorem FixStrategy.consumes_of_mem {strategy : FixStrategy} {pass : Pattern (List Char)}
    (hpass : pass ∈ strategy.passes) : pass.Consumes := by
  cases strategy with
  | hasProperty =>
    simp only [passes, List.mem_cons, List.not_mem_nil, or_false] at hpass
    rcases hpass with rfl | rfl
    · exact propertyCheckHeader_adds.consumes
    · exact propertyCheckCall_adds.consumes
  | setLooped =>
    obtain ⟨note, heq⟩ := loopedCall_eq
    obtain rfl := (List.mem_singleton.mp hpass).trans heq
    exact replacedCall_consumes _ _
  | colorAtOffset =>
    obtain ⟨template, heq, -⟩ := colorAtOffsetCall_eq
    obtain rfl := (List.mem_singleton.mp hpass).trans heq
    exact replacedCall_consumes _ _
  | colorRect =>
    simp only [passes, List.mem_cons, List.not_mem_nil, or_false] at hpass
    rcases hpass with rfl | rfl | rfl
    · exact (colorRectAfter_adds _).consumes
    · exact (colorRectAfter_adds _).consumes
    · exact colorRectCall_adds.consumes
  | material property =>
    obtain rfl := List.mem_singleton.mp hpass
    exact (materialStatement_adds property).consumes

theorem FixStrategy.keptIn_of_mem {strategy : FixStrategy} {pass : Pattern (List Char)}
    {text : List Char} (hpass : pass ∈ strategy.passes) (hbelow : startsAnew below)
    (h : strategy.finishes text) : pass.KeptIn text below := by
  cases strategy with
  | hasProperty =>
    simp only [passes, List.mem_cons, List.not_mem_nil, or_false] at hpass
    rcases hpass with rfl | rfl
    · exact propertyCheckHeader_keptIn hbelow h
    · exact propertyCheckCall_keptIn hbelow h
  | setLooped =>
    obtain ⟨note, heq⟩ := loopedCall_eq
    obtain rfl := (List.mem_singleton.mp hpass).trans heq
    exact replacedCall_keptIn hbelow (by decide) h
  | colorAtOffset =>
    obtain ⟨template, heq, -⟩ := colorAtOffsetCall_eq
    obtain rfl := (List.mem_singleton.mp hpass).trans heq
    exact replacedCall_keptIn hbelow (by decide) h
  | colorRect =>
    simp only [passes, List.mem_cons, List.not_mem_nil, or_false] at hpass
    rcases hpass with rfl | rfl | rfl
    · exact colorRectAfter_keptIn (by decide) (everyPlace_and h).1
    · exact colorRectAfter_keptIn (by decide) (everyPlace_and h).2
    · exact colorRectCall_keptIn hbelow
  | material property =>
    obtain rfl := List.mem_singleton.mp hpass
    exact materialStatement_keptIn hbelow h

end EditorLink.Migration
