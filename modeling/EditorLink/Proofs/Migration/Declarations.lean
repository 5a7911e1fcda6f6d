import Mathlib.Data.List.DropRight
import Mathlib.Data.List.Forall2
import EditorLink.Proofs.Migration.Strategies

/-!
# Declarations of particles nodes

An assignment that names no owner belongs to the particles node that the lines above it declare.
`IsDeclaration` says what a declaration is, and `Declares` which variable a line declares: that of
its first declaration. `IsNodeAbove` picks the topmost line that declares one. Trimming a line takes
no declaration from it, since a declaration begins and ends with a letter.
-/

namespace EditorLink.Migration

/-- A word in any case of its letters. -/
def AnyCase (s : String) (text : List Char) : Prop :=
  List.Forall₂ (fun letter c => sameLetter letter c) s.toList text

/-- The dollar sign, or a call of `get_node` with an argument. -/
def IsNodeLookup (lookup : List Char) : Prop :=
  lookup = "$".toList ∨ ∃ call argument, AnyCase "get_node(" call ∧ argument ≠ [] ∧
    ')' ∉ argument ∧ lookup = call ++ argument ++ ")".toList

/-- The declaration of a variable for a node, up to the mention of particles in its look-up. -/
def IsDeclaration (name piece : List Char) : Prop :=
  ∃ keyword ws₁ ws₂ ws₃ lookup path mention, AnyCase "var" keyword ∧ ws₁ ≠ [] ∧ Blanks ws₁ ∧
    name ≠ [] ∧ (∀ c ∈ name, Text.isWord c) ∧ Blanks ws₂ ∧ Blanks ws₃ ∧ IsNodeLookup lookup ∧
    ';' ∉ path ∧ AnyCase "particle" mention ∧
    piece = keyword ++ ws₁ ++ name ++ ws₂ ++ "=".toList ++ ws₃ ++ lookup ++ path ++ mention

/-- The first declaration in the line is one of the variable. -/
def Declares (line name : List Char) : Prop :=
  ∃ front piece back, line = front ++ piece ++ back ∧ IsDeclaration name piece ∧
    ∀ front' name' piece' back', line = front' ++ piece' ++ back' → IsDeclaration name' piece' →
      front.length ≤ front'.length

/-- The variable that the topmost line with a declaration declares, or `particles` where no line has
one. -/
def IsNodeAbove (lines : List (List Char)) (node : List Char) : Prop :=
  (∃ above line below, lines = above ++ line :: below ∧
      (∀ other ∈ above, ∀ name, ¬ Declares other name) ∧ Declares line node) ∨
    (∀ line ∈ lines, ∀ name, ¬ Declares line name) ∧ node = "particles".toList

/-- The lines above line `n` of a source, at most the last `count`, from top to bottom. -/
def linesOver (count n : Nat) (source : List Char) : List (List Char) :=
  ((source.splitOn '\n').take n).drop (n - count)

variable {rest after before text front back line name piece : List Char} {s : String}

/-! ## Letters in any case -/

theorem literalAnyCase?_eq_some_iff {letters : List Char} :
    literalAnyCase? letters rest = some after ↔
      ∃ taken, List.Forall₂ (fun letter c => sameLetter letter c) letters taken ∧
        rest = taken ++ after := by
  induction letters generalizing rest with
  | nil => simp [literalAnyCase?]
  | cons letter letters ih =>
    cases rest with
    | nil =>
      constructor
      · intro h
        cases h
      · rintro ⟨taken, hletters, heq⟩
        obtain ⟨c, taken, -, -, rfl⟩ := List.forall₂_cons_left_iff.mp hletters
        cases heq
    | cons c rest =>
      simp only [literalAnyCase?, List.forall₂_cons_left_iff, Option.ite_none_right_eq_some, ih]
      constructor
      · rintro ⟨hc, taken, hletters, rfl⟩
        exact ⟨c :: taken, ⟨c, taken, hc, hletters, rfl⟩, rfl⟩
      · rintro ⟨_, ⟨d, taken, hd, hletters, rfl⟩, heq⟩
        obtain ⟨rfl, rfl⟩ := List.cons_eq_cons.mp heq
        exact ⟨hd, taken, hletters, rfl⟩

theorem isBlank_of_isWord {c : Char} (h : Text.isWord c) : Text.isBlank c = false := by
  refine eq_false_of_ne_true fun hblank => ?_
  rw [Text.isWord_of_isBlank hblank] at h
  cases h

theorem isWord_of_sameLetter {letter c : Char} (hletter : Text.isWord letter)
    (h : sameLetter letter c) : Text.isWord c := by
  have hdotless : Text.isWord 'ı' ∧ Text.isWord 'İ' := by decide +kernel
  by_cases hc : c.isUpper
  · have halpha : c.isAlpha := Bool.or_eq_true_iff.mpr (.inl hc)
    simp [Text.isWord, Char.isAlphanum, halpha]
  · have hlower : c.toLower = c := dif_neg (of_decide_eq_false (eq_false_of_ne_true hc))
    simp only [sameLetter, hlower, Bool.or_eq_true, Bool.and_eq_true, beq_iff_eq] at h
    rcases h with rfl | ⟨-, rfl | rfl⟩
    · exact hletter
    · exact hdotless.1
    · exact hdotless.2

theorem AnyCase.isWord_of_mem (h : AnyCase s text) (hs : ∀ letter ∈ s.toList, Text.isWord letter) :
    ∀ c ∈ text, Text.isWord c := by
  unfold AnyCase at h
  generalize s.toList = letters at h hs
  induction h with
  | nil => exact List.forall_mem_nil _
  | cons hsame hrest ih =>
    obtain ⟨hletter, hs⟩ := List.forall_mem_cons.mp hs
    exact List.forall_mem_cons.mpr ⟨isWord_of_sameLetter hletter hsame, ih hs⟩

theorem AnyCase.ne_nil (h : AnyCase s text) (hs : s.toList ≠ []) : text ≠ [] := by
  rintro rfl
  exact hs (List.forall₂_nil_right_iff.mp h)

/-! ## Declarations -/

theorem nodeLookup?_eq_some_iff : nodeLookup? rest = some after ↔
    ∃ lookup, IsNodeLookup lookup ∧ rest = lookup ++ after := by
  unfold nodeLookup?
  constructor
  · intro h
    split at h
    · next others hdollar =>
      cases h
      exact ⟨_, .inl rfl, literal?_eq_some_iff.mp hdollar⟩
    · simp only [Option.bind_eq_bind, Option.bind_eq_some_iff, Prod.exists,
        literalAnyCase?_eq_some_iff, run?_eq_some_iff, literal?_eq_some_iff] at h
      obtain ⟨_, ⟨call, hcall, rfl⟩, argument, _, ⟨rfl, hne, hargument, -⟩, rfl⟩ := h
      refine ⟨_, .inr ⟨call, argument, hcall, hne, fun hmem => ?_, rfl⟩, by simp⟩
      simpa using hargument _ hmem
  · rintro ⟨lookup, rfl | ⟨call, argument, hcall, hne, hargument, rfl⟩, rfl⟩
    · rw [literal?_eq_some_iff.mpr rfl]
    · have hdollar : literal? "$" (call ++ argument ++ ")".toList ++ after) = none := by
        cases hfound : literal? "$" (call ++ argument ++ ")".toList ++ after) with
        | none => rfl
        | some others =>
          have heq := literal?_eq_some_iff.mp hfound
          obtain ⟨c, call, hc, -, rfl⟩ := List.forall₂_cons_left_iff.mp hcall
          obtain ⟨rfl, -⟩ := List.cons_eq_cons.mp heq
          exact absurd (isWord_of_sameLetter (by decide) hc) (by decide)
      rw [hdollar]
      simp only [Option.bind_eq_bind, Option.bind_eq_some_iff, Prod.exists,
        literalAnyCase?_eq_some_iff, run?_eq_some_iff, literal?_eq_some_iff]
      refine ⟨argument ++ (")".toList ++ after), ⟨call, hcall, by simp⟩, argument, _,
        ⟨rfl, hne, fun c hc => ?_, leaves_cons (by decide) after⟩, rfl⟩
      simpa using fun heq : c = ')' => hargument (heq ▸ hc)

/-- The look-up mentions particles before the next semicolon. -/
theorem mentionsParticles_iff :
    (anyCase "particle").occurs (rest.takeWhile (· != ';')) ↔
      ∃ path mention back, ';' ∉ path ∧ AnyCase "particle" mention ∧
        rest = path ++ mention ++ back := by
  rw [Pattern.occurs_iff fun before => rfl]
  simp only [anyCase, Option.map_eq_some_iff, literalAnyCase?_eq_some_iff]
  constructor
  · rintro ⟨path, captured, _, _, hpath, back, ⟨mention, hmention, rfl⟩, -⟩
    refine ⟨path, mention, back ++ rest.dropWhile (· != ';'), fun hmem => ?_, hmention, ?_⟩
    · have hin : ';' ∈ rest.takeWhile (· != ';') := by
        rw [hpath]
        exact List.mem_append_left _ hmem
      simpa using mem_takeWhile hin
    · rw [← List.append_assoc, List.append_assoc path, ← hpath, List.takeWhile_append_dropWhile]
  · rintro ⟨path, mention, back, hpath, hmention, rfl⟩
    have hwords := hmention.isWord_of_mem (by decide)
    have htaken : ∀ c ∈ path ++ mention, (c != ';') := by
      intro c hc
      rcases List.mem_append.mp hc with hc | hc
      · simpa using fun heq : c = ';' => hpath (heq ▸ hc)
      · simpa using fun heq : c = ';' => absurd (heq ▸ hwords c hc) (by decide)
    refine ⟨path, (), _, back.takeWhile (· != ';'), ?_, back.takeWhile (· != ';'),
      ⟨mention, hmention, rfl⟩, rfl⟩
    rw [List.takeWhile_append_of_pos htaken, List.append_assoc]

theorem IsNodeLookup.leaves {lookup : List Char} (h : IsNodeLookup lookup) (back : List Char) :
    Leaves Text.isBlank (lookup ++ back) := by
  rcases h with rfl | ⟨call, argument, hcall, -, -, rfl⟩
  · exact leaves_cons (by decide) back
  · obtain ⟨c, call, hc, -, rfl⟩ := List.forall₂_cons_left_iff.mp hcall
    exact leaves_cons (isBlank_of_isWord (isWord_of_sameLetter (by decide) hc)) _

theorem nodeLookup?_skipBlanks_eq_some_iff : nodeLookup? (skipBlanks rest) = some after ↔
    ∃ ws lookup, Blanks ws ∧ IsNodeLookup lookup ∧ rest = ws ++ (lookup ++ after) := by
  rw [nodeLookup?_eq_some_iff]
  constructor
  · rintro ⟨lookup, hlookup, hskip⟩
    obtain ⟨ws, hws, hrest⟩ := (skipBlanks_eq_iff (hlookup.leaves after)).mp hskip
    exact ⟨ws, lookup, hws, hlookup, hrest⟩
  · rintro ⟨ws, lookup, hws, hlookup, rfl⟩
    exact ⟨lookup, hlookup, (skipBlanks_eq_iff (hlookup.leaves after)).mpr ⟨ws, hws, rfl⟩⟩

/-- The pattern captures the variable of the declaration that begins at the place. -/
theorem particlesDeclaration_eq_some_iff :
    (∃ after, particlesDeclaration before rest = some (name, after)) ↔
      ∃ piece back, IsDeclaration name piece ∧ rest = piece ++ back := by
  simp only [particlesDeclaration, Option.bind_eq_bind, Option.bind_eq_some_iff, Prod.exists,
    literalAnyCase?_eq_some_iff, someBlanks?_eq_some_iff, word?_eq_some_iff,
    literal?_skipBlanks_eq_some_iff (by decide : Solid "="), nodeLookup?_skipBlanks_eq_some_iff,
    Option.guard_eq_some', mentionsParticles_iff, Option.pure_def, Option.some_inj, Prod.mk.injEq]
  constructor
  · rintro ⟨_, _, ⟨keyword, hkeyword, rfl⟩, _, ⟨ws₁, hne₁, hws₁, rfl, -⟩, word, _,
      ⟨rfl, hne, hword, -⟩, _, ⟨ws₂, hws₂, rfl⟩, _, ⟨ws₃, lookup, hws₃, hlookup, rfl⟩, -,
      ⟨path, mention, back, hpath, hmention, rfl⟩, rfl, -⟩
    exact ⟨_, back, ⟨keyword, ws₁, ws₂, ws₃, lookup, path, mention, hkeyword, hne₁, hws₁, hne,
      hword, hws₂, hws₃, hlookup, hpath, hmention, rfl⟩, by simp⟩
  · rintro ⟨_, back, ⟨keyword, ws₁, ws₂, ws₃, lookup, path, mention, hkeyword, hne₁, hws₁, hne,
      hword, hws₂, hws₃, hlookup, hpath, hmention, rfl⟩, rfl⟩
    have hname : Leaves Text.isBlank
        (name ++ (ws₂ ++ ("=".toList ++ (ws₃ ++ (lookup ++ (path ++ mention ++ back)))))) := by
      obtain ⟨c, name, rfl⟩ := List.exists_cons_of_ne_nil hne
      exact leaves_cons (isBlank_of_isWord (hword c List.mem_cons_self)) _
    have hend : Leaves Text.isWord (ws₂ ++ ("=".toList ++ (ws₃ ++ (lookup ++
        (path ++ mention ++ back))))) := by
      cases ws₂ with
      | nil => exact leaves_cons (by decide) _
      | cons c ws₂ => exact leaves_cons (Text.isWord_of_isBlank (hws₂ c List.mem_cons_self)) _
    exact ⟨_, _, ⟨keyword, hkeyword, by simp⟩, _, ⟨ws₁, hne₁, hws₁, rfl, hname⟩, name, _,
      ⟨rfl, hne, hword, hend⟩, _, ⟨ws₂, hws₂, rfl⟩, _, ⟨ws₃, lookup, hws₃, hlookup, rfl⟩, (),
      ⟨path, mention, back, hpath, hmention, rfl⟩, rfl, rfl⟩

/-! ## The first declaration of a line -/

theorem exists_first_of_searchFrom {α : Type} {pattern : Pattern α} {captured : α}
    (h : pattern.searchFrom before text = some captured) :
    ∃ front rest after, text = front ++ rest ∧
      pattern (front.reverse ++ before) rest = some (captured, after) ∧
      ∀ front' rest', text = front' ++ rest' → front'.length < front.length →
        pattern (front'.reverse ++ before) rest' = none := by
  induction text generalizing before with
  | nil => cases h
  | cons c text ih =>
    rw [Pattern.searchFrom] at h
    split at h
    · next captured' after hmatch =>
      cases h
      exact ⟨[], c :: text, after, rfl, hmatch, fun _ _ _ hlt => absurd hlt (Nat.not_lt_zero _)⟩
    · next hnone =>
      obtain ⟨front, rest, after, rfl, hmatch, hfirst⟩ := ih h
      refine ⟨c :: front, rest, after, rfl, by simpa using hmatch, fun front' rest' heq hlt => ?_⟩
      cases front' with
      | nil =>
        obtain rfl : c :: (front ++ rest) = rest' := heq
        exact hnone
      | cons d front' =>
        obtain ⟨rfl, hrest⟩ := List.cons_eq_cons.mp heq
        simpa using hfirst front' rest' hrest (Nat.lt_of_succ_lt_succ hlt)

theorem eq_none_of_searchFrom {α : Type} {pattern : Pattern α}
    (h : pattern.searchFrom before text = none) (htext : text = front ++ rest) (hne : rest ≠ []) :
    pattern (front.reverse ++ before) rest = none := by
  induction text generalizing before front with
  | nil => exact absurd (List.append_eq_nil_iff.mp htext.symm).2 hne
  | cons c text ih =>
    rw [Pattern.searchFrom] at h
    split at h
    · cases h
    · next hnone =>
      cases front with
      | nil =>
        obtain rfl : c :: text = rest := htext
        exact hnone
      | cons d front =>
        obtain ⟨rfl, hrest⟩ := List.cons_eq_cons.mp htext
        simpa using ih h hrest

/-- A declaration begins and ends with a letter. -/
theorem IsDeclaration.ends (h : IsDeclaration name piece) :
    (∃ first rest, piece = first :: rest ∧ Text.isWord first) ∧
      ∃ init last, piece = init ++ [last] ∧ Text.isWord last := by
  obtain ⟨keyword, ws₁, ws₂, ws₃, lookup, path, mention, hkeyword, -, -, -, -, -, -, -, -, hmention,
    rfl⟩ := h
  have hfirst := hkeyword.isWord_of_mem (by decide)
  have hlast := hmention.isWord_of_mem (by decide)
  obtain ⟨first, keyword, rfl⟩ := List.exists_cons_of_ne_nil (hkeyword.ne_nil (by decide))
  obtain ⟨init, last, rfl⟩ := List.eq_nil_or_concat mention |>.resolve_left
    (hmention.ne_nil (by decide))
  refine ⟨⟨first, _, rfl, hfirst first List.mem_cons_self⟩, ?_⟩
  exact ⟨first :: keyword ++ ws₁ ++ name ++ ws₂ ++ "=".toList ++ ws₃ ++ lookup ++ path ++ init,
    last, by simp, hlast last (by simp)⟩

/-- Blanks around a text take no part in a declaration. -/
theorem IsDeclaration.inside {ws₁ ws₂ : List Char} (h : IsDeclaration name piece)
    (hws₁ : Blanks ws₁) (hws₂ : Blanks ws₂) (heq : ws₁ ++ text ++ ws₂ = front ++ piece ++ back) :
    ∃ init tail, front = ws₁ ++ init ∧ text = init ++ piece ++ tail := by
  obtain ⟨⟨first, rest, hfirst, hword⟩, init, last, hlast, hword'⟩ := h.ends
  obtain ⟨start, rfl⟩ : ∃ start, front = ws₁ ++ start := by
    rw [hfirst, List.append_assoc, List.append_assoc] at heq
    rcases List.append_eq_append_iff.mp heq with ⟨gap, rfl, -⟩ | ⟨gap, rfl, hgap⟩
    · exact ⟨gap, rfl⟩
    · cases gap with
      | nil => exact ⟨[], by simp⟩
      | cons c gap =>
        obtain ⟨rfl, -⟩ := List.cons_eq_cons.mp hgap
        have hblank := hws₁ first (by simp)
        simp [isBlank_of_isWord hword] at hblank
  rw [List.append_assoc, List.append_assoc, List.append_assoc, List.append_cancel_left_eq] at heq
  refine ⟨start, ?_⟩
  rw [hlast, ← List.append_assoc, ← List.append_assoc] at heq
  rcases List.append_eq_append_iff.mp heq with ⟨gap, hgap, hback⟩ | ⟨gap, rfl, hback⟩
  · rcases List.eq_nil_or_concat gap with rfl | ⟨gap, c, rfl⟩
    · exact ⟨[], rfl, by simpa [hlast] using hgap.symm⟩
    · rw [List.concat_eq_append, ← List.append_assoc] at hgap
      obtain rfl : last = c := by simpa using (List.append_inj_right' hgap rfl)
      have hblank := hws₂ last (by simp [hback])
      simp [isBlank_of_isWord hword'] at hblank
  · exact ⟨gap, rfl, by simp [hlast]⟩

theorem declares_of_search? (h : particlesDeclaration.search? (Text.trim line) = some name) :
    Declares line name := by
  obtain ⟨ws₁, ws₂, hws₁, hws₂, hline⟩ := exists_trim line
  obtain ⟨init, rest, after, htrim, hmatch, hfirst⟩ := exists_first_of_searchFrom h
  obtain ⟨piece, tail, hpiece, rfl⟩ := particlesDeclaration_eq_some_iff.mp ⟨after, hmatch⟩
  refine ⟨ws₁ ++ init, piece, tail ++ ws₂, by rw [hline, htrim]; simp, hpiece, ?_⟩
  intro front' name' piece' back' heq hpiece'
  rw [hline] at heq
  obtain ⟨init', tail', rfl, htrim'⟩ := hpiece'.inside hws₁ hws₂ heq
  by_contra hlt
  rw [List.length_append, List.length_append, Nat.not_le, Nat.add_lt_add_iff_left] at hlt
  have hnone := hfirst init' (piece' ++ tail') (by rw [htrim', List.append_assoc]) hlt
  obtain ⟨after', hsome⟩ :
      ∃ after, particlesDeclaration (init'.reverse ++ []) (piece' ++ tail') = some (name', after) :=
    particlesDeclaration_eq_some_iff.mpr ⟨piece', tail', hpiece', rfl⟩
  rw [hnone] at hsome
  cases hsome

theorem not_declares_of_search? (h : particlesDeclaration.search? (Text.trim line) = none)
    (name : List Char) : ¬ Declares line name := by
  rintro ⟨front, piece, back, heq, hpiece, -⟩
  obtain ⟨ws₁, ws₂, hws₁, hws₂, hline⟩ := exists_trim line
  rw [hline] at heq
  obtain ⟨init, tail, -, htrim⟩ := hpiece.inside hws₁ hws₂ heq
  obtain ⟨⟨first, rest, hfirst, -⟩, -⟩ := hpiece.ends
  rw [List.append_assoc] at htrim
  have hnone := eq_none_of_searchFrom h htrim (by simp [hfirst])
  obtain ⟨after, hsome⟩ :
      ∃ after, particlesDeclaration (init.reverse ++ []) (piece ++ tail) = some (name, after) :=
    particlesDeclaration_eq_some_iff.mpr ⟨piece, tail, hpiece, rfl⟩
  rw [hnone] at hsome
  cases hsome

/-! ## The lines above a place -/

theorem length_splitOn (text : List Char) :
    (text.splitOn '\n').length = text.count '\n' + 1 := by
  induction text with
  | nil => simp
  | cons c text ih =>
    rw [List.splitOn_cons_eq_if_modifyHead, List.count_cons]
    by_cases hc : c = '\n' <;> simp [hc, ih]

theorem dropLast_splitOn (front back : List Char) :
    (front.splitOn '\n').dropLast = ((front ++ back).splitOn '\n').take (front.count '\n') := by
  induction front with
  | nil => simp
  | cons c front ih =>
    rw [List.cons_append, List.splitOn_cons_eq_if_modifyHead, List.splitOn_cons_eq_if_modifyHead,
      List.count_cons]
    by_cases hc : c = '\n'
    · subst hc
      simp [List.dropLast_cons_of_ne_nil, ih]
    · obtain ⟨line, lines, hlines⟩ := List.exists_cons_of_ne_nil (List.splitOn_ne_nil '\n' front)
      obtain ⟨first, others, hothers⟩ :=
        List.exists_cons_of_ne_nil (List.splitOn_ne_nil '\n' (front ++ back))
      rw [hlines, hothers] at ih
      -- The character goes to the first line, which is complete in both texts or in neither.
      simp only [hc, hlines, hothers, beq_iff_eq, if_false, List.modifyHead_cons, Nat.add_zero]
      generalize front.count '\n' = n at ih ⊢
      cases lines <;> cases n <;> simp_all

theorem linesAbove_eq (count : Nat) (front back : List Char) :
    linesAbove count front.reverse = linesOver count (front.count '\n') (front ++ back) := by
  have hlength : (front.splitOn '\n').dropLast.length = front.count '\n' := by
    rw [List.length_dropLast, length_splitOn, Nat.add_sub_cancel]
  rw [linesAbove, linesOver, List.reverse_reverse, hlength, dropLast_splitOn front back]

/-- The node of an assignment without an owner, from the lines of the whole source. -/
theorem isNodeAbove_particlesAbove (front back : List Char) :
    IsNodeAbove (linesOver 10 (front.count '\n') (front ++ back))
      (particlesAbove front.reverse) := by
  rw [particlesAbove, linesAbove_eq 10 front back]
  generalize linesOver 10 (front.count '\n') (front ++ back) = lines
  cases hfound : lines.findSome? fun line => particlesDeclaration.search? (Text.trim line) with
  | none =>
    rw [List.findSome?_eq_none_iff] at hfound
    exact .inr ⟨fun line hline => not_declares_of_search? (hfound line hline), rfl⟩
  | some node =>
    obtain ⟨above, line, below, rfl, hline, habove⟩ := List.findSome?_eq_some_iff.mp hfound
    exact .inl ⟨above, line, below, rfl,
      fun other hother => not_declares_of_search? (habove other hother), declares_of_search? hline⟩

end EditorLink.Migration
