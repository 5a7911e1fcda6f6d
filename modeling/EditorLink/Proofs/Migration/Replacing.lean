import EditorLink.Proofs.Migration.Matching

/-!
# What replacing does to a text

`Rewritten` describes the result of replacing every match: from the left, characters are copied and
pieces that match are replaced. Without a match the text stays. With one, the new text is no
beginning of the old text, for either of two reasons: a replacement and what it replaces part at
some character, or every replacement brings more of some mark than was there. Being no beginning is
more than being different: it stays true when something is added at the end.
-/

namespace EditorLink.Migration

namespace Pattern

/-- `Rewritten p before text out`: in a text that follows `before`, replacing gives `out`. -/
inductive Rewritten (p : Pattern (List Char)) : (before text out : List Char) → Prop
  | done (before : List Char) : Rewritten p before [] []
  | copied {before rest out : List Char} {c : Char} (hnone : p before (c :: rest) = none)
      (hrest : Rewritten p (c :: before) rest out) : Rewritten p before (c :: rest) (c :: out)
  | replaced {before piece rest out replacement : List Char} (hne : piece ≠ [])
      (hmatch : p before (piece ++ rest) = some (replacement, rest))
      (hrest : Rewritten p (piece.reverse ++ before) rest out) :
      Rewritten p before (piece ++ rest) (replacement ++ out)

/-- A match takes a piece that is not empty from the front. -/
def Consumes (p : Pattern (List Char)) : Prop :=
  ∀ before text replacement rest, p before text = some (replacement, rest) →
    ∃ piece, piece ≠ [] ∧ text = piece ++ rest

/-- A replacement has more of a mark than the piece that it replaces. -/
def Adds (p : Pattern (List Char)) (mark : Char) : Prop :=
  ∀ before text replacement rest, p before text = some (replacement, rest) →
    ∃ piece, piece ≠ [] ∧ text = piece ++ rest ∧ piece.count mark < replacement.count mark

/-- A replacement is no beginning of the text it is put into. -/
def Parts (p : Pattern (List Char)) : Prop :=
  ∀ before text replacement rest, p before text = some (replacement, rest) →
    ¬ replacement <+: text

variable {p : Pattern (List Char)} {mark : Char} {before text out : List Char}

theorem Adds.consumes (h : p.Adds mark) : p.Consumes := by
  intro before text replacement rest hmatch
  obtain ⟨piece, hne, htext, -⟩ := h before text replacement rest hmatch
  exact ⟨piece, hne, htext⟩

theorem Consumes.nil (h : p.Consumes) (before : List Char) : p before [] = none := by
  cases hmatch : p before [] with
  | none => rfl
  | some found =>
    obtain ⟨piece, hne, htext⟩ := h before [] found.1 found.2 hmatch
    exact absurd (List.append_eq_nil_iff.mp htext.symm).1 hne

/-! ## Texts with and without a match -/

theorem replaceFrom_eq_self (h : p.occursFrom before text = false) :
    p.replaceFrom 0 before text = text := by
  induction text generalizing before with
  | nil => rfl
  | cons c rest ih =>
    rw [occursFrom, Bool.or_eq_false_iff] at h
    obtain ⟨hhere, hlater⟩ := h
    have hnone : p before (c :: rest) = none := by simpa using hhere
    rw [replaceFrom, hnone, ih hlater]

theorem replaceAll_eq_self (h : p.occurs text = false) : p.replaceAll text = text :=
  replaceFrom_eq_self h

/-- The characters that belong to a replaced match are passed over. -/
theorem replaceFrom_length (p : Pattern (List Char)) (before skipped rest : List Char) :
    p.replaceFrom skipped.length before (skipped ++ rest) =
      p.replaceFrom 0 (skipped.reverse ++ before) rest := by
  induction skipped generalizing before with
  | nil => rfl
  | cons c skipped ih =>
    rw [List.length_cons, List.cons_append, replaceFrom, ih, List.reverse_cons,
      List.append_assoc, List.singleton_append]

theorem rewritten_replaceFrom (hp : p.Consumes) (before text : List Char) :
    Rewritten p before text (p.replaceFrom 0 before text) := by
  -- A match is replaced as a whole, so the rest of the text can be shorter by more than one.
  induction hn : text.length using Nat.strongRecOn generalizing before text with
  | ind n ih =>
    cases text with
    | nil => exact .done before
    | cons c rest =>
      rw [replaceFrom]
      cases hmatch : p before (c :: rest) with
      | none =>
        refine .copied hmatch (ih rest.length ?_ _ rest rfl)
        rw [← hn, List.length_cons]
        exact Nat.lt_succ_self _
      | some found =>
        obtain ⟨replacement, after⟩ := found
        obtain ⟨piece, hne, htext⟩ := hp before (c :: rest) replacement after hmatch
        obtain ⟨d, tail, rfl⟩ := List.exists_cons_of_ne_nil hne
        rw [List.cons_append, List.cons_eq_cons] at htext
        obtain ⟨rfl, rfl⟩ := htext
        have hskip : (tail ++ after).length - after.length = tail.length := by
          rw [List.length_append, Nat.add_sub_cancel]
        have hafter : after.length < n := by
          rw [← hn, List.length_cons, List.length_append]
          omega
        dsimp only
        rw [hskip, replaceFrom_length]
        have hrest := ih after.length hafter ((c :: tail).reverse ++ before) after rfl
        have hdone := Rewritten.replaced hne hmatch hrest
        rwa [List.reverse_cons, List.append_assoc, List.singleton_append] at hdone

theorem Rewritten.replaceFrom_eq (h : Rewritten p before text out) :
    p.replaceFrom 0 before text = out := by
  induction h with
  | done => rfl
  | copied hnone hrest ih => rw [replaceFrom, hnone, ih]
  | @replaced before piece rest out replacement hne hmatch hrest ih =>
    obtain ⟨c, tail, rfl⟩ := List.exists_cons_of_ne_nil hne
    have hskip : (tail ++ rest).length - rest.length = tail.length := by
      rw [List.length_append, Nat.add_sub_cancel]
    rw [List.cons_append] at hmatch ⊢
    rw [List.reverse_cons, List.append_assoc, List.singleton_append] at ih
    rw [replaceFrom, hmatch]
    dsimp only
    rw [hskip, replaceFrom_length, ih]

/-- Two texts are rewritten one after the other, where no place in the first one looks into the
second one. -/
theorem Rewritten.append {tail outTail : List Char} (h : Rewritten p before text out)
    (htail : Rewritten p (text.reverse ++ before) tail outTail)
    (hlocal : ∀ front rest, text = front ++ rest → rest ≠ [] →
      p (front.reverse ++ before) (rest ++ tail) =
        (p (front.reverse ++ before) rest).map fun found => (found.1, found.2 ++ tail)) :
    Rewritten p before (text ++ tail) (out ++ outTail) := by
  induction h with
  | done => exact htail
  | @copied before rest out c hnone hrest ih =>
    have hhere := hlocal [] (c :: rest) rfl (List.cons_ne_nil _ _)
    rw [List.reverse_nil, List.nil_append, hnone] at hhere
    refine .copied hhere (ih (by simpa using htail) fun front after heq hne => ?_)
    have hlater := hlocal (c :: front) after (by rw [heq]; rfl) hne
    rwa [List.reverse_cons, List.append_assoc, List.singleton_append] at hlater
  | @replaced before piece rest out replacement hne hmatch hrest ih =>
    have hhere := hlocal [] (piece ++ rest) rfl (by simp [hne])
    rw [List.reverse_nil, List.nil_append, hmatch, List.append_assoc] at hhere
    rw [List.append_assoc, List.append_assoc]
    refine .replaced hne hhere (ih (by simpa using htail) fun front after heq hne' => ?_)
    have hlater := hlocal (piece ++ front) after (by rw [heq, List.append_assoc]) hne'
    rwa [List.reverse_append, List.append_assoc] at hlater

/-- Behind two texts that a pattern cannot tell apart it replaces alike. -/
theorem replaceFrom_congr {behind other : List Char}
    (hp : ∀ before rest, p (before ++ behind) rest = p (before ++ other) rest) (skip : Nat)
    (before : List Char) :
    p.replaceFrom skip (before ++ behind) text = p.replaceFrom skip (before ++ other) text := by
  induction text generalizing skip before with
  | nil => simp only [replaceFrom]
  | cons c rest ih =>
    cases skip with
    | succ skip =>
      rw [replaceFrom, replaceFrom]
      exact ih skip (c :: before)
    | zero =>
      rw [replaceFrom, replaceFrom, hp]
      split
      · rw [← List.cons_append, ih, List.cons_append]
      · rw [← List.cons_append, ih, List.cons_append]

/-- What holds of the new text holds of the old one when each replacement can be taken back. The
replacements are taken back from the left, so what stands before each is old text. -/
theorem Rewritten.reflects {Holds : List Char → Prop}
    (hstep : ∀ before piece rest replacement out,
      p before (piece ++ rest) = some (replacement, rest) →
      Rewritten p (piece.reverse ++ before) rest out →
      Holds (before.reverse ++ replacement ++ out) → Holds (before.reverse ++ piece ++ out))
    (h : Rewritten p before text out) (hout : Holds (before.reverse ++ out)) :
    Holds (before.reverse ++ text) := by
  induction h with
  | done => exact hout
  | copied hnone hrest ih =>
    rw [List.append_cons, ← List.reverse_cons] at hout ⊢
    exact ih hout
  | replaced hne hmatch hrest ih =>
    have hback := hstep _ _ _ _ _ hmatch hrest (by simpa using hout)
    simpa using ih (by simpa using hback)

/-- Where every match begins with a word character, a text that begins otherwise keeps its first
character. -/
theorem Rewritten.head?_eq
    (hp : ∀ before text replacement rest, p before text = some (replacement, rest) →
      ¬ Leaves Text.isWord text)
    (h : Rewritten p before text out) (hleaves : Leaves Text.isWord text) :
    out.head? = text.head? := by
  cases h with
  | done => rfl
  | copied hnone hrest => rfl
  | replaced hne hmatch hrest => exact absurd hleaves (hp _ _ _ _ hmatch)

/-! ## Marks -/

theorem Rewritten.count_le (hp : p.Adds mark) (h : Rewritten p before text out) :
    text.count mark ≤ out.count mark := by
  induction h with
  | done => exact Nat.le_refl _
  | @copied before rest out c hnone hrest ih =>
    rw [List.count_cons, List.count_cons]
    exact Nat.add_le_add_right ih _
  | @replaced before piece rest out replacement hne hmatch hrest ih =>
    obtain ⟨other, -, htext, hlt⟩ := hp before _ replacement rest hmatch
    obtain rfl := List.append_cancel_right htext
    rw [List.count_append, List.count_append]
    exact Nat.add_le_add (Nat.le_of_lt hlt) ih

theorem Rewritten.count_lt (hp : p.Adds mark) (h : Rewritten p before text out)
    (hoccurs : p.occursFrom before text) : text.count mark < out.count mark := by
  induction h with
  | done => cases hoccurs
  | @copied before rest out c hnone hrest ih =>
    rw [occursFrom, hnone] at hoccurs
    rw [List.count_cons, List.count_cons]
    exact Nat.add_lt_add_right (ih hoccurs) _
  | @replaced before piece rest out replacement hne hmatch hrest ih =>
    obtain ⟨other, -, htext, hlt⟩ := hp before _ replacement rest hmatch
    obtain rfl := List.append_cancel_right htext
    rw [List.count_append, List.count_append]
    exact Nat.add_lt_add_of_lt_of_le hlt (hrest.count_le hp)

theorem count_le_replaceAll (hp : p.Adds mark) (text : List Char) :
    text.count mark ≤ (p.replaceAll text).count mark :=
  (rewritten_replaceFrom hp.consumes [] text).count_le hp

theorem count_lt_replaceAll (hp : p.Adds mark) (h : p.occurs text) :
    text.count mark < (p.replaceAll text).count mark :=
  (rewritten_replaceFrom hp.consumes [] text).count_lt hp h

/-- The passes over a text, each over the result of the one before. -/
def applyPasses (passes : List (Pattern (List Char))) (text : List Char) : List Char :=
  passes.foldl (fun text pass => pass.replaceAll text) text

theorem applyPasses_cons (pass : Pattern (List Char)) (passes : List (Pattern (List Char)))
    (text : List Char) : applyPasses (pass :: passes) text =
      applyPasses passes (pass.replaceAll text) :=
  rfl

variable {passes : List (Pattern (List Char))}

theorem count_le_applyPasses (hp : ∀ pass ∈ passes, pass.Adds mark) (text : List Char) :
    text.count mark ≤ (applyPasses passes text).count mark := by
  induction passes generalizing text with
  | nil => exact Nat.le_refl _
  | cons pass passes ih =>
    obtain ⟨hpass, hrest⟩ := List.forall_mem_cons.mp hp
    exact Nat.le_trans (count_le_replaceAll hpass text) (ih hrest _)

/-- The first pass that finds something brings marks, and the later ones take none away. -/
theorem count_lt_applyPasses (hp : ∀ pass ∈ passes, pass.Adds mark)
    (h : ∃ pass ∈ passes, pass.occurs text) :
    text.count mark < (applyPasses passes text).count mark := by
  induction passes with
  | nil =>
    obtain ⟨pass, hmem, -⟩ := h
    cases hmem
  | cons pass passes ih =>
    obtain ⟨hpass, hrest⟩ := List.forall_mem_cons.mp hp
    rw [applyPasses_cons]
    by_cases hfirst : pass.occurs text
    · exact Nat.lt_of_lt_of_le (count_lt_replaceAll hpass hfirst) (count_le_applyPasses hrest _)
    · rw [replaceAll_eq_self (eq_false_of_ne_true hfirst)]
      refine ih hrest ?_
      obtain ⟨other, hmem, hoccurs⟩ := h
      rcases List.mem_cons.mp hmem with rfl | hmem
      · exact absurd hoccurs hfirst
      · exact ⟨other, hmem, hoccurs⟩

theorem applyPasses_eq_self (h : ∀ pass ∈ passes, pass.occurs text = false) :
    applyPasses passes text = text := by
  induction passes with
  | nil => rfl
  | cons pass passes ih =>
    obtain ⟨hpass, hrest⟩ := List.forall_mem_cons.mp h
    rw [applyPasses_cons, replaceAll_eq_self hpass, ih hrest]

/-! ## Beginnings -/

theorem not_prefix_of_count_lt (h : text.count mark < out.count mark) : ¬ out <+: text := by
  intro hstarts
  exact absurd (hstarts.sublist.count_le mark) (Nat.not_le_of_lt h)

theorem Rewritten.not_prefix_of_occurs (hp : p.Parts) (h : Rewritten p before text out)
    (hoccurs : p.occursFrom before text) : ¬ out <+: text := by
  induction h with
  | done => cases hoccurs
  | copied hnone hrest ih =>
    rw [occursFrom, hnone] at hoccurs
    rw [List.cons_prefix_cons]
    exact fun hstarts => ih hoccurs hstarts.2
  | replaced hne hmatch hrest ih =>
    intro hstarts
    exact hp _ _ _ _ hmatch ((List.prefix_append _ _).trans hstarts)

theorem not_prefix_replaceAll (hp : p.Parts) (hc : p.Consumes) (h : p.occurs text) :
    ¬ p.replaceAll text <+: text :=
  (rewritten_replaceFrom hc [] text).not_prefix_of_occurs hp h

end Pattern

end EditorLink.Migration
