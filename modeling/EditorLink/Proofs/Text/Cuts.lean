import EditorLink.Proofs.Migration.Matching

/-!
# What trimming and splitting leave

Trimming takes pieces of one class from both ends of a text, and keeps what neither begins nor ends
in that class. Splitting at the first separator gives the two parts around it, the first of which
has no separator.
-/

namespace EditorLink.Text

open Migration

variable {p : Char → Bool} {sep : Char} {cs left core right front back : List Char}

theorem exists_dropRightWhile (p : Char → Bool) (cs : List Char) :
    ∃ dropped, (∀ c ∈ dropped, p c) ∧ cs = dropRightWhile p cs ++ dropped := by
  refine ⟨(cs.reverse.takeWhile p).reverse, fun c hc => mem_takeWhile (List.mem_reverse.mp hc), ?_⟩
  rw [dropRightWhile, ← List.reverse_append, List.takeWhile_append_dropWhile, List.reverse_reverse]

theorem exists_trimBoth (p : Char → Bool) (cs : List Char) :
    ∃ left right, (∀ c ∈ left, p c) ∧ (∀ c ∈ right, p c) ∧ cs = left ++ trimBoth p cs ++ right := by
  obtain ⟨right, hright, hcs⟩ := exists_dropRightWhile p (cs.dropWhile p)
  refine ⟨cs.takeWhile p, right, fun c hc => mem_takeWhile hc, hright, ?_⟩
  rw [trimBoth, List.append_assoc, ← hcs, List.takeWhile_append_dropWhile]

theorem dropRightWhile_append (hright : ∀ c ∈ right, p c)
    (hlast : ∀ c ∈ core.getLast?, p c = false) : dropRightWhile p (core ++ right) = core := by
  have hleaves : Leaves p core.reverse := by
    unfold Leaves
    rwa [List.head?_reverse]
  rw [dropRightWhile, List.reverse_append, dropWhile_append_of_leaves (by simpa using hright)
    hleaves, List.reverse_reverse]

/-- What neither begins nor ends in the class is kept. -/
theorem trimBoth_append (hleft : ∀ c ∈ left, p c) (hright : ∀ c ∈ right, p c)
    (hfirst : ∀ c ∈ core.head?, p c = false) (hlast : ∀ c ∈ core.getLast?, p c = false) :
    trimBoth p (left ++ core ++ right) = core := by
  unfold trimBoth
  rw [List.append_assoc, List.dropWhile_append_of_pos hleft]
  cases core with
  | nil =>
    rw [List.nil_append, ← List.append_nil right, List.dropWhile_append_of_pos hright]
    rfl
  | cons c core =>
    have hleaves : Leaves p (c :: core ++ right) := hfirst
    rw [← List.nil_append (c :: core ++ right),
      dropWhile_append_of_leaves (List.forall_mem_nil _) hleaves]
    exact dropRightWhile_append hright hlast

theorem after?_eq_some_iff : after? left cs = some back ↔ cs = left ++ back :=
  isPrefixOf?_eq_some_iff

theorem after?_eq_none_iff : after? left cs = none ↔ ¬ left <+: cs := by
  rw [Option.eq_none_iff_forall_ne_some]
  constructor
  · rintro h ⟨back, hback⟩
    exact h back (after?_eq_some_iff.mpr hback.symm)
  · rintro h back hback
    exact h ⟨back, (after?_eq_some_iff.mp hback).symm⟩

theorem splitFirst?_eq_some_iff :
    splitFirst? sep cs = some (front, back) ↔ sep ∉ front ∧ cs = front ++ sep :: back := by
  unfold splitFirst?
  constructor
  · intro h
    split at h
    · cases h
    · next c rest hrest =>
      cases h
      have hc : (c != sep) = false := leaves_dropWhile (· != sep) cs c (by rw [hrest]; rfl)
      obtain rfl : c = sep := by simpa using hc
      refine ⟨fun hmem => by simpa using mem_takeWhile hmem, ?_⟩
      rw [← hrest, List.takeWhile_append_dropWhile]
  · rintro ⟨hfront, rfl⟩
    have hall : ∀ c ∈ front, (c != sep) = true := by
      intro c hc
      simpa using fun heq : c = sep => hfront (heq ▸ hc)
    have hleaves : Leaves (· != sep) (sep :: back) := leaves_cons (by simp) back
    rw [dropWhile_append_of_leaves hall hleaves, takeWhile_append_of_leaves hall hleaves]

theorem splitFirst?_eq_none_iff : splitFirst? sep cs = none ↔ sep ∉ cs := by
  rw [Option.eq_none_iff_forall_ne_some]
  constructor
  · intro h hmem
    obtain ⟨front, back, rfl, hfront⟩ := List.eq_append_cons_of_mem hmem
    exact h (front, back) (splitFirst?_eq_some_iff.mpr ⟨hfront, rfl⟩)
  · rintro h ⟨front, back⟩ hsplit
    obtain ⟨-, rfl⟩ := splitFirst?_eq_some_iff.mp hsplit
    exact h (List.mem_append_right front List.mem_cons_self)

end EditorLink.Text
