import EditorLink.Exchange.Fault

/-!
# Faults of computations

Where a computation on a value from the editor ends in a fault: a list at its first item with one,
a value that is read as an object when it is of another kind, and a written value when it is too
deep.
-/

namespace EditorLink

/-! ## Computations -/

section

variable {ε α β : Type} {fault : ε}

theorem bind_pure_eq_error_iff {outcome : Except ε α} {f : α → β} :
    (outcome >>= fun a => pure (f a)) = .error fault ↔ outcome = .error fault := by
  cases outcome with
  | error found =>
    constructor <;> intro h <;> cases h <;> rfl
  | ok a => exact iff_of_false nofun nofun

/-- A computation goes through a list up to the first item with a fault. -/
theorem mapM_eq_error_iff {f : α → Except ε β} {items : List α} :
    items.mapM f = .error fault ↔ ∃ before item after, items = before ++ item :: after ∧
      (∀ a ∈ before, ∃ b, f a = .ok b) ∧ f item = .error fault := by
  induction items with
  | nil =>
    refine iff_of_false nofun ?_
    intro ⟨before, item, after, hitems, _⟩
    simp at hitems
  | cons first rest ih =>
    rw [List.mapM_cons]
    simp only [List.cons_eq_append_iff]
    cases hfirst : f first with
    | error found =>
      constructor
      · intro h
        cases h
        exact ⟨[], first, rest, .inl ⟨rfl, rfl⟩, List.forall_mem_nil _, hfirst⟩
      · intro ⟨before, item, after, hitems, hbefore, hitem⟩
        rcases hitems with ⟨rfl, hcons⟩ | ⟨tail, rfl, -⟩
        · obtain ⟨rfl, -⟩ := List.cons.inj hcons
          cases hfirst.symm.trans hitem
          rfl
        · obtain ⟨b, hb⟩ := hbefore first List.mem_cons_self
          cases hfirst.symm.trans hb
    | ok b =>
      refine Iff.trans (bind_pure_eq_error_iff (f := (b :: ·))) (ih.trans ?_)
      constructor
      · intro ⟨before, item, after, hitems, hbefore, hitem⟩
        refine ⟨first :: before, item, after, .inr ⟨before, rfl, hitems⟩, ?_, hitem⟩
        exact List.forall_mem_cons.mpr ⟨⟨b, hfirst⟩, hbefore⟩
      · intro ⟨before, item, after, hitems, hbefore, hitem⟩
        rcases hitems with ⟨rfl, hcons⟩ | ⟨tail, rfl, hrest⟩
        · obtain ⟨rfl, -⟩ := List.cons.inj hcons
          cases hfirst.symm.trans hitem
        · exact ⟨tail, item, after, hrest, (List.forall_mem_cons.mp hbefore).2, hitem⟩

theorem filterAuxM_eq_error_iff {f : α → Except ε Bool} {items chosen : List α} :
    items.filterAuxM f chosen = .error fault ↔ items.mapM f = .error fault := by
  induction items generalizing chosen with
  | nil => exact iff_of_false nofun nofun
  | cons first rest ih =>
    rw [List.mapM_cons]
    cases hfirst : f first with
    | error found =>
      rw [List.filterAuxM, hfirst]
      constructor <;> intro h <;> cases h <;> rfl
    | ok b =>
      rw [List.filterAuxM, hfirst]
      exact ih.trans (bind_pure_eq_error_iff (f := (b :: ·))).symm

/-- A test goes through a list up to the first item with a fault. -/
theorem filterM_eq_error_iff {f : α → Except ε Bool} {items : List α} :
    items.filterM f = .error fault ↔ ∃ before item after, items = before ++ item :: after ∧
      (∀ a ∈ before, ∃ b, f a = .ok b) ∧ f item = .error fault := by
  refine Iff.trans ?_ mapM_eq_error_iff
  exact (bind_pure_eq_error_iff (f := List.reverse)).trans filterAuxM_eq_error_iff

end

/-! ## Values that are read as objects, or written -/

namespace Value

variable {value : Value} {member : String} {room : Nat} {fault : CallFault}

theorem fieldsFor_eq_error_iff : value.fieldsFor member = .error fault ↔
    value.asFields? = none ∧ fault = .lacksMember value.kindName member := by
  cases value <;> simp [fieldsFor, asFields?, eq_comm]

theorem orElse_fieldsFor_eq_error_iff :
    (value.orElse (.obj [])).fieldsFor member = .error fault ↔
      value.isTruthy ∧ value.asFields? = none ∧ fault = .lacksMember value.kindName member := by
  rw [orElse]
  split
  · next hgiven => simp [fieldsFor_eq_error_iff, hgiven]
  · next hgiven => simp [fieldsFor_eq_error_iff, asFields?, hgiven]

theorem indentedWithin_of_le (h : value.nesting ≤ room) :
    value.indentedWithin room = .ok value.indentedText :=
  if_pos h

theorem indentedWithin_eq_error_iff : value.indentedWithin room = .error fault ↔
    room < value.nesting ∧ fault = .tooDeep := by
  rw [indentedWithin]
  split
  · next hroom => exact iff_of_false nofun fun h => absurd h.1 (Nat.not_lt_of_le hroom)
  · next hdeep => simp [Nat.lt_of_not_le hdeep, eq_comm]

end Value

end EditorLink
