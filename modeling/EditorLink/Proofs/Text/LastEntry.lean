/-!
# The last entry with a property

Many checks and keys go by the last line of some kind. `LastWith` says which entry of a list that
is, by how the list splits around it; a search from the back finds it.
-/

namespace EditorLink

/-- The last of some entries with a property: no entry after it has the property. -/
def LastWith {α : Type} (p : α → Prop) (entries : List α) (entry : α) : Prop :=
  ∃ before after, entries = before ++ entry :: after ∧ p entry ∧ ∀ later ∈ after, ¬ p later

variable {α β : Type} {p q : α → Prop} {entries : List α} {entry : α} {told : β}

theorem LastWith.congr (h : ∀ entry, p entry ↔ q entry) :
    LastWith p entries entry ↔ LastWith q entries entry := by
  have hpq : p = q := funext fun entry => propext (h entry)
  rw [hpq]

theorem lastWith_iff_reverse : LastWith p entries entry ↔
    ∃ after before, entries.reverse = after ++ entry :: before ∧ p entry ∧
      ∀ later ∈ after, ¬ p later := by
  constructor
  · rintro ⟨before, after, rfl, hentry, hafter⟩
    exact ⟨after.reverse, before.reverse, by simp, hentry, by simpa using hafter⟩
  · rintro ⟨after, before, hentries, hentry, hafter⟩
    refine ⟨before.reverse, after.reverse, ?_, hentry, by simpa using hafter⟩
    rw [← List.reverse_reverse entries, hentries]
    simp

theorem find?_reverse_iff {test : α → Bool} :
    entries.reverse.find? test = some entry ↔ LastWith (test · = true) entries entry := by
  rw [List.find?_eq_some_iff_append, lastWith_iff_reverse]
  constructor
  · rintro ⟨hentry, after, before, hentries, hafter⟩
    exact ⟨after, before, hentries, hentry, by simpa using hafter⟩
  · rintro ⟨after, before, hentries, hentry, hafter⟩
    exact ⟨hentry, after, before, hentries, by simpa using hafter⟩

theorem findSome?_reverse_iff {read? : α → Option β} :
    entries.reverse.findSome? read? = some told ↔
      ∃ entry, LastWith (fun entry => (read? entry).isSome) entries entry ∧
        read? entry = some told := by
  rw [List.findSome?_eq_some_iff]
  constructor
  · rintro ⟨after, entry, before, hentries, hread, hafter⟩
    refine ⟨entry, lastWith_iff_reverse.mpr ⟨after, before, hentries, ?_, ?_⟩, hread⟩
    · simp [hread]
    · simpa using hafter
  · rintro ⟨entry, hlast, hread⟩
    obtain ⟨after, before, hentries, -, hafter⟩ := lastWith_iff_reverse.mp hlast
    exact ⟨after, entry, before, hentries, hread, by simpa using hafter⟩

/-- What each entry sets or leaves alone is in the end as the last entry that sets it has set it. -/
theorem foldl_field_eq {σ : Type} (field : σ → β) {step : σ → α → σ} {read? : α → Option β}
    (h : ∀ state entry, field (step state entry) = (read? entry).getD (field state))
    (state : σ) (entries : List α) :
    field (entries.foldl step state) = (entries.reverse.findSome? read?).getD (field state) := by
  induction entries generalizing state with
  | nil => rfl
  | cons entry entries ih =>
    rw [List.foldl_cons, ih, h, List.reverse_cons, List.findSome?_append, List.findSome?_singleton,
      Option.getD_or]

end EditorLink
