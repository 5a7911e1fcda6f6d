import EditorLink.Proofs.Migration.Segments
import EditorLink.Proofs.Migration.Strategies

/-!
# Receivers of property checks

The pass over the calls of `has_property` takes one word as receiver: the last name of a member, of
a node path or of a unique name. What stands before that name stays where it was, in front of the
parenthesis that the pass inserts. So the character before an inserted parenthesis is the one that
stood before the last name, and where that is a point, a dollar sign or a percent sign the receiver
is cut in two. The pass over headers runs first and takes a whole receiver, with blanks before it.
-/

namespace EditorLink.Migration

/-- A call with a plain receiver and a quoted name begins the text. -/
def BeginsCheck (text : List Char) : Prop :=
  ∃ receiver call property argument back, IsReceiverCall "has_property" receiver call ∧
    IsQuotedArgument property argument ∧ text = call ++ argument ++ back

/-- A character is kept where no check begins. A piece that is replaced is a check whose receiver is
as long as word characters go to the left; the new text before it ends as the old one does. -/
def Segment.ChecksLastName (before after back : List Char) : Segment → Prop
  | kept c => ¬ BeginsCheck (c :: back)
  | replaced piece replacement => ∃ receiver call property argument,
      IsReceiverCall "has_property" receiver call ∧ IsQuotedArgument property argument ∧
      piece = call ++ argument ∧
      replacement = "(".toList ++ receiver ++ ".get(\"".toList ++ property ++
        "\") != null)".toList ∧
      WordStart before ∧ after.getLast? = before.getLast?

variable {text before back piece replacement : List Char} {segments earlier later : List Segment}

theorem beginsCheck_iff : BeginsCheck text ↔ (propertyCheckCall before text).isSome := by
  simp only [Option.isSome_iff_exists, Prod.exists, propertyCheckCall_eq_some_iff]
  constructor
  · rintro ⟨receiver, call, property, argument, back, hcall, hargument, rfl⟩
    exact ⟨_, back, receiver, call, property, argument, hcall, hargument, rfl, rfl⟩
  · rintro ⟨_, back, receiver, call, property, argument, hcall, hargument, rfl, -⟩
    exact ⟨receiver, call, property, argument, back, hcall, hargument, rfl⟩

/-- A receiver that can be taken from a place can be taken with a word character before it. -/
theorem beginsCheck_cons {c : Char} (hc : Text.isWord c) (h : BeginsCheck text) :
    BeginsCheck (c :: text) := by
  obtain ⟨receiver, _, property, argument, back, ⟨ws, -, hword, hws, rfl⟩, hargument, rfl⟩ := h
  refine ⟨c :: receiver, _, property, argument, back, ⟨ws, nofun, ?_, hws, rfl⟩, hargument, rfl⟩
  exact List.forall_mem_cons.mpr ⟨hc, hword⟩

/-- A check ends with a parenthesis, and so does what takes its place. -/
theorem propertyCheckCall_ends {after : List Char}
    (h : propertyCheckCall before (piece ++ after) = some (replacement, after)) :
    (∃ init, piece = init ++ [')']) ∧ ∃ init, replacement = init ++ [')'] := by
  obtain ⟨receiver, call, property, _, -, ⟨ws₁, opening, closing, ws₂, -, -, -, -, -, -, rfl⟩, heq,
    rfl⟩ := propertyCheckCall_eq_some_iff.mp h
  obtain rfl := List.append_cancel_right heq
  refine ⟨⟨call ++ (ws₁ ++ [opening] ++ property ++ [closing] ++ ws₂), by simp⟩, ?_⟩
  exact ⟨"(".toList ++ receiver ++ ".get(\"".toList ++ property ++ "\") != null".toList, by simp⟩

/-- What stands before a replaced check ends as it did before the pass, and not with a word
character. -/
theorem ends_before_check (h : propertyCheckCall.Segments text segments)
    (hsegments : segments = earlier ++ .replaced piece replacement :: later) :
    WordStart (oldText earlier) ∧ (newText earlier).getLast? = (oldText earlier).getLast? := by
  rcases List.eq_nil_or_concat earlier with rfl | ⟨front, segment, rfl⟩
  · exact ⟨nofun, rfl⟩
  rw [List.concat_eq_append] at hsegments ⊢
  cases segment with
  | kept c =>
    refine ⟨fun d hd => eq_false_of_ne_true fun hword => ?_, by simp [Segment.old, Segment.new]⟩
    obtain rfl : c = d := by simpa [Segment.old] using hd
    -- The check that is replaced would have begun with the character before it.
    obtain ⟨-, hmatch⟩ := h.eq_some_of_replaced _ piece replacement later hsegments
    have hbegins := beginsCheck_iff.mpr (Option.isSome_of_eq_some hmatch)
    have hnone := h.eq_none_of_kept front c (.replaced piece replacement :: later)
      (by simp [hsegments])
    refine absurd hnone (Option.isSome_iff_ne_none.mp (beginsCheck_iff.mp ?_))
    exact beginsCheck_cons hword hbegins
  | replaced piece' replacement' =>
    obtain ⟨-, hmatch⟩ := h.eq_some_of_replaced front piece' replacement'
      (.replaced piece replacement :: later) (by simp [hsegments])
    obtain ⟨⟨init, rfl⟩, init', rfl⟩ := propertyCheckCall_ends hmatch
    refine ⟨fun d hd => ?_, by simp [Segment.old, Segment.new]⟩
    obtain rfl : ')' = d := by simpa [Segment.old] using hd
    decide

/-- The edit for `has_property` replaces the leftmost checks that do not overlap in what the pass
over headers has left. Each inserted parenthesis stands where the last name of the receiver began,
behind the same character. -/
theorem hasPropertyEdit_keeps_heads (source : List Char) :
    ∃ heads calls, propertyCheckHeader.Segments source heads ∧ oldText calls = newText heads ∧
      newText calls = FixStrategy.hasProperty.edit source ∧
      ∀ earlier segment later, calls = earlier ++ segment :: later →
        segment.ChecksLastName (oldText earlier) (newText earlier) (oldText later) := by
  obtain ⟨heads, hheads⟩ := Pattern.exists_segments propertyCheckHeader_adds.consumes source
  obtain ⟨calls, hcalls⟩ :=
    Pattern.exists_segments propertyCheckCall_adds.consumes (newText heads)
  refine ⟨heads, calls, hheads, hcalls.oldText_eq, ?_, fun earlier segment later hsegments => ?_⟩
  · rw [hcalls.newText_eq, hheads.newText_eq]
    rfl
  cases segment with
  | kept c =>
    have hnone := hcalls.eq_none_of_kept earlier c later hsegments
    show ¬ BeginsCheck (c :: oldText later)
    rw [beginsCheck_iff, hnone]
    exact nofun
  | replaced piece replacement =>
    obtain ⟨-, hmatch⟩ := hcalls.eq_some_of_replaced earlier piece replacement later hsegments
    obtain ⟨receiver, call, property, argument, hcall, hargument, hpiece, hreplacement⟩ :=
      propertyCheckCall_eq_some_iff.mp hmatch
    obtain ⟨hstart, hlast⟩ := ends_before_check hcalls hsegments
    exact ⟨receiver, call, property, argument, hcall, hargument, List.append_cancel_right hpiece,
      hreplacement, hstart, hlast⟩

/-- A member, a node path and a unique name, each cut before its last name. -/
example : FixStrategy.hasProperty.edit
      "a.b.has_property(\"p\") or $Node.has_property('p') or %Bar.has_property(\"p\")".toList =
    ("a.(b.get(\"p\") != null) or $(Node.get(\"p\") != null) or " ++
      "%(Bar.get(\"p\") != null)").toList := by
  decide +kernel

end EditorLink.Migration
