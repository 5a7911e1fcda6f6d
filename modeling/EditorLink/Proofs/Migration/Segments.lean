import Mathlib.Data.List.Induction
import EditorLink.Proofs.Migration.Replacing

/-!
# A rewritten text in segments

A pass cuts a text into segments: characters that it keeps and pieces that it replaces. The old text
and the new text are read off the same segments, so each place of one has its place in the other. A
character is kept only where nothing matches, which makes the replaced pieces the leftmost ones that
do not overlap.
-/

namespace EditorLink.Migration

inductive Segment where
  | kept (c : Char)
  | replaced (piece replacement : List Char)

def Segment.old : Segment → List Char
  | kept c => [c]
  | replaced piece _ => piece

def Segment.new : Segment → List Char
  | kept c => [c]
  | replaced _ replacement => replacement

/-- The text before the pass. -/
def oldText (segments : List Segment) : List Char := segments.flatMap Segment.old

/-- The text after the pass. -/
def newText (segments : List Segment) : List Char := segments.flatMap Segment.new

section

variable (segment : Segment) (front back : List Segment)

@[simp] theorem oldText_nil : oldText [] = [] := rfl

@[simp] theorem newText_nil : newText [] = [] := rfl

@[simp] theorem oldText_cons : oldText (segment :: back) = segment.old ++ oldText back := rfl

@[simp] theorem newText_cons : newText (segment :: back) = segment.new ++ newText back := rfl

@[simp] theorem oldText_append : oldText (front ++ back) = oldText front ++ oldText back :=
  List.flatMap_append

@[simp] theorem newText_append : newText (front ++ back) = newText front ++ newText back :=
  List.flatMap_append

theorem oldText_kept (text : List Char) : oldText (text.map .kept) = text := by
  simp [oldText, List.flatMap_map, Segment.old]

theorem newText_kept (text : List Char) : newText (text.map .kept) = text := by
  simp [newText, List.flatMap_map, Segment.new]

end

variable {segments earlier later : List Segment} {p : Pattern (List Char)}
  {before text out front back piece replacement rest : List Char} {c : Char}

/-- A place of the old text lies between two segments, or inside a piece that is replaced. -/
theorem exists_place (h : oldText segments = front ++ back) :
    (∃ earlier later, segments = earlier ++ later ∧ oldText earlier = front ∧
        oldText later = back) ∨
      ∃ earlier replacement init tail later,
        segments = earlier ++ .replaced (init ++ tail) replacement :: later ∧ init ≠ [] ∧
        tail ≠ [] ∧ front = oldText earlier ++ init ∧ back = tail ++ oldText later := by
  induction segments generalizing front with
  | nil =>
    obtain ⟨rfl, rfl⟩ := List.append_eq_nil_iff.mp h.symm
    exact .inl ⟨[], [], rfl, rfl, rfl⟩
  | cons segment segments ih =>
    rw [oldText_cons] at h
    rcases List.append_eq_append_iff.mp h with ⟨gap, rfl, hrest⟩ | ⟨gap, hpiece, rfl⟩
    · -- The place lies behind the first segment.
      rcases ih hrest with ⟨earlier, later, rfl, rfl, rfl⟩ |
        ⟨earlier, replacement, init, tail, later, rfl, hinit, htail, rfl, rfl⟩
      · exact .inl ⟨segment :: earlier, later, rfl, rfl, rfl⟩
      · exact .inr ⟨segment :: earlier, replacement, init, tail, later, rfl, hinit, htail, by simp,
          rfl⟩
    · rcases eq_or_ne front [] with rfl | hfront
      · exact .inl ⟨[], segment :: segments, rfl, rfl, by simp [hpiece]⟩
      rcases eq_or_ne gap [] with rfl | hgap
      · exact .inl ⟨[segment], segments, rfl, by simpa using hpiece, rfl⟩
      cases segment with
      | kept c =>
        -- A single character has no inside.
        have hlength := congrArg List.length hpiece
        have hfront := List.length_pos_iff.mpr hfront
        have hgap := List.length_pos_iff.mpr hgap
        simp only [Segment.old, List.length_append, List.length_singleton] at hlength
        omega
      | replaced piece replacement =>
        obtain rfl : piece = front ++ gap := hpiece
        exact .inr ⟨[], replacement, front, gap, segments, rfl, hfront, hgap, rfl, rfl⟩

/-- Where the old text goes on with a word, the word is kept, or a piece that is replaced begins in
it. -/
theorem kept_or_replaced {word : List Char} (h : oldText segments = word ++ back) :
    (∃ later, segments = word.map .kept ++ later ∧ oldText later = back) ∨
      ∃ init tail piece replacement later, word = init ++ tail ∧ tail ≠ [] ∧
        segments = init.map .kept ++ .replaced piece replacement :: later ∧
        piece ++ oldText later = tail ++ back := by
  induction word generalizing segments with
  | nil => exact .inl ⟨segments, rfl, h⟩
  | cons c word ih =>
    cases segments with
    | nil => cases h
    | cons segment segments =>
      cases segment with
      | kept d =>
        obtain ⟨rfl, hrest⟩ := List.cons_eq_cons.mp h
        rcases ih hrest with ⟨later, rfl, hlater⟩ |
          ⟨init, tail, piece, replacement, later, rfl, hne, rfl, hpiece⟩
        · exact .inl ⟨later, rfl, hlater⟩
        · exact .inr ⟨d :: init, tail, piece, replacement, later, rfl, hne, rfl, hpiece⟩
      | replaced piece replacement =>
        exact .inr ⟨[], c :: word, piece, replacement, segments, rfl, nofun, rfl, h⟩

/-- Where a pass stops a piece only before characters of a class, what stands before others was
kept, back over all that are not of the class. -/
theorem exists_kept_before {q : Char → Bool} {start word : List Char}
    (hstop : ∀ earlier piece replacement later,
      segments = earlier ++ .replaced piece replacement :: later →
        ∀ c ∈ (oldText later).head?, q c)
    (hsegments : segments = earlier ++ later) (hold : oldText earlier = start ++ word)
    (hword : ∀ c ∈ word, q c = false) (hnext : ∃ c ∈ (oldText later).head?, q c = false) :
    ∃ left, earlier = left ++ word.map .kept ∧ oldText left = start := by
  induction word using List.reverseRecOn generalizing earlier later with
  | nil => exact ⟨earlier, by simp, by simpa using hold⟩
  | append_singleton word c ih =>
    rcases List.eq_nil_or_concat earlier with rfl | ⟨front, segment, rfl⟩
    · simp at hold
    rw [List.concat_eq_append] at hsegments hold ⊢
    cases segment with
    | kept d =>
      rw [oldText_append, ← List.append_assoc] at hold
      obtain ⟨hfront, hlast⟩ := List.append_inj' hold rfl
      obtain rfl : d = c := by simpa [Segment.old] using hlast
      have hrest : segments = front ++ .kept d :: later := by simp [hsegments]
      obtain ⟨left, rfl, hleft⟩ := ih hrest hfront
        (fun e he => hword e (by simp [he])) ⟨d, rfl, hword d (by simp)⟩
      exact ⟨left, by simp, hleft⟩
    | replaced piece replacement =>
      obtain ⟨d, hd, hfalse⟩ := hnext
      have htrue := hstop front piece replacement later (by simp [hsegments]) d hd
      simp [hfalse] at htrue

namespace Pattern

/-- The segments that a pass cuts a text into. -/
structure Segments (p : Pattern (List Char)) (text : List Char) (segments : List Segment) :
    Prop where
  oldText_eq : oldText segments = text
  newText_eq : newText segments = p.replaceAll text
  eq_none_of_kept : ∀ earlier c later, segments = earlier ++ .kept c :: later →
    p (oldText earlier).reverse (c :: oldText later) = none
  eq_some_of_replaced : ∀ earlier piece replacement later,
    segments = earlier ++ .replaced piece replacement :: later → piece ≠ [] ∧
      p (oldText earlier).reverse (piece ++ oldText later) = some (replacement, oldText later)

theorem Rewritten.exists_segments (h : Rewritten p before text out) :
    ∃ segments, oldText segments = text ∧ newText segments = out ∧
      ∀ earlier segment later, segments = earlier ++ segment :: later →
        match segment with
        | .kept c => p ((oldText earlier).reverse ++ before) (c :: oldText later) = none
        | .replaced piece replacement => piece ≠ [] ∧
            p ((oldText earlier).reverse ++ before) (piece ++ oldText later) =
              some (replacement, oldText later) := by
  induction h with
  | done before => exact ⟨[], rfl, rfl, by simp⟩
  | @copied before rest out c hnone hrest ih =>
    obtain ⟨segments, rfl, rfl, hall⟩ := ih
    refine ⟨.kept c :: segments, rfl, rfl, fun earlier segment later heq => ?_⟩
    rcases List.cons_eq_append_iff.mp heq with ⟨rfl, hhead⟩ | ⟨others, rfl, htail⟩
    · obtain ⟨rfl, rfl⟩ := List.cons_eq_cons.mp hhead
      exact hnone
    · simpa [Segment.old] using hall others segment later htail
  | @replaced before piece rest out replacement hne hmatch hrest ih =>
    obtain ⟨segments, rfl, rfl, hall⟩ := ih
    refine ⟨.replaced piece replacement :: segments, rfl, rfl, fun earlier segment later heq => ?_⟩
    rcases List.cons_eq_append_iff.mp heq with ⟨rfl, hhead⟩ | ⟨others, rfl, htail⟩
    · obtain ⟨rfl, rfl⟩ := List.cons_eq_cons.mp hhead
      exact ⟨hne, hmatch⟩
    · simpa [Segment.old] using hall others segment later htail

theorem Rewritten.of_segments (hall : ∀ earlier segment later,
    segments = earlier ++ segment :: later →
      match segment with
      | .kept c => p ((oldText earlier).reverse ++ before) (c :: oldText later) = none
      | .replaced piece replacement => piece ≠ [] ∧
          p ((oldText earlier).reverse ++ before) (piece ++ oldText later) =
            some (replacement, oldText later)) :
    Rewritten p before (oldText segments) (newText segments) := by
  induction segments generalizing before with
  | nil => exact .done before
  | cons segment segments ih =>
    have hfirst := hall [] segment segments rfl
    have hrest : Rewritten p (segment.old.reverse ++ before) (oldText segments)
        (newText segments) := by
      refine ih fun earlier other later heq => ?_
      have hlater := hall (segment :: earlier) other later (congrArg (segment :: ·) heq)
      rwa [oldText_cons, List.reverse_append, List.append_assoc] at hlater
    cases segment with
    | kept c => exact .copied hfirst hrest
    | replaced piece replacement => exact .replaced hfirst.1 hfirst.2 hrest

theorem exists_segments (hp : p.Consumes) (text : List Char) :
    ∃ segments, p.Segments text segments := by
  obtain ⟨segments, hold, hnew, hall⟩ := (rewritten_replaceFrom hp [] text).exists_segments
  refine ⟨segments, hold, hnew, fun earlier c later heq => ?_,
    fun earlier piece replacement later heq => ?_⟩
  · simpa using hall earlier (.kept c) later heq
  · simpa using hall earlier (.replaced piece replacement) later heq

end Pattern

end EditorLink.Migration
