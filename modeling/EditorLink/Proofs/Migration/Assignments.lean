import EditorLink.Proofs.Migration.Declarations
import EditorLink.Proofs.Migration.Segments

/-!
# Assignments that a fix moves

What the fix for a property of a material does to a whole source. `IsAssignment` says what it takes
for an assignment, and a source is cut into segments: each assignment that begins where none before
it reaches is replaced as a whole, and all else is kept. The node that an assignment is moved to is
read off the old text alone, so moving one assignment changes nothing for the next. A comparison is
taken for an assignment too: its second equals sign begins the value.
-/

namespace EditorLink.Migration

/-- Blanks, and then something up to a semicolon or the end of the line. -/
def IsValue (value : List Char) : Prop :=
  ∃ ws run, Blanks ws ∧ run ≠ [] ∧ (∀ c ∈ run, endsValue c = false) ∧ value = ws ++ run

/-- The owner of a material with the point behind it, or nothing where a word starts. -/
def IsOwner (front owner : List Char) : Prop :=
  owner = [] ∧ WordStart front ∨
    ∃ name, name ≠ [] ∧ (∀ c ∈ name, Text.isWord c) ∧ owner = name ++ ".".toList

/-- An assignment to a material's property, behind a text. -/
structure IsAssignment (property : MaterialProperty) (front owner target value : List Char) :
    Prop where
  owner : IsOwner front owner
  target : IsTarget property target
  value : IsValue value

/-- At the end of a text an assignment begins. -/
def BeginsAssignment (property : MaterialProperty) (front text : List Char) : Prop :=
  ∃ owner target value back, IsAssignment property front owner target value ∧
    text = owner ++ target ++ value ++ back

/-- The text ends with a point and this word before it, as long as it goes. -/
def EndsWithOwner (text name : List Char) : Prop :=
  ∃ start, text = start ++ name ++ ".".toList ∧ name ≠ [] ∧ (∀ c ∈ name, Text.isWord c) ∧
    WordStart start

/-- The node of a material that follows a text: the owner that the text ends with, or else the
node that is declared in the ten lines above the assignment. -/
def IsNode (source front owner node : List Char) : Prop :=
  EndsWithOwner (front ++ owner) node ∨ (∀ name, ¬ EndsWithOwner (front ++ owner) name) ∧
    IsNodeAbove (linesOver 10 (front.count '\n') source) node

/-- What follows the first equals sign. -/
def afterEquals (piece : List Char) : List Char := (piece.dropWhile (· != '=')).tail

/-- A character is kept where no assignment begins. A piece that is replaced is the longest
assignment that begins at its place, and it is moved to its node. -/
def Segment.MovesAssignments (property : MaterialProperty) (source front back : List Char) :
    Segment → Prop
  | kept c => ¬ BeginsAssignment property front (c :: back)
  | replaced piece replacement => ∃ owner target value node,
      IsAssignment property front owner target value ∧ piece = owner ++ target ++ value ∧
      (∀ owner' target' value' back', IsAssignment property front owner' target' value' →
        piece ++ back = owner' ++ target' ++ value' ++ back' →
        (owner' ++ target' ++ value').length ≤ piece.length) ∧
      IsNode source front owner node ∧
      replacement = movedAssignment property node (Text.trim (afterEquals piece))

variable {property : MaterialProperty}
  {front back owner target value text rest after replacement : List Char}

/-! ## Values -/

theorem IsValue.ne_nil (h : IsValue value) : value ≠ [] := by
  obtain ⟨ws, run, -, hne, -, rfl⟩ := h
  simp [hne]

theorem exists_isValue_iff : (∃ value back, IsValue value ∧ rest = value ++ back) ↔
    (assignedValue? rest).isSome := by
  rw [assignedValue?_isSome_iff]
  constructor
  · rintro ⟨_, back, ⟨ws, run, hws, hne, hrun, rfl⟩, rfl⟩
    obtain ⟨c, run, rfl⟩ := List.exists_cons_of_ne_nil hne
    exact ⟨ws, c, run ++ back, hws, hrun c List.mem_cons_self, by simp⟩
  · rintro ⟨ws, c, back, hws, hc, rfl⟩
    exact ⟨ws ++ [c], back, ⟨ws, [c], hws, by simp, by simpa using hc, rfl⟩, by simp⟩

/-- A longer value begins with the shorter one, and then goes on with blanks up to a line break and
beyond it. -/
theorem IsValue.exists_of_length_lt {value' back' : List Char} (h : IsValue value')
    (hends : ∀ c ∈ after.head?, endsValue c) (heq : value ++ after = value' ++ back')
    (hlt : value.length < value'.length) :
    Blanks value ∧ ∃ ws run others, ws ≠ [] ∧ Blanks ws ∧ run ≠ [] ∧
      (∀ c ∈ run, endsValue c = false) ∧ after = ws ++ (run ++ others) := by
  obtain ⟨ws, run, hws, hne, hrun, rfl⟩ := h
  obtain ⟨gap, hgap, hafter⟩ : ∃ gap, ws ++ run = value ++ gap ∧ after = gap ++ back' := by
    rcases List.append_eq_append_iff.mp heq with ⟨gap, hgap, hafter⟩ | ⟨gap, rfl, -⟩
    · exact ⟨gap, hgap, hafter⟩
    · rw [List.length_append] at hlt
      omega
  have hgapNe : gap ≠ [] := by
    rintro rfl
    simp [hgap] at hlt
  obtain ⟨c, gap, rfl⟩ := List.exists_cons_of_ne_nil hgapNe
  have hc : endsValue c := hends c (by simp [hafter])
  have hnot : c ∉ run := fun hmem => by simp [hrun c hmem] at hc
  rcases List.append_eq_append_iff.mp hgap with ⟨others, rfl, hothers⟩ | ⟨others, rfl, hothers⟩
  · exact absurd (hothers ▸ by simp) hnot
  · refine ⟨fun d hd => hws d (List.mem_append_left _ hd), others, run, back', ?_,
      fun d hd => hws d (List.mem_append_right _ hd), hne, hrun, ?_⟩
    · rintro rfl
      exact hnot (List.nil_append run ▸ hothers ▸ List.mem_cons_self)
    · rw [hafter, hothers, List.append_assoc]

/-- A value holds something besides blanks, or it is the blanks up to the last that is no line break
and behind them comes a semicolon or the end of the text. -/
theorem assignedValue?_cases (h : assignedValue? rest = some (value, after)) :
    (∃ ws c run, Blanks ws ∧ Text.isBlank c = false ∧ (∀ d ∈ c :: run, endsValue d = false) ∧
        value = ws ++ c :: run) ∨
      Blanks value ∧ (∃ init last, value = init ++ [last] ∧ last ≠ '\n') ∧
        ∃ breaks others, (∀ c ∈ breaks, c = '\n') ∧
          (∀ c ∈ others.head?, endsValue c ∧ Text.isBlank c = false) ∧
          after = breaks ++ others := by
  obtain ⟨-, hrest⟩ := assignedValue?_spec h
  unfold assignedValue? at h
  dsimp only at h
  split at h
  · next taken others hrun =>
    cases h
    obtain ⟨hskip, hne, htaken, -⟩ := run?_eq_some_iff.mp hrun
    obtain ⟨c, taken, rfl⟩ := List.exists_cons_of_ne_nil hne
    refine .inl ⟨_, c, taken, fun d hd => mem_takeWhile hd, ?_, by simpa using htaken, rfl⟩
    exact leaves_skipBlanks rest c (by rw [hskip]; rfl)
  · next hnone =>
    split at h
    · cases h
    · next hkept =>
      obtain ⟨hvalue, -⟩ := Prod.mk.inj (Option.some.inj h)
      obtain ⟨breaks, hbreaks, hblanks⟩ :=
        Text.exists_dropRightWhile (· == '\n') (rest.takeWhile Text.isBlank)
      have hself : value.rdropWhile (· == '\n') = value := by
        rw [← hvalue]
        exact List.rdropWhile_idempotent _ _
      rw [hvalue] at hblanks hkept
      have hafter : after = breaks ++ skipBlanks rest := by
        have hsame : value ++ after = value ++ (breaks ++ skipBlanks rest) := by
          rw [← hrest, ← List.append_assoc, ← hblanks]
          exact List.takeWhile_append_dropWhile.symm
        exact List.append_cancel_left hsame
      refine .inr ⟨fun c hc => ?_, ?_, breaks, skipBlanks rest, by simpa using hbreaks, ?_, hafter⟩
      · exact mem_takeWhile (hblanks ▸ List.mem_append_left _ hc)
      · obtain ⟨init, last, rfl⟩ :=
          (List.eq_nil_or_concat value).resolve_left (by simpa using hkept)
        refine ⟨init, last, List.concat_eq_append, ?_⟩
        simpa using List.rdropWhile_eq_self_iff.mp hself (by simp)
      · intro c hc
        refine ⟨by_contra fun hends => ?_, leaves_skipBlanks rest c hc⟩
        have hsome : (run? (!endsValue ·) (skipBlanks rest)).isSome := by
          obtain ⟨back, hback⟩ := List.head?_eq_some_iff.mp hc
          exact run?_isSome_iff.mpr ⟨c, back, by simpa using hends, hback⟩
        simp [hnone] at hsome

/-- The value that is taken is the longest one. -/
theorem assignedValue?_longest (h : assignedValue? rest = some (value, after)) :
    IsValue value ∧ ∀ value' back', IsValue value' → rest = value' ++ back' →
      value'.length ≤ value.length := by
  obtain ⟨-, hrest⟩ := assignedValue?_spec h
  have hlonger : ∀ value' back', IsValue value' → rest = value' ++ back' →
      value.length < value'.length → Blanks value ∧ ∃ ws run others, ws ≠ [] ∧ Blanks ws ∧
        run ≠ [] ∧ (∀ c ∈ run, endsValue c = false) ∧ after = ws ++ (run ++ others) :=
    fun value' back' hvalue' heq =>
      hvalue'.exists_of_length_lt (assignedValue?_ends h) (hrest.symm.trans heq)
  rcases assignedValue?_cases h with ⟨ws, c, run, hws, hc, hrun, rfl⟩ |
    ⟨hblanks, ⟨init, last, rfl, hlast⟩, breaks, others, hbreaks, hothers, rfl⟩
  · refine ⟨⟨ws, c :: run, hws, nofun, hrun, rfl⟩, fun value' back' hvalue' heq => ?_⟩
    refine Nat.not_lt.mp fun hlt => ?_
    obtain ⟨hall, -⟩ := hlonger value' back' hvalue' heq hlt
    simp [hall c (by simp)] at hc
  · have hend : endsValue last = false := by
      have hsemicolon : last ≠ ';' := by
        rintro rfl
        exact absurd (hblanks ';' (by simp)) (by decide)
      simp [endsValue, hsemicolon, hlast]
    have hinit : Blanks init := fun c hc => hblanks c (by simp [hc])
    refine ⟨⟨init, [last], hinit, List.cons_ne_nil _ _, by simpa using hend, rfl⟩, ?_⟩
    intro value' back' hvalue' heq
    refine Nat.not_lt.mp fun hlt => ?_
    obtain ⟨-, ws, run, back, -, hws, hne, hrun, hback⟩ := hlonger value' back' hvalue' heq hlt
    obtain ⟨c, run, rfl⟩ := List.exists_cons_of_ne_nil hne
    have hc : endsValue c = false := hrun c List.mem_cons_self
    -- Neither a line break nor what stands behind the blanks can begin more of a value.
    rcases List.append_eq_append_iff.mp hback with ⟨gap, rfl, hgap⟩ | ⟨gap, rfl, hgap⟩
    · cases gap with
      | nil =>
        have hhead := hothers c (by rw [hgap]; rfl)
        simp [hc] at hhead
      | cons d gap =>
        have hhead := hothers d (by rw [hgap]; rfl)
        simp [hws d (by simp)] at hhead
    · cases gap with
      | nil =>
        have hhead := hothers c (by rw [← List.nil_append others, ← hgap]; rfl)
        simp [hc] at hhead
      | cons d gap =>
        obtain ⟨rfl, -⟩ := List.cons_eq_cons.mp hgap
        obtain rfl := hbreaks c (by simp)
        exact absurd hc (by decide)

/-! ## Assignments -/

theorem beginsAssignment_iff : BeginsAssignment property front text ↔
    (materialStatement property front.reverse text).isSome := by
  simp only [materialStatement_isSome_iff, ownedTarget?_eq_some_iff, materialTarget?_eq_some_iff,
    ← exists_isValue_iff]
  constructor
  · rintro ⟨owner, target, value, back, ⟨⟨rfl, hstart⟩ | ⟨name, hne, hword, rfl⟩, htarget, hvalue⟩,
      rfl⟩
    · exact .inr ⟨hstart, value ++ back, ⟨target, htarget, by simp⟩, value, back, hvalue, rfl⟩
    · exact .inl ⟨name, value ++ back, ⟨target, hne, hword, htarget, by simp⟩, value, back, hvalue,
        rfl⟩
  · rintro (⟨name, _, ⟨target, hne, hword, htarget, rfl⟩, value, back, hvalue, rfl⟩ |
      ⟨hstart, _, ⟨target, htarget, rfl⟩, value, back, hvalue, rfl⟩)
    · exact ⟨_, target, value, back, ⟨.inr ⟨name, hne, hword, rfl⟩, htarget, hvalue⟩, by simp⟩
    · exact ⟨[], target, value, back, ⟨.inl ⟨rfl, hstart⟩, htarget, hvalue⟩, by simp⟩

/-- The pattern takes an assignment with its longest value. -/
theorem materialStatement_spec
    (h : materialStatement property front.reverse text = some (replacement, after)) :
    ∃ owner target value node, IsAssignment property front owner target value ∧
      text = owner ++ target ++ value ++ after ∧
      (∀ value' back', IsValue value' → value ++ after = value' ++ back' →
        value'.length ≤ value.length) ∧
      (owner = node ++ ".".toList ∨ owner = [] ∧ node = particlesAbove front.reverse) ∧
      replacement = movedAssignment property node (Text.trim value) := by
  obtain ⟨value, others, hvalue, howner⟩ := materialStatement_taken h
  obtain ⟨hisValue, hlongest⟩ := assignedValue?_longest hvalue
  obtain ⟨-, rfl⟩ := assignedValue?_spec hvalue
  rcases howner with ⟨name, target, hne, hword, htarget, rfl, rfl⟩ |
    ⟨target, hstart, htarget, rfl, rfl⟩
  · exact ⟨_, target, value, name, ⟨.inr ⟨name, hne, hword, rfl⟩, htarget, hisValue⟩, by simp,
      hlongest, .inl rfl, rfl⟩
  · exact ⟨[], target, value, _, ⟨.inl ⟨rfl, hstart⟩, htarget, hisValue⟩, by simp, hlongest,
      .inr ⟨rfl, rfl⟩, rfl⟩

/-- The equals sign that ends a target is the only one in it. -/
theorem IsTarget.exists_equals (h : IsTarget property target) :
    ∃ init, target = init ++ ['='] ∧ ∀ c ∈ init, (c != '=') := by
  obtain ⟨lead, ws₁, ws₂, ws₃, hlead, hws₁, hws₂, hws₃, rfl⟩ := h
  refine ⟨lead ++ "material".toList ++ ws₁ ++ ".".toList ++ ws₂ ++ property.name.toList ++ ws₃,
    by simp, ?_⟩
  have hblank : ∀ ws, Blanks ws → '=' ∉ ws := fun ws hws hmem => absurd (hws _ hmem) (by decide)
  have hname : '=' ∉ property.name.toList := by cases property <;> decide
  have hstart : '=' ∉ lead := by rcases hlead with rfl | rfl <;> decide
  refine fun c hc => bne_iff_ne.mpr ?_
  rintro rfl
  simp [hblank ws₁ hws₁, hblank ws₂ hws₂, hblank ws₃ hws₃, hname, hstart] at hc

theorem IsAssignment.exists_equals (h : IsAssignment property front owner target value) :
    ∃ init, owner ++ target = init ++ ['='] ∧ ∀ c ∈ init, (c != '=') := by
  obtain ⟨howner, htarget, -⟩ := h
  obtain ⟨init, rfl, hinit⟩ := htarget.exists_equals
  refine ⟨owner ++ init, by simp, fun c hc => ?_⟩
  rcases List.mem_append.mp hc with hc | hc
  · rcases howner with ⟨rfl, -⟩ | ⟨name, -, hword, rfl⟩
    · cases hc
    · rcases List.mem_append.mp hc with hc | hc
      · exact bne_iff_ne.mpr fun heq => absurd (heq ▸ hword c hc) (by decide)
      · obtain rfl := List.mem_singleton.mp hc
        decide
  · exact hinit c hc

theorem IsAssignment.afterEquals_eq (h : IsAssignment property front owner target value) :
    afterEquals (owner ++ target ++ value) = value := by
  obtain ⟨init, hinit, hnot⟩ := h.exists_equals
  rw [afterEquals, hinit, List.append_assoc, List.singleton_append,
    dropWhile_append_of_leaves hnot (leaves_cons (by decide) value)]
  rfl

/-- Two assignments at one place differ in their values only. -/
theorem IsAssignment.append_inj {owner' target' value' back' : List Char} {front' : List Char}
    (h : IsAssignment property front owner target value)
    (h' : IsAssignment property front' owner' target' value')
    (heq : owner ++ target ++ (value ++ back) = owner' ++ target' ++ (value' ++ back')) :
    owner ++ target = owner' ++ target' ∧ value ++ back = value' ++ back' := by
  obtain ⟨init, hinit, hnot⟩ := h.exists_equals
  obtain ⟨init', hinit', hnot'⟩ := h'.exists_equals
  rw [hinit, hinit', List.append_assoc, List.append_assoc, List.singleton_append,
    List.singleton_append] at heq
  have htake := congrArg (List.takeWhile (· != '=')) heq
  rw [takeWhile_append_of_leaves hnot (leaves_cons (by decide) _),
    takeWhile_append_of_leaves hnot' (leaves_cons (by decide) _)] at htake
  subst htake
  exact ⟨hinit.trans hinit'.symm, by simpa using heq⟩

/-! ## Segments of an edit -/

variable {source : List Char} {segments earlier later : List Segment}

/-- No assignment that is replaced begins inside a longer one: behind a piece that is replaced comes
a semicolon or a line break, so the characters directly before it were kept. -/
theorem not_beginsAssignment_before (h : (materialStatement property).Segments source segments)
    {piece start word : List Char}
    (hsegments : segments = earlier ++ .replaced piece replacement :: later)
    (hold : oldText earlier = start ++ word) (hne : word ≠ [])
    (hword : ∀ c ∈ word, endsValue c = false) (hpiece : ∃ c ∈ piece.head?, endsValue c = false) :
    ¬ BeginsAssignment property start (word ++ (piece ++ oldText later)) := by
  have hstop : ∀ earlier piece replacement later,
      segments = earlier ++ .replaced piece replacement :: later →
        ∀ c ∈ (oldText later).head?, endsValue c := fun earlier piece replacement later heq =>
    materialStatement_ends (h.eq_some_of_replaced earlier piece replacement later heq).2
  have hnext : ∃ c ∈ (oldText (.replaced piece replacement :: later)).head?,
      endsValue c = false := by
    obtain ⟨c, hc, hends⟩ := hpiece
    obtain ⟨piece, rfl⟩ := List.head?_eq_some_iff.mp hc
    exact ⟨c, rfl, hends⟩
  obtain ⟨left, rfl, rfl⟩ := exists_kept_before hstop hsegments hold hword hnext
  obtain ⟨c, word, rfl⟩ := List.exists_cons_of_ne_nil hne
  have hnone := h.eq_none_of_kept left c (word.map .kept ++ .replaced piece replacement :: later)
    (by simp [hsegments])
  rw [beginsAssignment_iff]
  simpa [oldText_kept, Segment.old] using hnone

theorem endsValue_of_isWord {c : Char} (h : Text.isWord c) : endsValue c = false := by
  refine eq_false_of_ne_true fun hends => ?_
  simp only [endsValue, Bool.or_eq_true, beq_iff_eq] at hends
  rcases hends with rfl | rfl <;> exact absurd h (by decide)

theorem IsTarget.head?_isWord (h : IsTarget property target) (back : List Char) :
    ∃ c ∈ (target ++ back).head?, Text.isWord c := by
  obtain ⟨lead, ws₁, ws₂, ws₃, rfl | rfl, -, -, -, rfl⟩ := h
  · exact ⟨'m', rfl, by decide⟩
  · exact ⟨'p', rfl, by decide⟩

theorem IsAssignment.head?_endsValue (h : IsAssignment property front owner target value) :
    ∃ c ∈ (owner ++ target ++ value).head?, endsValue c = false := by
  rw [List.append_assoc]
  rcases h.owner with ⟨rfl, -⟩ | ⟨name, hne, hword, rfl⟩
  · obtain ⟨c, hc, hword⟩ := h.target.head?_isWord value
    exact ⟨c, hc, endsValue_of_isWord hword⟩
  · obtain ⟨c, name, rfl⟩ := List.exists_cons_of_ne_nil hne
    exact ⟨c, rfl, endsValue_of_isWord (hword c List.mem_cons_self)⟩

/-- An owner is taken as a whole, and where a bare assignment is replaced no owner stands before it:
else an assignment would begin in the characters before, which were kept. -/
theorem isNode_of_replaced (h : (materialStatement property).Segments source segments)
    {node : List Char} (hassignment : IsAssignment property (oldText earlier) owner target value)
    (hsegments : segments = earlier ++ .replaced (owner ++ target ++ value) replacement :: later)
    (hnode : owner = node ++ ".".toList ∨
      owner = [] ∧ node = particlesAbove (oldText earlier).reverse) :
    IsNode source (oldText earlier) owner node := by
  rcases hnode with rfl | ⟨rfl, rfl⟩
  · obtain ⟨hne, hword⟩ : node ≠ [] ∧ ∀ c ∈ node, Text.isWord c := by
      rcases hassignment.owner with ⟨hnil, -⟩ | ⟨name, hne, hword, heq⟩
      · simp at hnil
      · obtain rfl : node = name := by simpa using heq
        exact ⟨hne, hword⟩
    refine .inl ⟨oldText earlier, by simp, hne, hword, fun c hc => ?_⟩
    refine eq_false_of_ne_true fun hc' => ?_
    obtain ⟨start, hstart⟩ := List.getLast?_eq_some_iff.mp hc
    refine not_beginsAssignment_before h hsegments hstart nofun ?_ hassignment.head?_endsValue ?_
    · simpa using endsValue_of_isWord hc'
    · have howner : IsOwner start (c :: node ++ ".".toList) :=
        .inr ⟨c :: node, nofun, List.forall_mem_cons.mpr ⟨hc', hword⟩, rfl⟩
      exact ⟨_, target, value, oldText later,
        ⟨howner, hassignment.target, hassignment.value⟩, by simp⟩
  · refine .inr ⟨fun name => ?_, ?_⟩
    · rintro ⟨start, hstart, hne, hword, -⟩
      rw [List.append_nil, List.append_assoc] at hstart
      refine not_beginsAssignment_before h hsegments hstart (by simp) (fun c hc => ?_)
        hassignment.head?_endsValue ?_
      · rcases List.mem_append.mp hc with hc | hc
        · exact endsValue_of_isWord (hword c hc)
        · obtain rfl := List.mem_singleton.mp hc
          decide
      · exact ⟨name ++ ".".toList, target, value, oldText later,
          ⟨.inr ⟨name, hne, hword, rfl⟩, hassignment.target, hassignment.value⟩, by simp⟩
    · rw [← h.oldText_eq, hsegments, oldText_append]
      exact isNodeAbove_particlesAbove _ _

/-- The whole source, cut at the assignments that are moved. -/
theorem movesAssignments_of_segments
    (h : (materialStatement property).Segments source segments) {segment : Segment}
    (hsegments : segments = earlier ++ segment :: later) :
    segment.MovesAssignments property source (oldText earlier) (oldText later) := by
  cases segment with
  | kept c =>
    show ¬ BeginsAssignment property (oldText earlier) (c :: oldText later)
    rw [beginsAssignment_iff, h.eq_none_of_kept earlier c later hsegments]
    exact nofun
  | replaced piece replacement =>
    obtain ⟨-, hmatch⟩ := h.eq_some_of_replaced earlier piece replacement later hsegments
    obtain ⟨owner, target, value, node, hassignment, hpiece, hlongest, hnode, hreplacement⟩ :=
      materialStatement_spec hmatch
    obtain rfl := List.append_cancel_right hpiece
    refine ⟨owner, target, value, node, hassignment, rfl, ?_, ?_, ?_⟩
    · intro owner' target' value' back' hassignment' heq
      rw [List.append_assoc, List.append_assoc _ value'] at heq
      obtain ⟨hhead, hvalue⟩ := hassignment.append_inj hassignment' heq
      have hlength := hlongest value' back' hassignment'.value hvalue
      rw [← hhead]
      simpa only [List.length_append] using Nat.add_le_add_left hlength _
    · exact isNode_of_replaced h hassignment hsegments hnode
    · rw [hassignment.afterEquals_eq, hreplacement]

/-- The edit for a material's property replaces the leftmost and longest assignments of a source
that do not overlap, and keeps all else. Each goes to the node that the old source names for it,
with the trimmed text behind its equals sign as value. -/
theorem materialEdit_moves_assignments (property : MaterialProperty) (source : List Char) :
    ∃ segments, oldText segments = source ∧
      newText segments = (FixStrategy.material property).edit source ∧
      ∀ earlier segment later, segments = earlier ++ segment :: later →
        segment.MovesAssignments property source (oldText earlier) (oldText later) := by
  obtain ⟨segments, h⟩ := Pattern.exists_segments (materialStatement_adds property).consumes source
  exact ⟨segments, h.oldText_eq, h.newText_eq, fun earlier segment later hsegments =>
    movesAssignments_of_segments h hsegments⟩

end EditorLink.Migration
