import Mathlib.Data.List.Basic
import Mathlib.Data.List.TakeWhile
import EditorLink.Json.Reader

/-!
# The limits of the reader

The reader gives up on a whole number of more than 4300 digits, and on a list or an object inside
more of them than it may open, and only then does it report so. A text that is such a number alone,
or opens that many lists, is refused for this reason.
-/

namespace EditorLink.Json

/-! ## What the readers leave -/

theorem map_eq_ok {α β : Type} {reading : Except Stop α} {f : α → β} {b : β}
    (h : reading.map f = .ok b) : ∃ a, reading = .ok a ∧ f a = b := by
  cases reading with
  | error stop => cases h
  | ok a => exact ⟨a, rfl, Except.ok.inj h⟩

theorem map_eq_error {α β : Type} {reading : Except Stop α} {f : α → β} {stop : Stop}
    (h : reading.map f = .error stop) : reading = .error stop := by
  cases reading with
  | error other =>
    cases h
    rfl
  | ok result => cases h

theorem bind_eq_ok {α β : Type} {reading : Except Stop α} {f : α → Except Stop β} {b : β}
    (h : (reading >>= f) = .ok b) : ∃ a, reading = .ok a ∧ f a = .ok b := by
  cases reading with
  | error stop => cases h
  | ok a => exact ⟨a, rfl, h⟩

theorem bind_eq_error {α β : Type} {reading : Except Stop α} {f : α → Except Stop β} {stop : Stop}
    (h : (reading >>= f) = .error stop) :
    reading = .error stop ∨ ∃ result, reading = .ok result ∧ f result = .error stop := by
  cases reading with
  | error other =>
    cases h
    exact .inl rfl
  | ok result => exact .inr ⟨result, rfl, h⟩

theorem skipSpace_suffix (cs : List Char) : skipSpace cs <:+ cs := List.dropWhile_suffix _

theorem suffix_of_skipSpace {c : Char} {cs rest : List Char} (h : skipSpace cs = c :: rest) :
    rest <:+ cs :=
  (List.suffix_cons c rest).trans (h ▸ skipSpace_suffix cs)

theorem stringRest_suffix {start skip : Nat} {units : List Nat} {cs rest : List Char} {s : String}
    (h : stringRest start skip units cs = .ok (s, rest)) : rest <:+ cs := by
  fun_induction stringRest start skip units cs with
  | case1 => cases h
  | case2 skip units head cs ih => exact (ih h).trans (List.suffix_cons _ _)
  | case3 units cs =>
    cases h
    exact List.suffix_cons _ _
  | case4 => cases h
  | case5 units cs unit hunit ih =>
    exact ((ih h).trans (List.suffix_cons _ _)).trans (List.suffix_cons _ _)
  | case6 => cases h
  | case7 units c cs hc e he ih =>
    exact ((ih h).trans (List.suffix_cons _ _)).trans (List.suffix_cons _ _)
  | case8 => cases h
  | case9 => cases h
  | case10 units c cs hquote hslash hescape hc ih => exact (ih h).trans (List.suffix_cons _ _)

theorem wholeDigits_suffix (cs : List Char) : (wholeDigits cs).2 <:+ cs := by
  unfold wholeDigits
  split
  · exact List.suffix_cons _ _
  · exact List.dropWhile_suffix _

theorem fraction_suffix (cs : List Char) : (fraction cs).2 <:+ cs := by
  unfold fraction
  split
  · split
    · exact List.suffix_rfl
    · exact (List.dropWhile_suffix _).trans (List.suffix_cons _ _)
  · exact List.suffix_rfl

theorem exponentDigits?_suffix {negative : Bool} {cs rest : List Char} {n : Int}
    (h : exponentDigits? negative cs = some (n, rest)) : rest <:+ cs := by
  unfold exponentDigits? at h
  dsimp only at h
  split at h
  · cases h
  · cases h
    exact List.dropWhile_suffix _

theorem exponent?_suffix {cs rest : List Char} {n : Int} (h : exponent? cs = some (n, rest)) :
    rest <:+ cs := by
  unfold exponent? at h
  split at h
  · split at h
    · refine List.IsSuffix.trans ?_ (List.suffix_cons _ _)
      split at h
      · exact (exponentDigits?_suffix h).trans (List.suffix_cons _ _)
      · exact (exponentDigits?_suffix h).trans (List.suffix_cons _ _)
      · exact exponentDigits?_suffix h
    · cases h
  · cases h

theorem unsignedNumber_suffix {negative : Bool} {cs rest : List Char} {n : Number}
    (h : unsignedNumber negative cs = .ok (n, rest)) : rest <:+ cs := by
  have hfraction : (fraction (wholeDigits cs).2).2 <:+ cs :=
    (fraction_suffix _).trans (wholeDigits_suffix cs)
  unfold unsignedNumber at h
  dsimp only at h
  split at h
  · next hexponent =>
    cases h
    exact (exponent?_suffix hexponent).trans hfraction
  · split at h
    · split at h
      · cases h
      · cases h
        exact hfraction
    · cases h
      exact hfraction

theorem literal?_suffix {cs rest : List Char} {v : Value} (h : literal? cs = some (v, rest)) :
    rest <:+ cs := by
  obtain ⟨⟨name, value⟩, -, hname⟩ := List.exists_of_findSome?_eq_some h
  obtain ⟨own, hown, heq⟩ := Option.map_eq_some_iff.mp hname
  cases heq
  exact ⟨name, List.isPrefixOf?_eq_some_iff_append_eq.mp hown⟩

theorem scalar_suffix {cs rest : List Char} {v : Value} (h : scalar cs = .ok (v, rest)) :
    rest <:+ cs := by
  unfold scalar at h
  split at h
  · next hliteral =>
    cases h
    exact literal?_suffix hliteral
  · split at h
    · split at h
      · obtain ⟨⟨n, own⟩, hnumber, heq⟩ := map_eq_ok h
        cases heq
        exact (unsignedNumber_suffix hnumber).trans (List.suffix_cons _ _)
      · cases h
    · split at h
      · obtain ⟨⟨n, own⟩, hnumber, heq⟩ := map_eq_ok h
        cases heq
        exact unsignedNumber_suffix hnumber
      · cases h

/-! ## What the readers blame -/

def isOpening (c : Char) : Bool := c == '[' || c == '{'

/-- Whether a stop in a text that was read with some depth blames a limit only when it is passed: an
integer is longer, or more lists and objects are opened. -/
def Stop.Fair (stop : Stop) (depth : Nat) (cs : List Char) : Prop :=
  match stop.fault with
  | .oversizedInteger digits => maxIntegerDigits < digits
  | .tooDeep _ => depth < cs.countP isOpening
  | _ => True

theorem Stop.Fair.mono {stop : Stop} {depth : Nat} {cs ds : List Char} (h : stop.Fair depth cs)
    (hsuffix : cs <:+ ds) : stop.Fair depth ds := by
  unfold Stop.Fair at h ⊢
  split
  · next hfault => simpa [hfault] using h
  · next hfault =>
    simp only [hfault] at h
    exact Nat.lt_of_lt_of_le h (List.Sublist.countP_le hsuffix.sublist)
  · trivial

theorem Stop.Fair.deeper {stop : Stop} {depth : Nat} {c : Char} {cs : List Char}
    (h : stop.Fair depth cs) (hc : isOpening c) : stop.Fair (depth + 1) (c :: cs) := by
  unfold Stop.Fair at h ⊢
  split
  · next hfault => simpa [hfault] using h
  · next hfault =>
    simp only [hfault] at h
    rw [List.countP_cons_of_pos hc]
    exact Nat.succ_lt_succ h
  · trivial

theorem stringRest_fair {start skip : Nat} {units : List Nat} {cs : List Char} {stop : Stop}
    (h : stringRest start skip units cs = .error stop) (depth : Nat) (ds : List Char) :
    stop.Fair depth ds := by
  fun_induction stringRest start skip units cs with
  | case1 => cases h; trivial
  | case2 skip units head cs ih => exact ih h
  | case3 => cases h
  | case4 => cases h; trivial
  | case5 units cs unit hunit ih => exact ih h
  | case6 => cases h; trivial
  | case7 units c cs hc e he ih => exact ih h
  | case8 => cases h; trivial
  | case9 => cases h; trivial
  | case10 units c cs hquote hslash hescape hc ih => exact ih h

theorem unsignedNumber_fair {negative : Bool} {cs : List Char} {stop : Stop}
    (h : unsignedNumber negative cs = .error stop) (depth : Nat) (ds : List Char) :
    stop.Fair depth ds := by
  unfold unsignedNumber at h
  dsimp only at h
  split at h
  · cases h
  · split at h
    · split at h
      · next hlong =>
        cases h
        exact hlong
      · cases h
    · cases h

theorem scalar_fair {cs : List Char} {stop : Stop} (h : scalar cs = .error stop) (depth : Nat) :
    stop.Fair depth cs := by
  unfold scalar at h
  split at h
  · cases h
  · split at h
    · split at h
      · exact unsignedNumber_fair (map_eq_error h) depth _
      · cases h
        trivial
    · split at h
      · exact unsignedNumber_fair (map_eq_error h) depth _
      · cases h
        trivial

/-- What holds of the three readers of values with some fuel: they leave an end of the text, and
blame a limit only when it is passed. -/
structure FairReaders (fuel : Nat) : Prop where
  value : ∀ depth cs,
    (∀ v rest, value depth fuel cs = .ok (v, rest) → rest <:+ cs) ∧
      ∀ stop, value depth fuel cs = .error stop → stop.Fair depth cs
  members : ∀ depth fields cs,
    (∀ v rest, members depth fuel fields cs = .ok (v, rest) → rest <:+ cs) ∧
      ∀ stop, members depth fuel fields cs = .error stop → stop.Fair depth cs
  elements : ∀ depth items cs,
    (∀ v rest, elements depth fuel items cs = .ok (v, rest) → rest <:+ cs) ∧
      ∀ stop, elements depth fuel items cs = .error stop → stop.Fair depth cs

theorem fairReaders_zero : FairReaders 0 := by
  refine ⟨fun depth cs => ⟨fun v rest h => ?_, fun stop h => ?_⟩,
    fun depth fields cs => ⟨fun v rest h => ?_, fun stop h => ?_⟩,
    fun depth items cs => ⟨fun v rest h => ?_, fun stop h => ?_⟩⟩
  all_goals
    cases h
    try trivial

section

variable {fuel : Nat} (hreaders : FairReaders fuel)

include hreaders

theorem value_suffix {depth : Nat} {cs rest : List Char} {v : Value}
    (h : value depth (fuel + 1) cs = .ok (v, rest)) : rest <:+ cs := by
  unfold value at h
  split at h
  · obtain ⟨⟨s, own⟩, hstring, heq⟩ := map_eq_ok h
    cases heq
    exact (stringRest_suffix hstring).trans (List.suffix_cons _ _)
  · cases h
  · refine List.IsSuffix.trans ?_ (List.suffix_cons _ _)
    split at h
    · next hspace =>
      cases h
      exact suffix_of_skipSpace hspace
    · exact ((hreaders.members _ _ _).1 _ _ h).trans (skipSpace_suffix _)
  · cases h
  · refine List.IsSuffix.trans ?_ (List.suffix_cons _ _)
    split at h
    · next hspace =>
      cases h
      exact suffix_of_skipSpace hspace
    · exact ((hreaders.elements _ _ _).1 _ _ h).trans (skipSpace_suffix _)
  · exact scalar_suffix h

theorem value_fair {depth : Nat} {cs : List Char} {stop : Stop}
    (h : value depth (fuel + 1) cs = .error stop) : stop.Fair depth cs := by
  unfold value at h
  split at h
  · exact stringRest_fair (map_eq_error h) _ _
  · cases h
    exact List.countP_pos_iff.mpr ⟨_, .head _, rfl⟩
  · split at h
    · cases h
    · exact (((hreaders.members _ _ _).2 stop h).mono (skipSpace_suffix _)).deeper rfl
  · cases h
    exact List.countP_pos_iff.mpr ⟨_, .head _, rfl⟩
  · split at h
    · cases h
    · exact (((hreaders.elements _ _ _).2 stop h).mono (skipSpace_suffix _)).deeper rfl
  · exact scalar_fair h depth

theorem members_suffix {depth : Nat} {fields : Fields} {cs rest : List Char} {v : Value}
    (h : members depth (fuel + 1) fields cs = .ok (v, rest)) : rest <:+ cs := by
  unfold members at h
  split at h
  · next own after hfuel =>
    cases hfuel
    refine List.IsSuffix.trans ?_ (List.suffix_cons _ _)
    obtain ⟨⟨key, afterKey⟩, hkey, h⟩ := bind_eq_ok h
    refine List.IsSuffix.trans ?_ (stringRest_suffix hkey)
    dsimp only at h
    split at h
    · next hcolon =>
      obtain ⟨⟨item, afterItem⟩, hitem, h⟩ := bind_eq_ok h
      have hleft : afterItem <:+ afterKey :=
        (((hreaders.value _ _).1 _ _ hitem).trans (skipSpace_suffix _)).trans
          (suffix_of_skipSpace hcolon)
      refine List.IsSuffix.trans ?_ hleft
      dsimp only at h
      split at h
      · next hspace =>
        cases h
        exact suffix_of_skipSpace hspace
      · next hspace =>
        exact (((hreaders.members _ _ _).1 _ _ h).trans (skipSpace_suffix _)).trans
          (suffix_of_skipSpace hspace)
      · cases h
    · cases h
  · cases h

theorem members_fair {depth : Nat} {fields : Fields} {cs : List Char} {stop : Stop}
    (h : members depth (fuel + 1) fields cs = .error stop) : stop.Fair depth cs := by
  unfold members at h
  split at h
  · next own after hfuel =>
    cases hfuel
    refine Stop.Fair.mono ?_ (List.suffix_cons _ _)
    rcases bind_eq_error h with hkey | ⟨⟨key, afterKey⟩, hkey, h⟩
    · exact stringRest_fair hkey _ _
    · refine Stop.Fair.mono ?_ (stringRest_suffix hkey)
      dsimp only at h
      split at h
      · next hcolon =>
        refine Stop.Fair.mono ?_ (suffix_of_skipSpace hcolon)
        refine Stop.Fair.mono ?_ (skipSpace_suffix _)
        rcases bind_eq_error h with hitem | ⟨⟨item, afterItem⟩, hitem, h⟩
        · exact (hreaders.value _ _).2 stop hitem
        · refine Stop.Fair.mono ?_ ((hreaders.value _ _).1 _ _ hitem)
          dsimp only at h
          split at h
          · cases h
          · next hspace =>
            exact (((hreaders.members _ _ _).2 stop h).mono (skipSpace_suffix _)).mono
              (suffix_of_skipSpace hspace)
          · cases h
            trivial
      · cases h
        trivial
  · cases h
    trivial

theorem elements_suffix {depth : Nat} {items : List Value} {cs rest : List Char} {v : Value}
    (h : elements depth (fuel + 1) items cs = .ok (v, rest)) : rest <:+ cs := by
  unfold elements at h
  obtain ⟨⟨item, afterItem⟩, hitem, h⟩ := bind_eq_ok h
  refine List.IsSuffix.trans ?_ ((hreaders.value _ _).1 _ _ hitem)
  dsimp only at h
  split at h
  · next hspace =>
    cases h
    exact suffix_of_skipSpace hspace
  · next hspace =>
    exact (((hreaders.elements _ _ _).1 _ _ h).trans (skipSpace_suffix _)).trans
      (suffix_of_skipSpace hspace)
  · cases h

theorem elements_fair {depth : Nat} {items : List Value} {cs : List Char} {stop : Stop}
    (h : elements depth (fuel + 1) items cs = .error stop) : stop.Fair depth cs := by
  unfold elements at h
  rcases bind_eq_error h with hitem | ⟨⟨item, afterItem⟩, hitem, h⟩
  · exact (hreaders.value _ _).2 stop hitem
  · refine Stop.Fair.mono ?_ ((hreaders.value _ _).1 _ _ hitem)
    dsimp only at h
    split at h
    · cases h
    · next hspace =>
      exact (((hreaders.elements _ _ _).2 stop h).mono (skipSpace_suffix _)).mono
        (suffix_of_skipSpace hspace)
    · cases h
      trivial

end

theorem fairReaders (fuel : Nat) : FairReaders fuel := by
  -- Each reader calls the others with one unit less, so one induction is about all three.
  induction fuel with
  | zero => exact fairReaders_zero
  | succ fuel ih =>
    exact ⟨fun _ _ => ⟨fun _ _ => value_suffix ih, fun _ => value_fair ih⟩,
      fun _ _ _ => ⟨fun _ _ => members_suffix ih, fun _ => members_fair ih⟩,
      fun _ _ _ => ⟨fun _ _ => elements_suffix ih, fun _ => elements_fair ih⟩⟩

theorem document_fair {depth : Nat} {cs : List Char} {stop : Stop}
    (h : document depth cs = .error stop) : stop.Fair depth cs := by
  unfold document at h
  split at h
  · cases h
    trivial
  · rcases bind_eq_error h with hvalue | ⟨result, -, h⟩
    · exact (((fairReaders _).value _ _).2 stop hvalue).mono (skipSpace_suffix cs)
    · dsimp only at h
      split at h
      · cases h
      · cases h
        trivial

/-- A limit is reported only when it is passed: an integer has more digits, or more lists and objects
are opened in the text. -/
theorem passed_of_isBeyondLimit {depth : Nat} {cs : List Char} {error : ReadError}
    (h : read depth cs = .error error) (hbeyond : error.isBeyondLimit) :
    (∃ digits, error = .oversizedInteger digits ∧ maxIntegerDigits < digits) ∨
      ∃ container, error = .tooDeep container ∧ depth < cs.countP isOpening := by
  unfold read at h
  cases hread : document depth cs with
  | ok result =>
    rw [hread] at h
    cases h
  | error stop =>
    rw [hread] at h
    have hfair := document_fair hread
    obtain ⟨fault, left⟩ := stop
    cases fault with
    | oversizedInteger digits =>
      cases h
      exact .inl ⟨digits, rfl, hfair⟩
    | tooDeep container =>
      cases h
      exact .inr ⟨container, rfl, hfair⟩
    | _ =>
      cases h
      cases hbeyond

/-! ## Deep lists -/

theorem value_of_deep (depth : Nat) (cs : List Char) (fuel : Nat) :
    ∃ left, value depth (2 * depth + fuel + 1) (List.replicate (depth + 1) '[' ++ cs) =
      .error ⟨.tooDeep .list, left⟩ := by
  induction depth with
  | zero => exact ⟨_, rfl⟩
  | succ depth ih =>
    obtain ⟨left, hleft⟩ := ih
    refine ⟨left, ?_⟩
    -- A list takes two units of fuel: one for the value, one for its elements.
    have helements : elements depth (2 * depth + fuel + 2) []
        (List.replicate (depth + 1) '[' ++ cs) = .error ⟨.tooDeep .list, left⟩ := by
      rw [elements, hleft]
      rfl
    rw [show 2 * (depth + 1) + fuel + 1 = (2 * depth + fuel + 2) + 1 by omega]
    exact helements

/-- A text that opens more lists than may stand inside each other is refused as too deep. -/
theorem read_of_deep {depth n : Nat} (h : depth < n) (cs : List Char) :
    read depth (List.replicate n '[' ++ cs) = .error (.tooDeep .list) := by
  obtain ⟨more, rfl⟩ := Nat.exists_eq_add_of_lt h
  have hsplit : List.replicate (depth + more + 1) '[' ++ cs =
      List.replicate (depth + 1) '[' ++ (List.replicate more '[' ++ cs) := by
    rw [← List.append_assoc, List.replicate_append_replicate]
    congr 2
    omega
  rw [hsplit]
  generalize List.replicate more '[' ++ cs = rest
  obtain ⟨left, hleft⟩ := value_of_deep depth rest
    (2 * (List.replicate (depth + 1) '[' ++ rest).length + 1 - 2 * depth)
  have hfuel : 2 * depth +
      (2 * (List.replicate (depth + 1) '[' ++ rest).length + 1 - 2 * depth) + 1 =
        2 * (List.replicate (depth + 1) '[' ++ rest).length + 2 := by
    simp only [List.length_append, List.length_replicate]
    omega
  rw [hfuel] at hleft
  have hdocument : document depth (List.replicate (depth + 1) '[' ++ rest) =
      .error ⟨.tooDeep .list, left⟩ := by
    unfold document
    split
    · next hmark => simp [List.replicate_succ] at hmark
    · show (value depth (2 * (List.replicate (depth + 1) '[' ++ rest).length + 2)
        (List.replicate (depth + 1) '[' ++ rest) >>= _) = _
      rw [hleft]
      rfl
  rw [read, hdocument]
  rfl

/-! ## Long numbers -/

theorem ne_of_digit {c d : Char} (hc : c.isDigit) (hd : d.isDigit = false) : c ≠ d := by
  rintro rfl
  rw [hc] at hd
  cases hd

theorem skipSpace_of_digit {c : Char} {cs : List Char} (hc : c.isDigit) :
    skipSpace (c :: cs) = c :: cs := by
  have hspace : isSpace c = false := by
    simp [isSpace, ne_of_digit hc (d := ' ') rfl, ne_of_digit hc (d := '\t') rfl,
      ne_of_digit hc (d := '\n') rfl, ne_of_digit hc (d := '\r') rfl]
  rw [skipSpace, List.dropWhile_cons, hspace]
  rfl

theorem isPrefixOf?_of_digit {c d : Char} {cs ds : List Char} (hc : c.isDigit)
    (hd : d.isDigit = false) : (d :: ds).isPrefixOf? (c :: cs) = none := by
  have hne : (d == c) = false := beq_eq_false_iff_ne.mpr (ne_of_digit hc hd).symm
  show (if d == c then ds.isPrefixOf? cs else none) = none
  rw [hne]
  rfl

theorem literal?_of_digit {c : Char} {cs : List Char} (hc : c.isDigit) :
    literal? (c :: cs) = none := by
  have hnone : ∀ name value, (name, value) ∈ literals → name.isPrefixOf? (c :: cs) = none := by
    intro name value hmem
    simp only [literals, List.mem_cons, List.not_mem_nil, or_false, Prod.mk.injEq] at hmem
    rcases hmem with ⟨rfl, -⟩ | ⟨rfl, -⟩ | ⟨rfl, -⟩ | ⟨rfl, -⟩ | ⟨rfl, -⟩ | ⟨rfl, -⟩ <;>
      exact isPrefixOf?_of_digit hc rfl
  rw [literal?, List.findSome?_eq_none_iff]
  rintro ⟨name, value⟩ hmem
  show (name.isPrefixOf? (c :: cs)).map _ = none
  rw [hnone name value hmem]
  rfl

theorem wholeDigits_of_digits {c : Char} {cs : List Char} (hc : c.isDigit) (hzero : c ≠ '0')
    (hcs : ∀ d ∈ cs, d.isDigit) : wholeDigits (c :: cs) = (c :: cs, []) := by
  have hall : ∀ d ∈ c :: cs, d.isDigit := List.forall_mem_cons.mpr ⟨hc, hcs⟩
  have htake : (c :: cs).takeWhile Char.isDigit = c :: cs := List.takeWhile_eq_self_iff.mpr hall
  have hdrop : (c :: cs).dropWhile Char.isDigit = [] := List.dropWhile_eq_nil_iff.mpr hall
  unfold wholeDigits
  split
  · next heq => exact absurd (List.cons.inj heq).1 hzero
  · rw [htake, hdrop]

theorem unsignedNumber_of_long {c : Char} {cs : List Char} (hc : c.isDigit) (hzero : c ≠ '0')
    (hcs : ∀ d ∈ cs, d.isDigit) (hlong : maxIntegerDigits < cs.length + 1) (negative : Bool) :
    unsignedNumber negative (c :: cs) =
      .error ⟨.oversizedInteger (cs.length + 1), cs.length + 1⟩ := by
  rw [unsignedNumber, wholeDigits_of_digits hc hzero hcs]
  exact if_pos hlong

/-- A text that is a whole number beyond the limit is refused as an oversized integer. -/
theorem read_of_long_number {c : Char} {cs : List Char} (hc : c.isDigit) (hzero : c ≠ '0')
    (hcs : ∀ d ∈ cs, d.isDigit) (hlong : maxIntegerDigits < cs.length + 1) (depth : Nat) :
    read depth (c :: cs) = .error (.oversizedInteger (cs.length + 1)) := by
  have hscalar : scalar (c :: cs) = .error ⟨.oversizedInteger (cs.length + 1), cs.length + 1⟩ := by
    unfold scalar
    rw [literal?_of_digit hc]
    dsimp only
    split
    · next heq => exact absurd (List.cons.inj heq).1 (ne_of_digit hc rfl)
    · rw [if_pos (show startsWithDigit (c :: cs) = true from hc),
        unsignedNumber_of_long hc hzero hcs hlong]
      rfl
  have hvalue : ∀ fuel, value depth (fuel + 1) (c :: cs) = scalar (c :: cs) := by
    intro fuel
    unfold value
    split
    · next heq => exact absurd (List.cons.inj heq).1 (ne_of_digit hc rfl)
    · next heq => exact absurd (List.cons.inj heq).1 (ne_of_digit hc rfl)
    · next heq => exact absurd (List.cons.inj heq).1 (ne_of_digit hc rfl)
    · next heq => exact absurd (List.cons.inj heq).1 (ne_of_digit hc rfl)
    · next heq => exact absurd (List.cons.inj heq).1 (ne_of_digit hc rfl)
    · rfl
  have hdocument : document depth (c :: cs) =
      .error ⟨.oversizedInteger (cs.length + 1), cs.length + 1⟩ := by
    unfold document
    split
    · next heq => exact absurd (List.cons.inj heq).1 (ne_of_digit hc rfl)
    · dsimp only
      rw [skipSpace_of_digit hc, hvalue, hscalar]
      rfl
  rw [read, hdocument]
  rfl

end EditorLink.Json
