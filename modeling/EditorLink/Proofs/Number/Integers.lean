import EditorLink.Number.Integer
import EditorLink.Proofs.Text.Cuts

/-!
# Which texts are whole numbers

A text is read as a whole number just when it is padding, at most one sign, digits with underscores
singly between them, and padding again, with no more digits than a number may have. `Grouped` says
of digits and underscores how they follow each other, and which digits they are.
-/

namespace EditorLink.Number

open Text

/-- Digits of any script, where a single underscore may stand between a digit and the next one. -/
inductive Grouped : List Char → List Nat → Prop
  | last {c : Char} {digit : Nat} : decimalDigit? c = some digit → Grouped [c] [digit]
  | next {c : Char} {digit : Nat} {cs : List Char} {digits : List Nat} :
      decimalDigit? c = some digit → Grouped cs digits → Grouped (c :: cs) (digit :: digits)
  | underscore {c : Char} {digit : Nat} {cs : List Char} {digits : List Nat} :
      decimalDigit? c = some digit → Grouped cs digits → Grouped (c :: '_' :: cs) (digit :: digits)

/-- A sign, or none. -/
inductive Sign : List Char → Bool → Prop
  | none : Sign [] false
  | plus : Sign ['+'] false
  | minus : Sign ['-'] true

def Padding (cs : List Char) : Prop := ∀ c ∈ cs, isPadding c

/-- A text that spells a whole number. -/
def Spells (cs : List Char) (n : Int) : Prop :=
  ∃ left sign body right negative digits, cs = left ++ (sign ++ body) ++ right ∧
    Padding left ∧ Padding right ∧ Sign sign negative ∧ Grouped body digits ∧
    digits.length ≤ maxWholeLength ∧
    n = if negative then -(ofDigits digits : Int) else ofDigits digits

variable {cs body sign rest : List Char} {digits : List Nat} {c : Char} {digit : Nat}
  {negative : Bool} {n : Int}

/-! ## Digits -/

theorem ne_of_digit {mark : Char} (hmark : decimalDigit? mark = none)
    (h : decimalDigit? c = some digit) : c ≠ mark := by
  rintro rfl
  rw [hmark] at h
  cases h

theorem groupedDigits?_digit (h : decimalDigit? c = some digit) (afterDigit : Bool)
    (cs : List Char) : groupedDigits? afterDigit (c :: cs) =
      (groupedDigits? true cs).map (digit :: ·) := by
  simp [groupedDigits?, ne_of_digit (by decide : decimalDigit? '_' = none) h, h]

theorem groupedDigits?_of_grouped (h : Grouped cs digits) (afterDigit : Bool) :
    groupedDigits? afterDigit cs = some digits := by
  induction h generalizing afterDigit with
  | last hdigit =>
    rw [groupedDigits?_digit hdigit]
    rfl
  | next hdigit _ ih =>
    rw [groupedDigits?_digit hdigit, ih true]
    rfl
  | underscore hdigit _ ih =>
    rw [groupedDigits?_digit hdigit, groupedDigits?, if_pos rfl, if_pos rfl, ih false]
    rfl

/-- Behind a digit the text may end or go on with an underscore; at the start it may not. -/
theorem grouped_of_groupedDigits? (cs : List Char) :
    (∀ digits, groupedDigits? false cs = some digits → Grouped cs digits) ∧
      ∀ digits, groupedDigits? true cs = some digits →
        cs = [] ∧ digits = [] ∨ Grouped cs digits ∨ ∃ rest, cs = '_' :: rest ∧ Grouped rest digits := by
  induction cs with
  | nil =>
    refine ⟨fun digits h => ?_, fun digits h => .inl ⟨rfl, (Option.some.inj h).symm⟩⟩
    simp [groupedDigits?] at h
  | cons c cs ih =>
    obtain ⟨ihStart, ihBehind⟩ := ih
    have hdigits (afterDigit : Bool) (digits : List Nat) (hc : c ≠ '_')
        (h : groupedDigits? afterDigit (c :: cs) = some digits) : Grouped (c :: cs) digits := by
      rw [groupedDigits?, if_neg hc] at h
      split at h
      · next digit hdigit =>
        obtain ⟨more, hmore, rfl⟩ := Option.map_eq_some_iff.mp h
        rcases ihBehind more hmore with ⟨rfl, rfl⟩ | hgrouped | ⟨rest, rfl, hgrouped⟩
        · exact .last hdigit
        · exact .next hdigit hgrouped
        · exact .underscore hdigit hgrouped
      · cases h
    by_cases hc : c = '_'
    · subst hc
      refine ⟨fun digits h => ?_, fun digits h => ?_⟩
      · simp [groupedDigits?] at h
      · rw [groupedDigits?, if_pos rfl, if_pos rfl] at h
        exact .inr (.inr ⟨cs, rfl, ihStart digits h⟩)
    · exact ⟨fun digits h => hdigits false digits hc h,
        fun digits h => .inr (.inl (hdigits true digits hc h))⟩

theorem groupedDigits?_eq_some_iff : groupedDigits? false cs = some digits ↔ Grouped cs digits :=
  ⟨(grouped_of_groupedDigits? cs).1 digits, fun h => groupedDigits?_of_grouped h false⟩

/-! ## The ends of a number -/

/-- The digits of every script lie between the blanks. -/
theorem digitZeros_apart : ∀ first ∈ digitZeros, 0xA0 < first ∧
    (first + 9 < 0x1680 ∨ 0x1680 < first ∧ first + 9 < 0x2000 ∨
      0x205F < first ∧ first + 9 < 0x3000 ∨ 0x3000 < first) := by
  decide +kernel

theorem not_blank_of_digit (h : decimalDigit? c = some digit) : isBlank c = false := by
  have hrange : 48 ≤ c.toNat ∧ c.toNat ≤ 57 ∨
      ∃ first ∈ digitZeros, first ≤ c.toNat ∧ c.toNat ≤ first + 9 := by
    unfold decimalDigit? at h
    dsimp only at h
    split at h
    · obtain ⟨hdigit, -⟩ := Option.ite_none_right_eq_some.mp h
      left
      simpa [Char.isDigit, UInt32.le_iff_toNat_le] using hdigit
    · obtain ⟨first, hfirst, -⟩ := Option.map_eq_some_iff.mp h
      exact .inr ⟨first, List.mem_of_find?_eq_some hfirst, by simpa using List.find?_some hfirst⟩
  simp only [isBlank, Bool.or_eq_false_iff, Bool.and_eq_false_iff, decide_eq_false_iff_not,
    beq_eq_false_iff_ne]
  rcases hrange with hascii | ⟨first, hfirst, hrange⟩
  · omega
  · have hapart := digitZeros_apart first hfirst
    omega

theorem not_padding_of_digit (h : decimalDigit? c = some digit) : isPadding c = false := by
  simp [isPadding, not_blank_of_digit h]

theorem Grouped.exists_first (h : Grouped cs digits) :
    ∃ c digit rest, cs = c :: rest ∧ decimalDigit? c = some digit := by
  cases h with
  | last hdigit => exact ⟨_, _, _, rfl, hdigit⟩
  | next hdigit => exact ⟨_, _, _, rfl, hdigit⟩
  | underscore hdigit => exact ⟨_, _, _, rfl, hdigit⟩

theorem Grouped.exists_last (h : Grouped cs digits) :
    ∃ c digit, cs.getLast? = some c ∧ decimalDigit? c = some digit := by
  induction h with
  | last hdigit => exact ⟨_, _, rfl, hdigit⟩
  | next hdigit _ ih =>
    obtain ⟨c, digit, hlast, hc⟩ := ih
    exact ⟨c, digit, by simp [List.getLast?_cons, hlast], hc⟩
  | underscore hdigit _ ih =>
    obtain ⟨c, digit, hlast, hc⟩ := ih
    exact ⟨c, digit, by simp [List.getLast?_cons, hlast], hc⟩

theorem splitSign_of_sign (hsign : Sign sign negative) (hbody : Grouped body digits) :
    splitSign (sign ++ body) = (negative, body) := by
  cases hsign with
  | plus => rfl
  | minus => rfl
  | none =>
    obtain ⟨c, digit, rest, rfl, hdigit⟩ := hbody.exists_first
    have hplus : c ≠ '+' := ne_of_digit (by decide) hdigit
    have hminus : c ≠ '-' := ne_of_digit (by decide) hdigit
    simp [splitSign, hplus, hminus]

theorem exists_sign (cs : List Char) :
    ∃ sign, Sign sign (splitSign cs).1 ∧ cs = sign ++ (splitSign cs).2 := by
  unfold splitSign
  split
  · exact ⟨_, .minus, rfl⟩
  · exact ⟨_, .plus, rfl⟩
  · exact ⟨_, .none, rfl⟩

/-- Neither a sign nor a digit is padding. -/
theorem trimPadding_of_number {left right : List Char} (hleft : Padding left)
    (hright : Padding right) (hsign : Sign sign negative) (hbody : Grouped body digits) :
    trimPadding (left ++ (sign ++ body) ++ right) = sign ++ body := by
  obtain ⟨first, digit, rest, hfirst, hdigit⟩ := hbody.exists_first
  obtain ⟨last, digit', hlast, hdigit'⟩ := hbody.exists_last
  apply trimBoth_append hleft hright
  · intro c hc
    cases hsign with
    | none =>
      rw [hfirst] at hc
      obtain rfl := Option.some.inj hc
      exact not_padding_of_digit hdigit
    | plus =>
      obtain rfl := Option.some.inj hc
      decide
    | minus =>
      obtain rfl := Option.some.inj hc
      decide
  · intro c hc
    rw [List.getLast?_append, hlast, Option.some_or] at hc
    obtain rfl := Option.some.inj hc
    exact not_padding_of_digit hdigit'

/-- A text is read as a number just when it spells it. -/
theorem readInteger?_eq_some_iff (cs : List Char) (n : Int) :
    readInteger? cs = some n ↔ Spells cs n := by
  have hread : readInteger? cs = some n ↔ ∃ digits,
      Grouped (splitSign (trimPadding cs)).2 digits ∧ digits.length ≤ maxWholeLength ∧
        n = if (splitSign (trimPadding cs)).1 then -(ofDigits digits : Int)
          else ofDigits digits := by
    simp only [readInteger?, Option.bind_eq_bind, Option.bind_eq_some_iff,
      groupedDigits?_eq_some_iff, Option.ite_none_left_eq_some, Nat.not_lt, Option.some_inj,
      eq_comm (b := n), gt_iff_lt]
  rw [hread]
  constructor
  · rintro ⟨digits, hgrouped, hlength, hn⟩
    obtain ⟨left, right, hleft, hright, hcs⟩ := exists_trimBoth isPadding cs
    obtain ⟨sign, hsign, hcore⟩ := exists_sign (trimPadding cs)
    refine ⟨left, sign, _, right, _, digits, ?_, hleft, hright, hsign, hgrouped, hlength, hn⟩
    rw [← hcore]
    exact hcs
  · rintro ⟨left, sign, body, right, negative, digits, rfl, hleft, hright, hsign, hbody, hlength,
      hn⟩
    rw [trimPadding_of_number hleft hright hsign hbody, splitSign_of_sign hsign hbody]
    exact ⟨digits, hbody, hlength, hn⟩

end EditorLink.Number
