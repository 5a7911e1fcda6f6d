import Mathlib.Data.List.Forall2
import EditorLink.Text.Percent
import EditorLink.Text.Quoted

/-!
# Reading back encoded text

What UTF-8 writes for a text is read back as that text, whatever follows. So is a percent-encoded
text in which every character stands for itself or is written as the escapes of its octets, in any
mixture: a run of ASCII characters and escapes always ends between two characters.
-/

namespace EditorLink.Text

namespace Utf8

/-! ## The octets of one character -/

section

variable {owed low high code bits octet : Nat} {rest : List Nat}

/-- The last octet that a character owes. -/
theorem unitsFrom_last (hlow : low ≤ 0x80 + bits) (hhigh : 0x80 + bits ≤ high) :
    unitsFrom (some ⟨1, low, high, code⟩) ((0x80 + bits) :: rest) =
      some (Char.ofNat (code * 64 + bits)) :: unitsFrom none rest := by
  rw [unitsFrom, if_pos ⟨hlow, hhigh⟩, if_pos (Nat.le_refl 1), Nat.add_sub_cancel_left]

/-- An octet before the last one. -/
theorem unitsFrom_owing (hlow : low ≤ 0x80 + bits) (hhigh : 0x80 + bits ≤ high) :
    unitsFrom (some ⟨owed + 2, low, high, code⟩) ((0x80 + bits) :: rest) =
      unitsFrom (some ⟨owed + 1, 0x80, 0xBF, code * 64 + bits⟩) rest := by
  have howed : ¬ owed + 2 ≤ 1 := by omega
  rw [unitsFrom, if_pos ⟨hlow, hhigh⟩, if_neg howed, Nat.add_sub_cancel_left]
  rfl

theorem unitsFrom_opening {opened : Opened} (h : lead octet = .opens opened) :
    unitsFrom none (octet :: rest) = unitsFrom (some opened) rest := by
  simp only [unitsFrom, startWith, h]

theorem unitsFrom_whole {c : Char} (h : lead octet = .whole c) :
    unitsFrom none (octet :: rest) = some c :: unitsFrom none rest := by
  simp only [unitsFrom, startWith, h]

end

/-! The first octet admits the second one that `encodeChar` writes, also where it restricts it. -/

theorem lead_of_two {n : Nat} (hlow : 0x80 ≤ n) (hhigh : n < 0x800) :
    lead (0xC0 + n / 64) = .opens ⟨1, 0x80, 0xBF, n / 64⟩ := by
  have hrange : 0xC2 ≤ 0xC0 + n / 64 ∧ 0xC0 + n / 64 ≤ 0xDF := by omega
  rw [lead, if_neg (by omega), if_pos hrange, Nat.add_sub_cancel_left]

theorem lead_of_three {n : Nat} (hlow : 0x800 ≤ n) (hhigh : n < 0x10000)
    (hscalar : n < 0xD800 ∨ 0xDFFF < n) : ∃ low high,
      lead (0xE0 + n / 4096) = .opens ⟨2, low, high, n / 4096⟩ ∧
        low ≤ 0x80 + n / 64 % 64 ∧ 0x80 + n / 64 % 64 ≤ high := by
  rw [lead, if_neg (by omega), if_neg (by omega)]
  by_cases hfirst : n / 4096 = 0
  · refine ⟨0xA0, 0xBF, ?_, by omega, by omega⟩
    rw [hfirst, if_pos rfl]
  · rw [if_neg (by omega)]
    by_cases hlast : n / 4096 = 0xD
    · refine ⟨0x80, 0x9F, ?_, by omega, by omega⟩
      rw [hlast, if_pos rfl]
    · refine ⟨0x80, 0xBF, ?_, by omega, by omega⟩
      rw [if_neg (by omega), if_pos (by omega), Nat.add_sub_cancel_left]

theorem lead_of_four {n : Nat} (hlow : 0x10000 ≤ n) (hhigh : n < 0x110000) : ∃ low high,
      lead (0xF0 + n / 262144) = .opens ⟨3, low, high, n / 262144⟩ ∧
        low ≤ 0x80 + n / 4096 % 64 ∧ 0x80 + n / 4096 % 64 ≤ high := by
  rw [lead, if_neg (by omega), if_neg (by omega), if_neg (by omega), if_neg (by omega),
    if_neg (by omega)]
  by_cases hfirst : n / 262144 = 0
  · refine ⟨0x90, 0xBF, ?_, by omega, by omega⟩
    rw [hfirst, if_pos rfl]
  · rw [if_neg (by omega)]
    by_cases hlast : n / 262144 = 4
    · refine ⟨0x80, 0x8F, ?_, by omega, by omega⟩
      rw [hlast, if_pos rfl]
    · refine ⟨0x80, 0xBF, ?_, by omega, by omega⟩
      rw [if_neg (by omega), if_pos (by omega), Nat.add_sub_cancel_left]

/-- No code point of a character is a surrogate. -/
theorem scalar_toNat (c : Char) : c.toNat < 0xD800 ∨ 0xDFFF < c.toNat ∧ c.toNat < 0x110000 := by
  have h : c.toNat.isValidChar := c.valid
  exact h

theorem unitsFrom_encodeChar (c : Char) (rest : List Nat) :
    unitsFrom none (encodeChar c ++ rest) = some c :: unitsFrom none rest := by
  have hscalar := scalar_toNat c
  rw [encodeChar]
  split
  · refine unitsFrom_whole ?_
    rw [lead, if_pos (by omega), Char.ofNat_toNat]
  · split
    · next htwo =>
      have hcode : c.toNat / 64 * 64 + c.toNat % 64 = c.toNat := by omega
      show unitsFrom none (_ :: _ :: rest) = _
      rw [unitsFrom_opening (lead_of_two (by omega) htwo), unitsFrom_last (by omega) (by omega),
        hcode, Char.ofNat_toNat]
    · next htwo =>
      split
      · next hthree =>
        obtain ⟨low, high, hlead, hlow, hhigh⟩ :=
          lead_of_three (Nat.not_lt.mp htwo) hthree (by omega)
        have hcode : (c.toNat / 4096 * 64 + c.toNat / 64 % 64) * 64 + c.toNat % 64 = c.toNat := by
          omega
        show unitsFrom none (_ :: _ :: _ :: rest) = _
        rw [unitsFrom_opening hlead, unitsFrom_owing hlow hhigh,
          unitsFrom_last (by omega) (by omega), hcode, Char.ofNat_toNat]
      · next hthree =>
        obtain ⟨low, high, hlead, hlow, hhigh⟩ :=
          lead_of_four (n := c.toNat) (Nat.not_lt.mp hthree) (by omega)
        have hcode : ((c.toNat / 262144 * 64 + c.toNat / 4096 % 64) * 64 +
            c.toNat / 64 % 64) * 64 + c.toNat % 64 = c.toNat := by
          omega
        show unitsFrom none (_ :: _ :: _ :: _ :: rest) = _
        rw [unitsFrom_opening hlead, unitsFrom_owing hlow hhigh,
          unitsFrom_owing (by omega) (by omega), unitsFrom_last (by omega) (by omega), hcode,
          Char.ofNat_toNat]

theorem units_encode (cs : List Char) : units (encode cs) = cs.map some := by
  induction cs with
  | nil => rfl
  | cons c cs ih =>
    show unitsFrom none (encodeChar c ++ encode cs) = some c :: cs.map some
    rw [unitsFrom_encodeChar, ← ih]
    rfl

theorem decodeLossy_encode (cs : List Char) : decodeLossy (encode cs) = cs := by
  simp [decodeLossy, units_encode, Function.comp_def]

theorem encode_append_singleton (cs : List Char) (c : Char) :
    encode (cs ++ [c]) = encode cs ++ encodeChar c := by
  simp [encode]

theorem lt_of_mem_encodeChar {c : Char} {octet : Nat} (h : octet ∈ encodeChar c) :
    octet < 0x100 := by
  have hscalar := scalar_toNat c
  rw [encodeChar] at h
  split at h
  · obtain rfl := List.mem_singleton.mp h
    omega
  · split at h
    · simp only [List.mem_cons, List.not_mem_nil, or_false] at h
      omega
    · split at h <;> simp only [List.mem_cons, List.not_mem_nil, or_false] at h <;> omega

/-! ## Octets that decode to nothing -/

theorem unitsFrom_some_ne_nil (opened : Opened) (octets : List Nat) :
    unitsFrom (some opened) octets ≠ [] := by
  induction octets generalizing opened with
  | nil => simp [unitsFrom]
  | cons octet rest ih =>
    simp only [unitsFrom]
    split
    · split
      · simp
      · exact ih _
    · simp

theorem decodeLossy_ne_nil {octets : List Nat} (h : octets ≠ []) : decodeLossy octets ≠ [] := by
  obtain ⟨octet, rest, rfl⟩ := List.exists_cons_of_ne_nil h
  have hunits : units (octet :: rest) ≠ [] := by
    rw [units, unitsFrom, startWith]
    split
    · simp
    · exact unitsFrom_some_ne_nil _ rest
    · simp
  simpa [decodeLossy] using hunits

end Utf8

/-! ## Percent-encoded text -/

/-- The hexadecimal digits for a number below sixteen, in either case. -/
def hexSpellings (n : Nat) : List Char := [hexChar n, (hexChar n).toUpper]

/-- An octet is written as a percent sign with its two hexadecimal digits. -/
def IsEscape (piece : List Char) (octet : Nat) : Prop :=
  ∃ high ∈ hexSpellings (octet / 16), ∃ low ∈ hexSpellings (octet % 16), piece = ['%', high, low]

/-- The ways to write one character. -/
inductive WritesChar : List Char → Char → Prop
  | itself {c : Char} (h : c ≠ '%') : WritesChar [c] c
  | escapes {pieces : List (List Char)} {c : Char}
    (h : List.Forall₂ IsEscape pieces (Utf8.encodeChar c)) : WritesChar pieces.flatten c

/-- A text is written with escapes for some of its characters. -/
def PercentEncodes (encoded text : List Char) : Prop :=
  ∃ pieces, encoded = pieces.flatten ∧ List.Forall₂ WritesChar pieces text

/-! ## Decoding -/

theorem hexDigit?_of_mem : ∀ n < 16, ∀ c ∈ hexSpellings n, hexDigit? c = some n := by decide

theorem escapedOctet?_of_mem {octet : Nat} {high low : Char} (hoctet : octet < 0x100)
    (hhigh : high ∈ hexSpellings (octet / 16)) (hlow : low ∈ hexSpellings (octet % 16)) :
    escapedOctet? high low = some octet := by
  have hhigh' := hexDigit?_of_mem (octet / 16) (by omega) high hhigh
  have hlow' := hexDigit?_of_mem (octet % 16) (by omega) low hlow
  have hsum : octet / 16 * 16 + octet % 16 = octet := by omega
  simp [escapedOctet?, hhigh', hlow', hsum]

variable {run : List Nat} {rest : List Char}

theorem percentDecodeFrom_escape {piece : List Char} {octet : Nat} (hoctet : octet < 0x100)
    (h : IsEscape piece octet) :
    percentDecodeFrom run (piece ++ rest) = percentDecodeFrom (octet :: run) rest := by
  obtain ⟨high, hhigh, low, hlow, rfl⟩ := h
  show percentDecodeFrom run ('%' :: high :: low :: rest) = _
  simp only [percentDecodeFrom, escapedOctet?_of_mem hoctet hhigh hlow]

theorem percentDecodeFrom_escapes {pieces : List (List Char)} {octets : List Nat}
    (hoctets : ∀ octet ∈ octets, octet < 0x100) (h : List.Forall₂ IsEscape pieces octets) :
    percentDecodeFrom run (pieces.flatten ++ rest) =
      percentDecodeFrom (octets.reverse ++ run) rest := by
  induction h generalizing run with
  | nil => rfl
  | @cons piece octet pieces octets hpiece _ ih =>
    obtain ⟨hoctet, hoctets⟩ := List.forall_mem_cons.mp hoctets
    rw [List.flatten_cons, List.append_assoc, percentDecodeFrom_escape hoctet hpiece, ih hoctets,
      List.reverse_cons, List.append_assoc, List.singleton_append]

theorem percentDecodeFrom_itself {c : Char} (h : c ≠ '%') :
    percentDecodeFrom run (c :: rest) =
      if c.toNat < 0x80 then percentDecodeFrom (c.toNat :: run) rest
      else Utf8.decodeLossy run.reverse ++ c :: percentDecodeFrom [] rest := by
  rw [percentDecodeFrom]
  intro high low cs hc
  cases hc
  exact absurd rfl h

/-- What is decoded goes on with the text that is written, when the run so far holds whole
characters. -/
theorem percentDecodeFrom_encode {pieces : List (List Char)} {text : List Char}
    (h : List.Forall₂ WritesChar pieces text) (before : List Char) :
    percentDecodeFrom (Utf8.encode before).reverse pieces.flatten = before ++ text := by
  induction h generalizing before with
  | nil =>
    show Utf8.decodeLossy (Utf8.encode before).reverse.reverse = before ++ []
    rw [List.reverse_reverse, Utf8.decodeLossy_encode, List.append_nil]
  | @cons piece c pieces text hpiece _ ih =>
    have hnext : percentDecodeFrom ((Utf8.encodeChar c).reverse ++ (Utf8.encode before).reverse)
        pieces.flatten = before ++ c :: text := by
      rw [← List.reverse_append, ← Utf8.encode_append_singleton, ih, List.append_assoc]
      rfl
    cases hpiece with
    | itself hc =>
      show percentDecodeFrom _ (c :: pieces.flatten) = _
      rw [percentDecodeFrom_itself hc]
      split
      · next hascii =>
        have hoctets : Utf8.encodeChar c = [c.toNat] := by rw [Utf8.encodeChar, if_pos hascii]
        rw [hoctets] at hnext
        exact hnext
      · have hrest : percentDecodeFrom [] pieces.flatten = text := ih []
        rw [List.reverse_reverse, Utf8.decodeLossy_encode, hrest]
    | escapes hescapes =>
      rw [List.flatten_cons, percentDecodeFrom_escapes
        (fun octet hoctet => Utf8.lt_of_mem_encodeChar hoctet) hescapes]
      exact hnext

theorem percentDecode_of_encodes {encoded text : List Char} (h : PercentEncodes encoded text) :
    percentDecode encoded = text := by
  obtain ⟨pieces, rfl, hpieces⟩ := h
  exact percentDecodeFrom_encode hpieces []

theorem percentDecodeFrom_ne_nil {run : List Nat} {cs : List Char} (h : run ≠ [] ∨ cs ≠ []) :
    percentDecodeFrom run cs ≠ [] := by
  fun_induction percentDecodeFrom run cs with
  | case1 run => exact Utf8.decodeLossy_ne_nil (by simpa using h)
  | case2 run high low cs octet _ ih => exact ih (by simp)
  | case3 run high low cs _ ih => exact ih (by simp)
  | case4 run c cs _ _ ih => exact ih (by simp)
  | case5 run c cs => simp

/-- Only the empty text is decoded to nothing. -/
theorem percentDecode_eq_nil_iff {cs : List Char} : percentDecode cs = [] ↔ cs = [] := by
  constructor
  · intro h
    by_contra hne
    exact percentDecodeFrom_ne_nil (.inr hne) h
  · rintro rfl
    rfl

end EditorLink.Text
