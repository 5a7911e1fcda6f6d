import Mathlib.Data.List.Forall2
import EditorLink.Json.Reader
import EditorLink.Json.Writer

/-!
# Spelled values

Which texts are JSON, and what value each stands for, said without the reader or the writer. Of the
numbers only the whole ones are covered. What the writer makes of a value without doubles is JSON
for that value, in every layout that breaks lines with blanks.
-/

namespace EditorLink

/-- A value without doubles, whose lists and objects stand at most so deep inside each other. -/
inductive Value.Plain : Nat → Value → Prop
  | null {depth : Nat} : Plain depth .null
  | bool {depth : Nat} (b : Bool) : Plain depth (.bool b)
  | int {depth : Nat} (n : Int) : Plain depth (.num (.int n))
  | str {depth : Nat} (s : String) : Plain depth (.str s)
  | arr {depth : Nat} {items : List Value} (h : ∀ item ∈ items, Plain depth item) :
    Plain (depth + 1) (.arr items)
  | obj {depth : Nat} {fields : List (String × Value)}
    (h : ∀ field ∈ fields, Plain depth field.2) : Plain (depth + 1) (.obj fields)

namespace Value

variable {depth : Nat}

@[simp] theorem plain_null : Value.null.Plain depth := .null

@[simp] theorem plain_bool (b : Bool) : (Value.bool b).Plain depth := .bool b

@[simp] theorem plain_int (n : Int) : (Value.int n).Plain depth := .int n

@[simp] theorem plain_str (s : String) : (Value.str s).Plain depth := .str s

@[simp] theorem plain_arr_iff {items : List Value} :
    (Value.arr items).Plain (depth + 1) ↔ ∀ item ∈ items, item.Plain depth :=
  ⟨fun h => by cases h with | arr h => exact h, .arr⟩

@[simp] theorem plain_obj_iff {fields : Fields} :
    (Value.obj fields).Plain (depth + 1) ↔ ∀ field ∈ fields, field.2.Plain depth :=
  ⟨fun h => by cases h with | obj h => exact h, .obj⟩

@[simp] theorem plain_strings (items : List String) : (Value.strings items).Plain (depth + 1) := by
  simp [Value.strings]

@[simp] theorem plain_ofOption {α : Type} {f : α → Value} (h : ∀ a, (f a).Plain depth)
    (option : Option α) : (Value.ofOption f option).Plain depth := by
  cases option with
  | none => exact .null
  | some a => exact h a

theorem nestingOfItems_le {items : List Value} (h : ∀ item ∈ items, item.nesting ≤ depth) :
    nestingOfItems items ≤ depth := by
  induction items with
  | nil => exact Nat.zero_le depth
  | cons item items ih =>
    obtain ⟨hitem, hitems⟩ := List.forall_mem_cons.mp h
    exact Nat.max_le.mpr ⟨hitem, ih hitems⟩

theorem nestingOfFields_le {fields : Fields} (h : ∀ field ∈ fields, field.2.nesting ≤ depth) :
    nestingOfFields fields ≤ depth := by
  induction fields with
  | nil => exact Nat.zero_le depth
  | cons field fields ih =>
    obtain ⟨hfield, hfields⟩ := List.forall_mem_cons.mp h
    exact Nat.max_le.mpr ⟨hfield, ih hfields⟩

theorem Plain.nesting_le {value : Value} (h : value.Plain depth) : value.nesting ≤ depth := by
  induction h with
  | arr h ih => exact Nat.succ_le_succ (nestingOfItems_le ih)
  | obj h ih => exact Nat.succ_le_succ (nestingOfFields_le ih)
  | _ => exact Nat.zero_le _

end Value

namespace Json

def Blanks (cs : List Char) : Prop := ∀ c ∈ cs, isSpace c

theorem blanks_nil : Blanks [] := List.forall_mem_nil _

theorem Blanks.append {cs ds : List Char} (hcs : Blanks cs) (hds : Blanks ds) :
    Blanks (cs ++ ds) :=
  List.forall_mem_append.mpr ⟨hcs, hds⟩

theorem blanks_singleton : Blanks [' '] := List.forall_mem_singleton.mpr rfl

/-! ## Strings -/

/-- The number that hexadecimal digits stand for. -/
def hexValue? (cs : List Char) : Option Nat :=
  cs.foldlM (fun value c => (Text.hexDigit? c).map (16 * value + ·)) 0

/-- Four hexadecimal digits stand for a UTF-16 code unit. -/
def SpellsUnit (cs : List Char) (unit : Nat) : Prop := cs.length = 4 ∧ hexValue? cs = some unit

/-- The ways to write one character of a string. -/
inductive SpellsChar : List Char → Char → Prop
  | plain {c : Char} (hcontrol : 0x20 ≤ c.toNat) (hquote : c ≠ '"') (hslash : c ≠ '\\') :
    SpellsChar [c] c
  | escape {e c : Char} (h : simpleEscape? e = some c) : SpellsChar ['\\', e] c
  | unit {digits : List Char} {c : Char} (h : SpellsUnit digits c.toNat) :
    SpellsChar ('\\' :: 'u' :: digits) c
  | pair {digits digits' : List Char} {high low : Nat} {c : Char} (hhigh : isHighSurrogate high)
    (hlow : isLowSurrogate low) (h : SpellsUnit digits high) (h' : SpellsUnit digits' low)
    (hc : c.toNat = 0x10000 + (high - 0xD800) * 0x400 + (low - 0xDC00)) :
    SpellsChar ('\\' :: 'u' :: digits ++ '\\' :: 'u' :: digits') c

def SpellsString (cs : List Char) (s : String) : Prop :=
  ∃ pieces, cs = '"' :: pieces.flatten ++ ['"'] ∧ List.Forall₂ SpellsChar pieces s.toList

/-! ## Whole numbers -/

/-- Decimal digits stand for a number; only a zero alone begins with a zero. -/
structure SpellsNat (cs : List Char) (n : Nat) : Prop where
  nonempty : cs ≠ []
  digits : ∀ c ∈ cs, c.isDigit
  lead : cs.head? = some '0' → cs = ['0']
  value : digitsValue cs = n

inductive SpellsInt : List Char → Int → Prop
  | natural {cs : List Char} {n : Nat} (h : SpellsNat cs n) : SpellsInt cs n
  | negative {cs : List Char} {n : Nat} (h : SpellsNat cs n) : SpellsInt ('-' :: cs) (-n)

/-! ## Values -/

/-- A key with blanks around it. -/
def SpellsKey (cs : List Char) (key : String) : Prop :=
  ∃ before spelled after, cs = before ++ spelled ++ after ∧ Blanks before ∧ Blanks after ∧
    SpellsString spelled key

mutual

/-- A text is JSON for a value. -/
inductive Spells : List Char → Value → Prop
  | null : Spells "null".toList .null
  | true : Spells "true".toList (.bool true)
  | false : Spells "false".toList (.bool false)
  | int {cs : List Char} {n : Int} (h : SpellsInt cs n) : Spells cs (.num (.int n))
  | str {cs : List Char} {s : String} (h : SpellsString cs s) : Spells cs (.str s)
  | emptyArr {blanks : List Char} (h : Blanks blanks) : Spells ('[' :: blanks ++ [']']) (.arr [])
  | arr {cs : List Char} {items : List Value} (h : SpellsItems cs items) :
    Spells ('[' :: cs ++ [']']) (.arr items)
  | emptyObj {blanks : List Char} (h : Blanks blanks) : Spells ('{' :: blanks ++ ['}']) (.obj [])
  | obj {cs : List Char} {fields : List (String × Value)} (h : SpellsFields cs fields) :
    Spells ('{' :: cs ++ ['}']) (.obj fields)
  | padded {before cs after : List Char} {value : Value} (hbefore : Blanks before)
    (hafter : Blanks after) (h : Spells cs value) : Spells (before ++ cs ++ after) value

/-- Values with commas between them. -/
inductive SpellsItems : List Char → List Value → Prop
  | one {cs : List Char} {item : Value} (h : Spells cs item) : SpellsItems cs [item]
  | more {cs rest : List Char} {item : Value} {items : List Value} (h : Spells cs item)
    (hrest : SpellsItems rest items) : SpellsItems (cs ++ ',' :: rest) (item :: items)

/-- Keys and values, with colons and commas between them. -/
inductive SpellsFields : List Char → List (String × Value) → Prop
  | one {spelled cs : List Char} {key : String} {item : Value} (hkey : SpellsKey spelled key)
    (h : Spells cs item) : SpellsFields (spelled ++ ':' :: cs) [(key, item)]
  | more {spelled cs rest : List Char} {key : String} {item : Value}
    {fields : List (String × Value)} (hkey : SpellsKey spelled key) (h : Spells cs item)
    (hrest : SpellsFields rest fields) :
    SpellsFields (spelled ++ ':' :: cs ++ ',' :: rest) ((key, item) :: fields)

end

/-! ## Written strings -/

theorem hexDigit?_hexChar : ∀ n < 16, Text.hexDigit? (Text.hexChar n) = some n := by decide

theorem hexValue?_hexDigits (width n : Nat) :
    hexValue? (Text.hexDigits width n) = some (n % Nat.pow 16 width) := by
  induction width generalizing n with
  | zero => exact congrArg some (Nat.mod_one n).symm
  | succ width ih =>
    have hdigit := hexDigit?_hexChar (n % 16) (Nat.mod_lt n (by decide))
    have hpow : Nat.pow 16 (width + 1) = 16 * Nat.pow 16 width := Nat.mul_comm _ _
    unfold hexValue? at ih ⊢
    rw [Text.hexDigits, List.foldlM_append, ih, hpow, Nat.mod_mul, Nat.add_comm]
    simp [hdigit]

theorem spellsUnit_hexDigits {unit : Nat} (h : unit < 0x10000) :
    SpellsUnit (Text.hexDigits 4 unit) unit := by
  have hvalue : hexValue? (Text.hexDigits 4 unit) = some (unit % 0x10000) :=
    hexValue?_hexDigits 4 unit
  rw [Nat.mod_eq_of_lt h] at hvalue
  exact ⟨Text.length_hexDigits 4 unit, hvalue⟩

/-- A character outside the first plane is written as two code units. -/
theorem spellsChar_pair {c : Char} (h : 0x10000 ≤ c.toNat) :
    SpellsChar (unitEscape (0xD800 + (c.toNat - 0x10000) / 0x400) ++
      unitEscape (0xDC00 + (c.toNat - 0x10000) % 0x400)) c := by
  have hvalid : c.toNat < 0x110000 := by
    have := c.valid
    simp only [UInt32.isValidChar, Nat.isValidChar] at this
    change c.val.toNat < _
    omega
  refine .pair ?_ ?_ (spellsUnit_hexDigits ?_) (spellsUnit_hexDigits ?_) ?_
  · simp only [isHighSurrogate, Bool.and_eq_true, decide_eq_true_eq]
    omega
  · simp only [isLowSurrogate, Bool.and_eq_true, decide_eq_true_eq]
    omega
  · omega
  · omega
  · omega

theorem spellsChar_escapedChar (c : Char) : SpellsChar (escapedChar c) c := by
  unfold escapedChar
  split
  · next h => exact .escape (by rcases h with rfl | rfl <;> rfl)
  split
  · next h => exact .escape (by subst h; rfl)
  split
  · next h => exact .escape (by subst h; rfl)
  split
  · next h => exact .escape (by subst h; rfl)
  split
  · next h => exact .escape (by subst h; rfl)
  split
  · next h => exact .escape (by subst h; rfl)
  · next hquoted _ _ _ _ _ =>
    dsimp only
    split
    · next hprintable =>
      exact .plain hprintable.1 (fun h => hquoted (.inl h)) fun h => hquoted (.inr h)
    split
    · next hunit => exact .unit (spellsUnit_hexDigits hunit)
    · next hlarge => exact spellsChar_pair (Nat.le_of_not_lt hlarge)

theorem spellsString_stringText (s : String) : SpellsString (stringText s).toList s := by
  refine ⟨s.toList.map escapedChar, ?_, ?_⟩
  · simp [stringText, List.flatMap]
  · rw [List.forall₂_map_left_iff]
    exact List.forall₂_same.mpr fun c _ => spellsChar_escapedChar c

/-! ## Written numbers -/

theorem digitsValue_append_singleton (cs : List Char) (c : Char) :
    digitsValue (cs ++ [c]) = digitsValue cs * 10 + (c.toNat - 48) := by
  rw [digitsValue, List.foldl_append]
  rfl

theorem digitsValue_toDigits (n : Nat) : digitsValue (Nat.toDigits 10 n) = n := by
  induction n using Nat.strongRecOn with
  | ind n ih =>
    by_cases hn : n < 10
    · simp [Nat.toDigits_of_lt_base hn, digitsValue, Nat.toNat_digitChar_of_lt_ten hn]
    · rw [Nat.toDigits_of_base_le (by decide) (Nat.le_of_not_lt hn), digitsValue_append_singleton,
        ih (n / 10) (by omega), Nat.toNat_digitChar_of_lt_ten (Nat.mod_lt n (by decide))]
      omega

theorem head?_toDigits_ne {n : Nat} (h : n ≠ 0) : (Nat.toDigits 10 n).head? ≠ some '0' := by
  induction n using Nat.strongRecOn with
  | ind n ih =>
    by_cases hn : n < 10
    · rw [Nat.toDigits_of_lt_base hn, List.head?_cons, ne_eq, Option.some.injEq]
      intro hchar
      have hcode := Nat.toNat_digitChar_of_lt_ten hn
      rw [hchar] at hcode
      change 48 = 48 + n at hcode
      omega
    · rw [Nat.toDigits_of_base_le (by decide) (Nat.le_of_not_lt hn),
        List.head?_append_of_ne_nil _ Nat.toDigits_ne_nil]
      exact ih (n / 10) (by omega) (by omega)

theorem spellsNat_toDigits (n : Nat) : SpellsNat (Nat.toDigits 10 n) n where
  nonempty := Nat.toDigits_ne_nil
  digits _ hc := Nat.isDigit_of_mem_toDigits (by decide) (by decide) hc
  lead hlead := by
    by_cases hn : n = 0
    · rw [hn]
      rfl
    · exact absurd hlead (head?_toDigits_ne hn)
  value := digitsValue_toDigits n

theorem spellsInt_intText (n : Int) : SpellsInt (intText n).toList n := by
  rw [intText, Int.toString_eq_repr, Int.repr_eq_if]
  split
  · next h =>
    have hspelled := SpellsInt.natural (spellsNat_toDigits n.toNat)
    rw [Int.toNat_of_nonneg h] at hspelled
    simpa [Nat.repr_eq_ofList_toDigits] using hspelled
  · next h =>
    have hspelled := SpellsInt.negative (spellsNat_toDigits (-n).toNat)
    rw [Int.toNat_of_nonneg (by omega), Int.neg_neg] at hspelled
    simpa [Nat.repr_eq_ofList_toDigits] using hspelled

/-! ## Written values -/

/-- What a layout puts between the items are blanks, and one comma. -/
structure LawfulLayout (layout : JsonLayout) : Prop where
  lineBreak : ∀ level, Blanks (layout.lineBreak level).toList
  comma : ∃ blanks, layout.comma.toList = ',' :: blanks ∧ Blanks blanks

theorem lawful_indented : LawfulLayout .indented where
  lineBreak level := by simp [JsonLayout.indented, Blanks, isSpace]
  comma := ⟨[], rfl, blanks_nil⟩

variable {layout : JsonLayout} {level : Nat} {before after : List Char}

theorem spellsItems_write (hlayout : LawfulLayout layout) (hbefore : Blanks before)
    (hafter : Blanks after) {item : Value} {items : List Value}
    (h : ∀ each ∈ item :: items, Spells (each.write layout level).toList each) :
    SpellsItems (before ++ (item.write layout level ++ Value.writeItems layout level items).toList ++
      after) (item :: items) := by
  obtain ⟨blanks, hcomma, hblanks⟩ := hlayout.comma
  induction items generalizing before item with
  | nil =>
    rw [List.forall_mem_singleton] at h
    simpa [Value.writeItems] using SpellsItems.one (.padded hbefore hafter h)
  | cons next items ih =>
    obtain ⟨hitem, hrest⟩ := List.forall_mem_cons.mp h
    have hmore := SpellsItems.more (.padded hbefore blanks_nil hitem)
      (ih (hblanks.append (hlayout.lineBreak level)) hrest)
    simpa [Value.writeItems, hcomma] using hmore

theorem spellsKey_stringText (hbefore : Blanks before) (key : String) :
    SpellsKey (before ++ (stringText key).toList) key :=
  ⟨before, _, [], (List.append_nil _).symm, hbefore, blanks_nil, spellsString_stringText key⟩

theorem spellsFields_write (hlayout : LawfulLayout layout) (hbefore : Blanks before)
    (hafter : Blanks after) {key : String} {item : Value} {fields : List (String × Value)}
    (h : ∀ field ∈ (key, item) :: fields, Spells (field.2.write layout level).toList field.2) :
    SpellsFields (before ++ (stringText key ++ ": " ++ item.write layout level ++
      Value.writeFields layout level fields).toList ++ after) ((key, item) :: fields) := by
  obtain ⟨blanks, hcomma, hblanks⟩ := hlayout.comma
  induction fields generalizing before key item with
  | nil =>
    rw [List.forall_mem_singleton] at h
    have hone := SpellsFields.one (spellsKey_stringText hbefore key)
      (.padded blanks_singleton hafter h)
    simpa [Value.writeFields] using hone
  | cons next fields ih =>
    obtain ⟨hitem, hrest⟩ := List.forall_mem_cons.mp h
    have hmore := SpellsFields.more (spellsKey_stringText hbefore key)
      (.padded blanks_singleton blanks_nil hitem)
      (ih (hblanks.append (hlayout.lineBreak level)) hrest)
    simpa [Value.writeFields, hcomma] using hmore

/-- What is written for a value without doubles is JSON for it. -/
theorem spells_write (hlayout : LawfulLayout layout) {value : Value} {depth : Nat}
    (h : value.Plain depth) (level : Nat) : Spells (value.write layout level).toList value := by
  induction h generalizing level with
  | null => exact .null
  | bool b => cases b with
    | true => exact .true
    | false => exact .false
  | int n => exact .int (spellsInt_intText n)
  | str s => exact .str (spellsString_stringText s)
  | @arr depth items h ih =>
    cases items with
    | nil =>
      rw [Value.write]
      exact .emptyArr blanks_nil
    | cons item items =>
      have hitems := Spells.arr (spellsItems_write hlayout (hlayout.lineBreak (level + 1))
        (hlayout.lineBreak level) fun each hmem => ih each hmem (level + 1))
      simpa [Value.write] using hitems
  | @obj depth fields h ih =>
    cases fields with
    | nil =>
      rw [Value.write]
      exact .emptyObj blanks_nil
    | cons field fields =>
      have hfields := Spells.obj (spellsFields_write hlayout (hlayout.lineBreak (level + 1))
        (hlayout.lineBreak level) fun each hmem => ih each hmem (level + 1))
      simpa [Value.write] using hfields

end Json

end EditorLink
