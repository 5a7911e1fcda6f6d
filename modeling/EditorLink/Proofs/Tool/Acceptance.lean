import EditorLink.Exchange.Fault
import EditorLink.Tool.Schema

/-!
# Accepted arguments

A schema accepts arguments exactly when every required one is there and every one that it knows is
a value of its kind. So a tool may rely on both and need not look again.
-/

namespace EditorLink.Tool

/-- The values that a property of a kind takes. -/
inductive PropertyKind.Admits : PropertyKind → Value → Prop
  | anything (value : Value) : Admits .anything value
  | text (s : String) : Admits .text (.str s)
  | choice {options : List String} {s : String} (h : s ∈ options) : Admits (.choice options) (.str s)
  | flag (b : Bool) : Admits .flag (.bool b)
  | object (fields : Fields) : Admits .object (.obj fields)
  | textList (items : List String) : Admits .textList (.strings items)

namespace PropertyKind

variable {kind : PropertyKind} {value : Value}

theorem isText_iff : isText value ↔ ∃ s, value = .str s := by
  cases value <;> simp [isText]

theorem itemViolation?_textList_eq_none {items : List Value} :
    itemViolation? .textList (.arr items) = none ↔ ∃ texts : List String, items = texts.map .str := by
  simp only [itemViolation?, Option.map_eq_none_iff, List.find?_eq_none, List.mem_reverse,
    Bool.not_eq_true', Bool.not_eq_false, isText_iff]
  constructor
  · intro hall
    induction items with
    | nil => exact ⟨[], rfl⟩
    | cons item items ih =>
      obtain ⟨⟨s, rfl⟩, hrest⟩ := List.forall_mem_cons.mp hall
      obtain ⟨texts, rfl⟩ := ih hrest
      exact ⟨s :: texts, rfl⟩
  · rintro ⟨texts, rfl⟩ item hitem
    obtain ⟨s, -, rfl⟩ := List.mem_map.mp hitem
    exact ⟨s, rfl⟩

/-- A value is admitted when neither it nor, in a list, an item of it is wrong. -/
theorem admits_iff :
    kind.Admits value ↔ kind.violation? value = none ∧ kind.itemViolation? value = none := by
  constructor
  · intro h
    cases h with
    | anything => exact ⟨rfl, rfl⟩
    | text => exact ⟨rfl, rfl⟩
    | choice hmem => exact ⟨if_pos hmem, rfl⟩
    | flag => exact ⟨rfl, rfl⟩
    | object => exact ⟨rfl, rfl⟩
    | textList items => exact ⟨rfl, itemViolation?_textList_eq_none.mpr ⟨items, rfl⟩⟩
  · rintro ⟨hvalue, hitems⟩
    cases kind with
    | anything => exact .anything value
    | textList =>
      cases value with
      | arr items =>
        obtain ⟨texts, rfl⟩ := itemViolation?_textList_eq_none.mp hitems
        exact .textList texts
      | _ => cases hvalue
    | choice options =>
      cases value with
      | str s =>
        by_cases hmem : s ∈ options
        · exact .choice hmem
        · simp [violation?, hmem] at hvalue
      | _ => cases hvalue
    | text => cases value with | str s => exact .text s | _ => cases hvalue
    | flag => cases value with | bool b => exact .flag b | _ => cases hvalue
    | object => cases value with | obj fields => exact .object fields | _ => cases hvalue

theorem Admits.eq_str (h : PropertyKind.text.Admits value) : ∃ s, value = .str s := by
  cases h with
  | text s => exact ⟨s, rfl⟩

theorem Admits.eq_offered {options : List String} (h : (PropertyKind.choice options).Admits value) :
    ∃ s ∈ options, value = .str s := by
  cases h with
  | choice hmem => exact ⟨_, hmem, rfl⟩

theorem Admits.eq_strings (h : PropertyKind.textList.Admits value) : ∃ items, value = .strings items := by
  cases h with
  | textList items => exact ⟨items, rfl⟩

end PropertyKind

namespace Schema

variable {schema : Schema} {arguments : Fields}

/-- A fold that always finds something finds nothing in the empty list only. -/
theorem foldl_eq_none {α β : Type} {f : Option β → α → Option β} (hf : ∀ worst found,
    f worst found ≠ none) (items : List α) : items.foldl f none = none ↔ items = [] := by
  rcases List.eq_nil_or_concat items with rfl | ⟨before, last, rfl⟩
  · simp
  · simp [List.concat_eq_append, hf]

theorem wrongArgument?_eq_none {look : PropertyKind → Value → Option Violation} :
    schema.wrongArgument? arguments look = none ↔ ∀ property ∈ schema.properties,
      ∀ value, arguments.get? property.name = some value → look property.kind value = none := by
  rw [wrongArgument?, Option.map_eq_none_iff, foldl_eq_none]
  · simp only [List.filterMap_eq_nil_iff, Option.bind_eq_bind, Option.pure_def,
      Option.bind_eq_none_iff, reduceCtorEq, imp_false, ← Option.eq_none_iff_forall_ne_some]
  · intro worst found
    cases worst with
    | none => simp
    | some worst => dsimp only; split <;> simp

theorem find?_missing_eq_none :
    (schema.required.find? fun key => (Fields.get? arguments key).isNone) = none ↔
      ∀ key ∈ schema.required, ∃ value, arguments.get? key = some value := by
  simp [Option.ne_none_iff_exists']

/-- Arguments are accepted when all required ones are there and all that the schema knows are of
their kind. -/
theorem accepts_iff : schema.accepts arguments ↔
    (∀ key ∈ schema.required, ∃ value, arguments.get? key = some value) ∧
      ∀ property ∈ schema.properties, ∀ value, arguments.get? property.name = some value →
        property.kind.Admits value := by
  simp only [accepts, violation?, Option.isNone_iff_eq_none, Option.orElse_eq_or, Option.or_eq_none_iff,
    Option.map_eq_none_iff, find?_missing_eq_none, wrongArgument?_eq_none,
    PropertyKind.admits_iff]
  grind

variable {property : Property}

/-- An accepted argument that the schema knows is left out or of its kind. -/
theorem getOrNull_of_accepts (h : schema.accepts arguments) (hmem : property ∈ schema.properties) :
    arguments.getOrNull property.name = .null ∨
      property.kind.Admits (arguments.getOrNull property.name) := by
  rw [Fields.getOrNull]
  cases hvalue : arguments.get? property.name with
  | none => exact .inl rfl
  | some value => exact .inr ((accepts_iff.mp h).2 property hmem value hvalue)

/-- A required argument that the schema knows is there and of its kind. -/
theorem argument_of_accepts (h : schema.accepts arguments) (hmem : property ∈ schema.properties)
    (hrequired : property.name ∈ schema.required) : ∃ value,
      arguments.argument property.name = .ok value ∧ property.kind.Admits value := by
  obtain ⟨value, hvalue⟩ := (accepts_iff.mp h).1 property.name hrequired
  refine ⟨value, ?_, (accepts_iff.mp h).2 property hmem value hvalue⟩
  rw [Fields.argument, hvalue]

end Schema

end EditorLink.Tool
