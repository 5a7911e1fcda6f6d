import Mathlib.Data.List.Nodup
import EditorLink.Migration.Rule
import EditorLink.Proofs.Migration.Matching

/-!
# What rules report

`Rule.OccursIn` says of a script, without searching it, that it holds what a rule looks for: how the
script splits around the piece. A rule fires on a script just when the piece occurs in it. For the
properties of a material this means that the owner of the material never decides: what stands before
the point that ends the owner only has to leave a word start, and a point always does.
-/

namespace EditorLink.Migration

/-- A script that holds a call of a method on something. -/
def CallOccurs (name : String) (source : List Char) : Prop :=
  ∃ front ws back, Blanks ws ∧
    source = front ++ ".".toList ++ name.toList ++ ws ++ "(".toList ++ back

/-- A material's property up to the equals sign after it. -/
def IsTarget (property : MaterialProperty) (target : List Char) : Prop :=
  ∃ lead ws₁ ws₂ ws₃, (lead = [] ∨ lead = "process_".toList) ∧ Blanks ws₁ ∧ Blanks ws₂ ∧
    Blanks ws₃ ∧ target = lead ++ "material".toList ++ ws₁ ++ ".".toList ++ ws₂ ++
      property.name.toList ++ ws₃ ++ "=".toList

/-- What a rule looks for, in a script. -/
def Rule.OccursIn (source : List Char) : Rule → Prop
  | .hasProperty => CallOccurs "has_property" source
  | .setLooped => CallOccurs "set_looped" source
  | .colorAtOffset => CallOccurs "get_color_at_offset" source
  | .colorRect => ∃ front back, source = front ++ "ColorRect".toList ++ back
  | .shaderParameter => ∃ front argument ws sign back,
      argument ≠ [] ∧ ')' ∉ argument ∧ Blanks ws ∧ sign ∈ ['+', '-', '*', '/'] ∧
      source = front ++ "get_shader_parameter(".toList ++ argument ++ ")".toList ++ ws ++
        [sign] ++ back
  | .material property => ∃ front target back, WordStart front ∧ IsTarget property target ∧
      source = front ++ target ++ back

variable {source rest after before : List Char} {name : String} {property : MaterialProperty}

/-! ## Calls -/

theorem methodCall_eq_some_iff {captured : Unit} :
    methodCall name before rest = some (captured, after) ↔
      ∃ ws, Blanks ws ∧ rest = ".".toList ++ name.toList ++ ws ++ "(".toList ++ after := by
  simp only [methodCall, Option.bind_eq_bind, Option.bind_eq_some_iff, literal?_eq_some_iff,
    openParen?_eq_some_iff, Option.pure_def, Option.some_inj, Prod.mk.injEq, true_and]
  constructor
  · rintro ⟨_, rfl, _, rfl, _, ⟨ws, hws, rfl⟩, rfl⟩
    exact ⟨ws, hws, by simp⟩
  · rintro ⟨ws, hws, rfl⟩
    exact ⟨_, by simp, _, rfl, _, ⟨ws, hws, rfl⟩, rfl⟩

theorem methodCall_occurs_iff (name : String) :
    (methodCall name).occurs source ↔ CallOccurs name source := by
  rw [Pattern.occurs_iff fun before => by rfl]
  constructor
  · rintro ⟨front, captured, piece, after, rfl, hmatch⟩
    obtain ⟨ws, hws, rfl⟩ := methodCall_eq_some_iff.mp hmatch
    exact ⟨front, ws, after, hws, by simp⟩
  · rintro ⟨front, ws, back, hws, rfl⟩
    refine ⟨front, (), _, back, ?_, methodCall_eq_some_iff.mpr ⟨ws, hws, rfl⟩⟩
    simp

theorem colorRectName_occurs_iff : colorRectName.occurs source ↔
    ∃ front back, source = front ++ "ColorRect".toList ++ back := by
  rw [Pattern.occurs_iff fun before => by rfl]
  simp only [colorRectName, Option.map_eq_some_iff, literal?_eq_some_iff]
  constructor
  · rintro ⟨front, captured, piece, after, rfl, back, rfl, -⟩
    exact ⟨front, back, by simp⟩
  · rintro ⟨front, back, rfl⟩
    exact ⟨front, (), "ColorRect".toList ++ back, back, by simp, back, rfl, rfl⟩

/-! ## Arithmetic -/

theorem isArithmetic_iff (c : Char) : isArithmetic c ↔ c ∈ ['+', '-', '*', '/'] := by
  simp [isArithmetic, or_assoc]

/-- A sign after blanks. -/
theorem sign_eq_some_iff {captured : Unit} :
    (match skipBlanks rest with
      | c :: rest => if isArithmetic c then some ((), rest) else none
      | [] => none) = some (captured, after) ↔
    ∃ ws sign, Blanks ws ∧ isArithmetic sign ∧ rest = ws ++ sign :: after := by
  have hsolid : ∀ sign, isArithmetic sign → Leaves Text.isBlank (sign :: after) := by
    rintro sign hsign c ⟨⟩
    simp only [isArithmetic, Bool.or_eq_true, beq_iff_eq] at hsign
    rcases hsign with ((rfl | rfl) | rfl) | rfl <;> decide
  constructor
  · intro h
    split at h
    · next c back heq =>
      split at h
      · next hsign =>
        cases h
        obtain ⟨ws, hws, hrest⟩ := (skipBlanks_eq_iff (hsolid c hsign)).mp heq
        exact ⟨ws, c, hws, hsign, hrest⟩
      · cases h
    · cases h
  · rintro ⟨ws, sign, hws, hsign, hrest⟩
    rw [(skipBlanks_eq_iff (hsolid sign hsign)).mpr ⟨ws, hws, hrest⟩]
    exact if_pos hsign

theorem shaderArithmetic_eq_some_iff {captured : Unit} :
    shaderArithmetic before rest = some (captured, after) ↔
      ∃ argument ws sign, argument ≠ [] ∧ ')' ∉ argument ∧ Blanks ws ∧ isArithmetic sign ∧
        rest = "get_shader_parameter(".toList ++ argument ++ ")".toList ++ ws ++ [sign] ++
          after := by
  simp only [shaderArithmetic, Option.bind_eq_bind, Option.bind_eq_some_iff, Prod.exists,
    literal?_eq_some_iff, run?_eq_some_iff]
  constructor
  · rintro ⟨_, rfl, argument, _, ⟨rfl, hne, hargument, -⟩, _, rfl, hmatch⟩
    obtain ⟨ws, sign, hws, hsign, rfl⟩ := sign_eq_some_iff.mp hmatch
    refine ⟨argument, ws, sign, hne, fun hmem => ?_, hws, hsign, by simp⟩
    simpa using hargument _ hmem
  · rintro ⟨argument, ws, sign, hne, hargument, hws, hsign, rfl⟩
    refine ⟨argument ++ ")".toList ++ ws ++ [sign] ++ after, by simp, argument,
      ")".toList ++ (ws ++ sign :: after), ⟨by simp, hne, ?_, ?_⟩, _, rfl,
      sign_eq_some_iff.mpr ⟨ws, sign, hws, hsign, rfl⟩⟩
    · intro c hc
      simpa using fun heq : c = ')' => hargument (heq ▸ hc)
    · rintro c ⟨⟩
      rfl

theorem shaderArithmetic_occurs_iff : shaderArithmetic.occurs source ↔
    Rule.OccursIn source .shaderParameter := by
  rw [Pattern.occurs_iff fun before => by rfl]
  constructor
  · rintro ⟨front, captured, piece, after, rfl, hmatch⟩
    obtain ⟨argument, ws, sign, hne, hargument, hws, hsign, rfl⟩ :=
      shaderArithmetic_eq_some_iff.mp hmatch
    exact ⟨front, argument, ws, sign, after, hne, hargument, hws, (isArithmetic_iff sign).mp hsign,
      by simp⟩
  · rintro ⟨front, argument, ws, sign, back, hne, hargument, hws, hsign, rfl⟩
    refine ⟨front, (), _, back, ?_, shaderArithmetic_eq_some_iff.mpr ⟨argument, ws, sign, hne,
      hargument, hws, (isArithmetic_iff sign).mpr hsign, rfl⟩⟩
    simp

/-! ## Materials -/

theorem MaterialProperty.solid_name (property : MaterialProperty) : Solid property.name := by
  cases property <;> decide

theorem materialTarget?_eq_some_iff : materialTarget? property rest = some after ↔
    ∃ target, IsTarget property target ∧ rest = target ++ after := by
  have hname := property.solid_name
  simp only [materialTarget?, Option.bind_eq_bind, Option.bind_eq_some_iff, literal?_eq_some_iff,
    literal?_skipBlanks_eq_some_iff hname, literal?_skipBlanks_eq_some_iff (by decide : Solid "."),
    literal?_skipBlanks_eq_some_iff (by decide : Solid "=")]
  constructor
  · rintro ⟨_, hlead, _, ⟨ws₁, hws₁, rfl⟩, _, ⟨ws₂, hws₂, rfl⟩, ws₃, hws₃, rfl⟩
    cases hprocess : literal? "process_" rest with
    | none =>
      rw [hprocess, Option.getD_none] at hlead
      subst hlead
      exact ⟨_, ⟨[], ws₁, ws₂, ws₃, .inl rfl, hws₁, hws₂, hws₃, rfl⟩, by simp⟩
    | some others =>
      rw [hprocess, Option.getD_some] at hlead
      subst hlead
      obtain rfl := literal?_eq_some_iff.mp hprocess
      exact ⟨_, ⟨_, ws₁, ws₂, ws₃, .inr rfl, hws₁, hws₂, hws₃, rfl⟩, by simp⟩
  · rintro ⟨target, ⟨lead, ws₁, ws₂, ws₃, hlead, hws₁, hws₂, hws₃, rfl⟩, rfl⟩
    refine ⟨_, ?_, _, ⟨ws₁, hws₁, rfl⟩, _, ⟨ws₂, hws₂, rfl⟩, ws₃, hws₃, rfl⟩
    rcases hlead with rfl | rfl
    · have hnone : ∀ others, literal? "process_" ("material".toList ++ others) = none :=
        fun _ => rfl
      simp only [List.nil_append, List.append_assoc, hnone, Option.getD_none]
    · have hsome : ∀ others, literal? "process_" ("process_".toList ++ others) = some others :=
        fun _ => rfl
      simp only [List.append_assoc, hsome, Option.getD_some]

theorem ownedTarget?_eq_some_iff {owner : List Char} :
    ownedTarget? property rest = some (owner, after) ↔
      ∃ target, owner ≠ [] ∧ (∀ c ∈ owner, Text.isWord c) ∧ IsTarget property target ∧
        rest = owner ++ ".".toList ++ target ++ after := by
  simp only [ownedTarget?, Option.bind_eq_bind, Option.bind_eq_some_iff, Prod.exists,
    word?_eq_some_iff, literal?_eq_some_iff, materialTarget?_eq_some_iff, Option.pure_def,
    Option.some_inj, Prod.mk.injEq]
  constructor
  · rintro ⟨_, _, ⟨rfl, hne, hword, -⟩, _, rfl, _, ⟨target, htarget, rfl⟩, rfl, rfl⟩
    exact ⟨target, hne, hword, htarget, by simp⟩
  · rintro ⟨target, hne, hword, htarget, rfl⟩
    refine ⟨owner, _, ⟨by simp, hne, hword, ?_⟩, _, rfl, after, ⟨target, htarget, rfl⟩, rfl, rfl⟩
    rintro c ⟨⟩
    decide

/-- A point ends no word. -/
theorem wordStart_append_point (front : List Char) : WordStart (front ++ ".".toList) := by
  intro c hc
  rw [List.getLast?_append] at hc
  obtain rfl : '.' = c := Option.some.inj hc
  decide

theorem materialAssignment_isSome_iff {front piece : List Char} :
    (materialAssignment property front.reverse piece).isSome ↔
      (ownedTarget? property piece).isSome ∨
        WordStart front ∧ (materialTarget? property piece).isSome := by
  unfold materialAssignment
  cases ownedTarget? property piece with
  | some owned => simp
  | none =>
    rw [← atWordStart_reverse]
    cases atWordStart front.reverse <;> simp

theorem materialAssignment_occurs_iff : (materialAssignment property).occurs source ↔
    Rule.OccursIn source (.material property) := by
  rw [Pattern.occurs_iff_isSome fun before => ite_self none]
  constructor
  · rintro ⟨front, piece, rfl, hmatch⟩
    rcases materialAssignment_isSome_iff.mp hmatch with howned | ⟨hstart, hfound⟩
    · obtain ⟨⟨owner, after⟩, howned⟩ := Option.isSome_iff_exists.mp howned
      obtain ⟨target, -, -, htarget, rfl⟩ := ownedTarget?_eq_some_iff.mp howned
      refine ⟨front ++ owner ++ ".".toList, target, after, ?_, htarget, by simp⟩
      exact wordStart_append_point (front ++ owner)
    · obtain ⟨after, hafter⟩ := Option.isSome_iff_exists.mp hfound
      obtain ⟨target, htarget, rfl⟩ := materialTarget?_eq_some_iff.mp hafter
      exact ⟨front, target, after, hstart, htarget, by simp⟩
  · rintro ⟨front, target, back, hstart, htarget, rfl⟩
    refine ⟨front, target ++ back, by simp, materialAssignment_isSome_iff.mpr (.inr ⟨hstart, ?_⟩)⟩
    rw [materialTarget?_eq_some_iff.mpr ⟨target, htarget, rfl⟩]
    rfl

/-! ## Rules -/

theorem Rule.fires_iff (rule : Rule) : rule.fires source ↔ rule.OccursIn source := by
  cases rule with
  | hasProperty => exact methodCall_occurs_iff "has_property"
  | setLooped => exact methodCall_occurs_iff "set_looped"
  | colorAtOffset => exact methodCall_occurs_iff "get_color_at_offset"
  | colorRect => exact colorRectName_occurs_iff
  | shaderParameter => exact shaderArithmetic_occurs_iff
  | material property => exact materialAssignment_occurs_iff

theorem Rule.mem_all (rule : Rule) : rule ∈ Rule.all := by
  cases rule with
  | material property => cases property <;> decide
  | _ => decide

theorem Rule.nodup_changes : (Rule.all.map Rule.change).Nodup := by decide

theorem mem_reportedChanges {change : ApiChange} : change ∈ reportedChanges source ↔
    ∃ rule : Rule, rule.OccursIn source ∧ rule.change = change := by
  simp only [reportedChanges, List.mem_map, List.mem_filter, Rule.fires_iff, Rule.mem_all, true_and]

/-- The changes reported for a script are those whose piece occurs in it, in the order of the rules
and each once. -/
theorem reportedChanges_spec (source : List Char) :
    (∀ rule : Rule, rule.change ∈ reportedChanges source ↔ rule.OccursIn source) ∧
      (reportedChanges source).Sublist (Rule.all.map Rule.change) ∧
      (reportedChanges source).Nodup := by
  have hsublist : (reportedChanges source).Sublist (Rule.all.map Rule.change) :=
    (List.filter_sublist).map _
  refine ⟨fun rule => ?_, hsublist, Rule.nodup_changes.sublist hsublist⟩
  rw [mem_reportedChanges]
  constructor
  · rintro ⟨other, hother, hchange⟩
    have hinj := List.inj_on_of_nodup_map Rule.nodup_changes
    rwa [← hinj (Rule.mem_all other) (Rule.mem_all rule) hchange]
  · exact fun h => ⟨rule, h, rfl⟩

end EditorLink.Migration
