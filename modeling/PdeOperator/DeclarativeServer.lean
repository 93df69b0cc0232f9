import PdeOperator.DeclarativeEngine

/-! What the server makes of a map of values for a contract with distinct names and conditions that it can
read: the flags of the fields and the values that they submit, in closed form. -/

namespace PdeOperator
open Base

namespace Declarative

/-- What an expression comes to over the texts of the fields. -/
def Rsql.outcome (expression : Option Text) (text : Text → Text) : Bool :=
  match expression with
  | none => false
  | some expression =>
      if Text.isBlank expression then false
      else match parse Text.isSpace expression with
        | none => false
        | some condition => condition.holds text

/-- Only the mentioned fields count. -/
theorem Rsql.outcome_congr {expression : Option Text} {text text' : Text → Text}
    (h : ∀ name ∈ mentions expression, text name = text' name) :
    outcome expression text = outcome expression text' := by
  cases expression with
  | none => rfl
  | some expression =>
      simp only [outcome]
      split
      · rfl
      · cases hparse : parse Text.isSpace expression with
        | none => rfl
        | some condition =>
            refine Condition.holds_congr fun name hname => h name ?_
            simpa [mentions, hparse] using hname

/-- The flags of a field over the texts of all fields. -/
def FieldSpec.flagsOf (field : FieldSpec) (text : Text → Text) : Flags where
  visible := !(field.hidden || Rsql.outcome field.hideCondition text)
  required := !(field.hidden || Rsql.outcome field.hideCondition text) &&
    (field.required || Rsql.outcome field.requiredCondition text)

/-- An expression that is missing, blank or matches. -/
def Rsql.IsWellFormed (expression : Option Text) : Prop :=
  ∀ text, expression = some text →
    Text.isBlank text = true ∨ (parse Text.isSpace text).isSome = true

/-- A contract whose fields have distinct names and conditions that can be read. -/
structure DeclarativeRunTemplate.WellFormed (contract : DeclarativeRunTemplate) : Prop where
  names : (contract.fields.map FieldSpec.name).Nodup
  conditions : ∀ field ∈ contract.fields,
    Rsql.IsWellFormed field.hideCondition ∧ Rsql.IsWellFormed field.requiredCondition

section Server

variable {lib : EngineLibrary} {contract : DeclarativeRunTemplate} {values : JsonObject}

variable (lib contract values) in
/-- The text of a name in the conditions of the server. -/
def serverText (name : Text) : Text :=
  Rsql.normalize lib (Rsql.getValue (resolveValues contract.fieldsByName values) name)

theorem rsqlEvaluate_eq {expression : Option Text} (h : Rsql.IsWellFormed expression) :
    Rsql.evaluate lib expression (resolveValues contract.fieldsByName values) =
      .ok (Rsql.outcome expression (serverText lib contract values)) := by
  cases expression with
  | none => rfl
  | some expression =>
      simp only [Rsql.evaluate, Rsql.outcome]
      split
      · rfl
      · next hblank =>
        obtain ⟨condition, hparse⟩ := Option.isSome_iff_exists.mp ((h _ rfl).resolve_left hblank)
        rw [hparse]
        rfl

theorem fieldFlags_eq {field : FieldSpec} (hhide : Rsql.IsWellFormed field.hideCondition)
    (hrequire : Rsql.IsWellFormed field.requiredCondition) :
    fieldFlags lib (resolveValues contract.fieldsByName values) field =
      .ok (field.flagsOf (serverText lib contract values)) := by
  unfold fieldFlags FieldSpec.flagsOf
  rw [rsqlEvaluate_eq hhide, rsqlEvaluate_eq hrequire]
  cases field.hidden with
  | true => rfl
  | false =>
      cases Rsql.outcome field.hideCondition (serverText lib contract values) with
      | true => rfl
      | false => cases field.required <;> rfl

theorem fieldsByName_eq (hnodup : (contract.fields.map FieldSpec.name).Nodup) :
    contract.fieldsByName = contract.fields.map fun field => (field.name, field) := by
  refine Dict.ofPairs_of_nodup ?_
  rw [List.map_map]
  exact hnodup

/-- On such a contract the server evaluates all conditions. -/
theorem evaluate_eq (hcontract : contract.WellFormed) :
    evaluate lib contract values = .ok
      { fields := contract.fieldsByName
        flags := contract.fieldsByName.map fun entry =>
          (entry.1, entry.2.flagsOf (serverText lib contract values))
        resolvedValues := resolveValues contract.fieldsByName values } := by
  refine bind_eq_ok.mpr ⟨_, mapM_ok_of_forall fun entry hentry => ?_, rfl⟩
  obtain ⟨name, field⟩ := entry
  obtain ⟨hfield, rfl⟩ := (mem_fieldsByName_iff hcontract.names).mp hentry
  obtain ⟨hhide, hrequire⟩ := hcontract.conditions field hfield
  rw [fieldFlags_eq hhide hrequire]
  rfl

theorem effective_flags {effective : EffectiveFormState} (hcontract : contract.WellFormed)
    (h : evaluate lib contract values = .ok effective) {field : FieldSpec}
    (hfield : field ∈ contract.fields) :
    effective.visible field.name = (field.flagsOf (serverText lib contract values)).visible ∧
      effective.required field.name = (field.flagsOf (serverText lib contract values)).required := by
  obtain ⟨hhide, hrequire⟩ := hcontract.conditions field hfield
  obtain ⟨flags, hflags, hlookup⟩ :=
    lookup_flags h ((mem_fieldsByName_iff hcontract.names).mpr ⟨hfield, rfl⟩)
  rw [evaluate_resolvedValues h, fieldFlags_eq hhide hrequire] at hflags
  obtain rfl := Except.ok.inj hflags
  rw [EffectiveFormState.visible, EffectiveFormState.required, hlookup]
  exact ⟨rfl, rfl⟩

theorem getValue_eq (hcontract : contract.WellFormed) {field : FieldSpec}
    (hfield : field ∈ contract.fields) :
    Rsql.getValue (resolveValues contract.fieldsByName values) field.name =
      resolveField values field.name field :=
  getValue_resolveValues nodup_fieldsByName
    ((mem_fieldsByName_iff hcontract.names).mpr ⟨hfield, rfl⟩)

end Server

end Declarative
end PdeOperator
