import Mathlib.Data.Char
import Mathlib.Data.List.Lex
import PdeOperator.ApiAuth
import PdeOperator.DeclarativeContract
import PdeOperator.InputCrypto
import PdeOperator.RunService

/-! `DeclarativeEngine`: the values of a declarative template are validated and assembled into a
request for a run. -/

namespace PdeOperator
open Base

namespace Declarative

section Validators

variable (lib : EngineLibrary)

/-- `PatternValidator.validate` -/
def validatePatterns (name value : Text) : List ValidatorPattern → Except ContractError Unit
  | [] => .ok ()
  | validator :: rest =>
      match lib.reMatch validator.value value with
      | none => .error (.invalidPattern validator.value)
      | some false => .error (.failedValidation name validator.message)
      | some true => validatePatterns name value rest

/-- `value.lower() in {"true", "false"}`; no letter outside ASCII has one of these letters as its lower
case. -/
def isBooleanText (text : Text) : Bool :=
  text.map Char.toLower == "true".toList || text.map Char.toLower == "false".toList

/-- The options of a select field. -/
def validateOptions (field : FieldSpec) (value : Text) : Except ContractError Unit :=
  match field.options with
  | none => .ok ()
  | some options =>
      let parts :=
        match field.selectType with
        | .multi => (List.splitOn ',' value).filter fun part => !List.isEmpty part
        | .single => [value]
      if parts.all fun part => options.contains part then .ok () else .error (.notAllowed field.name)

/-- `FieldValidator.validate` -/
def validateField (field : FieldSpec) (value : Json) : Except ContractError Unit :=
  match field.fieldType, value with
  | .string, .str text => validatePatterns lib field.name text field.validators
  | .string, _ => .error (.notString field.name)
  | .checkbox, .bool _ => .ok ()
  | .checkbox, .str text => if isBooleanText text then .ok () else .error (.notBoolean field.name)
  | .checkbox, _ => .error (.notBoolean field.name)
  | .select, .str text => do
      validatePatterns lib field.name text field.validators
      validateOptions field text
  | .select, _ => .error (.notString field.name)

end Validators

/-! ### `DeclarativeEngine` -/

structure AssembledRunPayload where
  profileId : Text
  pipelineData : Text
  pipelineVars : Option Text
  pipelineVarsSecure : Option Text
  isDryRun : Bool
  logLevel : Text
  envVars : Option JsonObject
  pdeImage : Option Text

namespace Engine

def isEmpty : Json → Bool
  | .null => true
  | .str text => Text.isBlank text
  | _ => false

def asPipelineText (lib : EngineLibrary) : Json → Text
  | .bool true => "true".toList
  | .bool false => "false".toList
  | value => pyStr lib value

def asBool : Json → Bool
  | .bool value => value
  | .str text => text.map Char.toLower == "true".toList
  | value => Api.isTrue value

section Assembly

variable (lib : EngineLibrary) (effective : EffectiveFormState)

/-- One turn of the loop over the fields: nothing for an empty value. -/
def collectField (entry : Text × FieldSpec) : Except ContractError (Option (Text × Json)) :=
  let value := Rsql.getValue effective.resolvedValues entry.1
  if isEmpty value then
    if effective.visible entry.1 && effective.required entry.1 then
      .error (.missingRequired entry.1)
    else .ok none
  else do
    if effective.visible entry.1 then validateField lib entry.2 value
    .ok (some (entry.1, value))

def collectSubmitted : Except ContractError JsonObject := do
  let collected ← effective.fields.mapM (collectField lib effective)
  .ok (collected.filterMap id)

/-- The first field bound to `bind_to` that is submitted or has a default; `none` is the end of the
loop. -/
def findSingleton (submitted : JsonObject) (bindTo : BindTo) : List (Text × FieldSpec) → Option Json
  | [] => none
  | (_, field) :: rest =>
      if field.bindTo ≠ bindTo then findSingleton submitted bindTo rest
      else match Json.get submitted field.name with
        | some value => some value
        | none =>
            if isEmpty field.value then findSingleton submitted bindTo rest else some field.value

/-- `_get_singleton` of a binding that is not required. -/
def getSingleton (submitted : JsonObject) (bindTo : BindTo) (default : Json) : Json :=
  (findSingleton submitted bindTo effective.fields).getD default

/-- `_get_singleton` of a required binding. -/
def getRequiredSingleton (submitted : JsonObject) (bindTo : BindTo) : Except ContractError Json :=
  match findSingleton submitted bindTo effective.fields with
  | some value => .ok value
  | none => .error (.missingBindTo bindTo)

/-- `pipeline_vars`, or `pipeline_vars_secure` for `secure`. -/
def pipelineVars (secure : Bool) (submitted : JsonObject) : List (Text × Text) :=
  submitted.filterMap fun entry =>
    match effective.fields.lookup entry.1 with
    | none => none
    | some field =>
        if field.bindTo = .pipelineVar ∧ field.secure = secure then
          some (entry.1, asPipelineText lib entry.2)
        else none

def envVars (submitted : JsonObject) : JsonObject :=
  submitted.filter fun entry =>
    match effective.fields.lookup entry.1 with
    | none => false
    | some field => field.bindTo = .envVar

/-- `sorted(vars)` -/
def sortVars (vars : List (Text × Text)) : List (Text × Text) :=
  vars.mergeSort fun a b => decide (a.1 ≤ b.1)

def pipelineText (vars : List (Text × Text)) : Option Text :=
  if vars.isEmpty then none
  else some (Text.joinLines ((sortVars vars).map fun entry =>
    InputCrypto.keyValueLine entry.1 entry.2))

def assemble (submitted : JsonObject) : Except ContractError AssembledRunPayload := do
  let profileId := getSingleton effective submitted .profile (.str "default".toList)
  let pipelineData ← getRequiredSingleton effective submitted .pipelineData
  let logLevel := getSingleton effective submitted .logLevel (.str "INFO".toList)
  let isDryRun := getSingleton effective submitted .isDryRun (.bool false)
  let envVars := envVars effective submitted
  .ok
    { profileId := pyStr lib profileId
      pipelineData := pyStr lib pipelineData
      pipelineVars := pipelineText (pipelineVars lib effective false submitted)
      pipelineVarsSecure := pipelineText (pipelineVars lib effective true submitted)
      isDryRun := asBool isDryRun
      logLevel := pyStr lib logLevel
      envVars := if envVars.isEmpty then none else some envVars
      pdeImage := none }

end Assembly

def buildRunPayload (lib : EngineLibrary) (contract : DeclarativeRunTemplate)
    (values : JsonObject) : Except ContractError AssembledRunPayload := do
  let effective ← evaluate lib contract values
  let submitted ← collectSubmitted lib effective
  assemble lib effective submitted

end Engine

/-- `DeclarativeRunAdapter._to_create_run_request` -/
def toCreateRunRequest (payload : AssembledRunPayload) (templateId : Uuid) : CreateRunRequest where
  profileId := payload.profileId
  pipelineData := payload.pipelineData
  pipelineVars := payload.pipelineVars
  pipelineVarsSecure := payload.pipelineVarsSecure
  isDryRun := payload.isDryRun
  logLevel := payload.logLevel
  envVars := payload.envVars
  pdeImage := payload.pdeImage
  createdFromTemplateId := some templateId

namespace Engine

section Submitted

variable {lib : EngineLibrary} {contract : DeclarativeRunTemplate} {values : JsonObject}
  {effective : EffectiveFormState} {submitted : JsonObject} {payload : AssembledRunPayload}

/-- What a field submits: its resolved value, or nothing if that is empty. -/
def submitField (values : JsonObject) (entry : Text × FieldSpec) : Option (Text × Json) :=
  if isEmpty (resolveField values entry.1 entry.2) then none
  else some (entry.1, resolveField values entry.1 entry.2)

/-- The submitted fields, in the order of the contract. -/
def submittedValues (contract : DeclarativeRunTemplate) (values : JsonObject) : JsonObject :=
  contract.fieldsByName.filterMap (submitField values)

/-- An accepted turn submits the field. -/
theorem collectField_eq_ok {entry : Text × FieldSpec} {collected : Option (Text × Json)}
    (hvalue : Rsql.getValue effective.resolvedValues entry.1 = resolveField values entry.1 entry.2)
    (h : collectField lib effective entry = .ok collected) :
    collected = submitField values entry := by
  unfold collectField at h
  unfold submitField
  rw [hvalue] at h
  dsimp only at h
  split at h
  · next hempty =>
    rw [if_pos hempty]
    split at h
    · cases h
    · exact (Except.ok.inj h).symm
  · next hfilled =>
    rw [if_neg hfilled]
    split at h
    · obtain ⟨_, -, heq⟩ := bind_eq_ok.mp h
      exact (Except.ok.inj heq).symm
    · exact (Except.ok.inj h).symm

theorem collectSubmitted_eq (hevaluate : evaluate lib contract values = .ok effective)
    (h : collectSubmitted lib effective = .ok submitted) :
    submitted = submittedValues contract values := by
  obtain ⟨collected, hcollected, heq⟩ := bind_eq_ok.mp h
  obtain rfl := Except.ok.inj heq
  have hturns := mapM_eq_ok_iff.mp hcollected
  rw [evaluate_fields hevaluate] at hturns
  have hvalue : ∀ entry ∈ contract.fieldsByName,
      Rsql.getValue effective.resolvedValues entry.1 = resolveField values entry.1 entry.2 := by
    intro entry hentry
    rw [evaluate_resolvedValues hevaluate]
    exact getValue_resolveValues nodup_fieldsByName hentry
  rw [submittedValues]
  clear heq h hcollected hevaluate
  generalize contract.fieldsByName = fields at hturns hvalue
  induction hturns with
  | nil => rfl
  | cons hturn _ ih =>
      have hrest := ih fun entry hentry => hvalue entry (List.mem_cons_of_mem _ hentry)
      have hfirst := collectField_eq_ok (hvalue _ List.mem_cons_self) hturn
      rw [hfirst, List.filterMap_cons, List.filterMap_cons, hrest]
      rfl

/-- What is assembled are the submitted values. -/
theorem buildRunPayload_eq_ok (h : buildRunPayload lib contract values = .ok payload) :
    ∃ effective, evaluate lib contract values = .ok effective ∧
      collectSubmitted lib effective = .ok (submittedValues contract values) ∧
      assemble lib effective (submittedValues contract values) = .ok payload := by
  obtain ⟨effective, hevaluate, h⟩ := bind_eq_ok.mp h
  obtain ⟨submitted, hsubmitted, h⟩ := bind_eq_ok.mp h
  obtain rfl := collectSubmitted_eq hevaluate hsubmitted
  exact ⟨effective, hevaluate, hsubmitted, h⟩

theorem mem_submittedValues_iff {name : Text} {value : Json} :
    (name, value) ∈ submittedValues contract values ↔
      ∃ field, (name, field) ∈ contract.fieldsByName ∧ resolveField values name field = value ∧
        isEmpty value = false := by
  rw [submittedValues, List.mem_filterMap]
  constructor
  · rintro ⟨⟨n, field⟩, hfield, heq⟩
    unfold submitField at heq
    split at heq
    · cases heq
    · next hvalue =>
      obtain ⟨rfl, rfl⟩ := Prod.mk.inj (Option.some.inj heq)
      exact ⟨field, hfield, rfl, Bool.eq_false_iff.mpr hvalue⟩
  · rintro ⟨field, hfield, rfl, hvalue⟩
    exact ⟨(name, field), hfield, by rw [submitField, hvalue]; rfl⟩

theorem nodup_submittedValues : ((submittedValues contract values).map Prod.fst).Nodup := by
  refine nodup_fieldsByName.sublist (Dict.keys_filterMap_sublist ?_ _)
  intro entry result hresult
  unfold submitField at hresult
  split at hresult
  · cases hresult
  · exact congrArg Prod.fst (Option.some.inj hresult).symm

theorem name_of_mem_fieldsByName {entry : Text × FieldSpec} (h : entry ∈ contract.fieldsByName) :
    entry.2.name = entry.1 := by
  obtain ⟨field, -, rfl⟩ := List.mem_map.mp (Dict.mem_of_mem_ofPairs h)
  rfl

/-- The submitted value of a field. -/
theorem get_submittedValues {name : Text} {field : FieldSpec}
    (hfield : (name, field) ∈ contract.fieldsByName) :
    Json.get (submittedValues contract values) name =
      if isEmpty (resolveField values name field) then none
      else some (resolveField values name field) := by
  ext value
  rw [Json.get, Dict.lookup_eq_some_iff nodup_submittedValues, mem_submittedValues_iff]
  constructor
  · rintro ⟨other, hother, rfl, hempty⟩
    have hown := (Dict.lookup_eq_some_iff nodup_fieldsByName).mpr hfield
    have hfound := (Dict.lookup_eq_some_iff nodup_fieldsByName).mpr hother
    obtain rfl := Option.some.inj (hown.symm.trans hfound)
    rw [hempty]
    rfl
  · intro heq
    split at heq
    · cases heq
    · next hempty =>
      obtain rfl := Option.some.inj heq
      exact ⟨field, hfield, rfl, Bool.eq_false_iff.mpr hempty⟩

theorem lookup_fields (heffective : effective.fields = contract.fieldsByName) {name : Text}
    {field : FieldSpec} (h : (name, field) ∈ contract.fieldsByName) :
    effective.fields.lookup name = some field := by
  rw [heffective]
  exact (Dict.lookup_eq_some_iff nodup_fieldsByName).mpr h

/-- Both texts of an assembled payload are made of the submitted variables. -/
theorem assemble_texts {submitted : JsonObject} (h : assemble lib effective submitted = .ok payload) :
    payload.pipelineVars = pipelineText (pipelineVars lib effective false submitted) ∧
      payload.pipelineVarsSecure = pipelineText (pipelineVars lib effective true submitted) := by
  obtain ⟨pipelineData, -, heq⟩ := bind_eq_ok.mp h
  obtain rfl := Except.ok.inj heq
  exact ⟨rfl, rfl⟩

end Submitted


/-- Nothing but texts, and patterns that match. -/
def plainLibrary : EngineLibrary where
  repr _ := []
  reMatch _ _ := some true

end Engine

end Declarative
end PdeOperator
