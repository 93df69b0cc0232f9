import PdeOperator.BaseJsonb
import PdeOperator.DeclarativeParserErrors
import PdeOperator.JobResources

/-! The contract of a declarative template in the database: `model_dump(mode="json")` into a `JSONB`
column, and `DeclarativeRunTemplate.model_validate` of what is read back. -/

namespace PdeOperator
open Base

namespace Declarative

def FieldType.value : FieldType → Text
  | .string => "string".toList
  | .checkbox => "checkbox".toList
  | .select => "select".toList

def SelectType.value : SelectType → Text
  | .single => "single".toList
  | .multi => "multi".toList

def fieldTypeOf (text : Text) : Option FieldType :=
  [FieldType.string, .checkbox, .select].find? fun fieldType => fieldType.value = text

def selectTypeOf (text : Text) : Option SelectType :=
  [SelectType.single, .multi].find? fun selectType => selectType.value = text

namespace Store

def dumpOptional : Option Text → Json
  | none => .null
  | some text => .str text

def dumpOptions : Option (List Text) → Json
  | none => .null
  | some options => .arr (options.map Json.str)

def dumpValidator (validator : ValidatorPattern) : Json :=
  .obj [("type".toList, .str "pattern".toList), ("value".toList, .str validator.value),
    ("message".toList, .str validator.message)]

def dumpField (field : FormField) : JsonObject :=
  [("name".toList, .str field.name),
   ("value".toList, field.value),
   ("description".toList, dumpOptional field.description),
   ("options".toList, dumpOptions field.options),
   ("field_type".toList, .str field.fieldType.value),
   ("select_type".toList, .str field.selectType.value),
   ("required".toList, .bool field.required),
   ("required_condition".toList, dumpOptional field.requiredCondition),
   ("hide_condition".toList, dumpOptional field.hideCondition),
   ("hidden".toList, .bool field.hidden),
   ("readonly".toList, .bool field.readonly),
   ("secure".toList, .bool field.secure),
   ("placeholder".toList, dumpOptional field.placeholder),
   ("label".toList, .str field.label),
   ("bind_to".toList, .str field.bindTo.value),
   ("validators".toList, .arr (field.validators.map dumpValidator)),
   ("interface".toList, dumpOptional field.interface),
   ("data".toList, .obj field.data)]

def modelDump (template : ParsedTemplate) : JsonObject :=
  [("name".toList, .str template.name),
   ("fields".toList, .arr (template.fields.map fun field => .obj (dumpField field)))]

/-! ### `model_validate`

Every parser gets the value under its key; `none` as a result is a `ValidationError`. -/

/-- `str` -/
def requiredStr : Option Json → Option Text
  | some (.str text) => some text
  | _ => none

/-- `list[str] | None` -/
def optionalTexts : Option Json → Option (Option (List Text))
  | none | some .null => some none
  | some (.arr items) => (items.mapM fun item => requiredStr (some item)).map some
  | some _ => none

/-- A `Literal` with a default. -/
def literal {α : Type} (of : Text → Option α) (default : α) : Option Json → Option α
  | none => some default
  | some (.str text) => of text
  | some _ => none

def trueTexts : List Text :=
  ["1".toList, "on".toList, "t".toList, "true".toList, "y".toList, "yes".toList]

def falseTexts : List Text :=
  ["0".toList, "off".toList, "f".toList, "false".toList, "n".toList, "no".toList]

/-- `bool` with the default `False`, which `pydantic` also reads from some numbers and texts. -/
def laxBool : Option Json → Option Bool
  | none => some false
  | some (.bool value) => some value
  | some (.int value) => if value = 0 then some false else if value = 1 then some true else none
  | some (.float text) =>
      if text = "0.0".toList then some false else if text = "1.0".toList then some true else none
  | some (.str text) =>
      if text.map Char.toLower ∈ trueTexts then some true
      else if text.map Char.toLower ∈ falseTexts then some false else none
  | some _ => none

def validators : Option Json → Option (List ValidatorPattern)
  | none => some []
  | some (.arr items) => items.mapM Parser.validatePattern
  | some _ => none

def data : Option Json → Option JsonObject
  | none => some []
  | some (.obj fields) => some fields
  | some _ => none

/-- `_default_label` -/
def labelOr (label name : Option Json) : Option Json :=
  match label with
  | none | some .null => name.or label
  | some value => some value

def validateField (get : Text → Option Json) : Option FormField := do
  let name ← requiredStr (get "name".toList)
  let description ← Resources.optionalStr (get "description".toList)
  let options ← optionalTexts (get "options".toList)
  let fieldType ← literal fieldTypeOf .string (get "field_type".toList)
  let selectType ← literal selectTypeOf .single (get "select_type".toList)
  let required ← laxBool (get "required".toList)
  let requiredCondition ← Resources.optionalStr (get "required_condition".toList)
  let hideCondition ← Resources.optionalStr (get "hide_condition".toList)
  let hidden ← laxBool (get "hidden".toList)
  let readonly ← laxBool (get "readonly".toList)
  let secure ← laxBool (get "secure".toList)
  let placeholder ← Resources.optionalStr (get "placeholder".toList)
  let label ← requiredStr (labelOr (get "label".toList) (get "name".toList))
  let bindTo ← literal Parser.bindToOf .pipelineVar (get "bind_to".toList)
  let validators ← validators (get "validators".toList)
  let interface ← Resources.optionalStr (get "interface".toList)
  let data ← data (get "data".toList)
  some
    { name, description, options, fieldType, selectType, required, requiredCondition, hideCondition
      hidden, readonly, secure, placeholder, label, bindTo, validators, interface, data
      value := (get "value".toList).getD .null }

def modelValidateField : Json → Option FormField
  | .obj fields => validateField (Json.get fields)
  | _ => none

/-- The value under `fields`, whose default is the empty list. -/
def validateFields : Option Json → Option (List FormField)
  | none => some []
  | some (.arr items) => items.mapM modelValidateField
  | some _ => none

def modelValidate (spec : JsonObject) : Option ParsedTemplate := do
  let name ← requiredStr (Json.get spec "name".toList)
  let fields ← validateFields (Json.get spec "fields".toList)
  some { name, fields }

/-- A comprehension whose turns all succeed. -/
theorem mapM_map_eq_some {α β γ : Type} {f : β → Option γ} {g : α → β} {h : α → γ} {xs : List α}
    (hturn : ∀ x ∈ xs, f (g x) = some (h x)) : (xs.map g).mapM f = some (xs.map h) := by
  induction xs with
  | nil => rfl
  | cons x xs ih =>
      obtain ⟨hx, hxs⟩ := List.forall_mem_cons.mp hturn
      rw [List.map_cons, List.mapM_cons, hx, ih hxs]
      rfl

section RoundTrip

variable (column : Jsonb)

/-- The column `declarative_spec` of a template. -/
def storedSpec (template : ParsedTemplate) : JsonObject := column.storeFields (modelDump template)

/-- A field as it comes back: only the free values may look different. -/
def readField (field : FormField) : FormField :=
  { field with value := column.store field.value, data := column.storeFields field.data }

def readTemplate (template : ParsedTemplate) : ParsedTemplate :=
  { template with fields := template.fields.map (readField column) }

variable {column}

theorem store_dumpOptional (text : Option Text) :
    column.store (dumpOptional text) = dumpOptional text := by
  cases text with
  | none => exact column.store_null
  | some text => exact column.store_str text

theorem optionalStr_dumpOptional (text : Option Text) :
    Resources.optionalStr (some (dumpOptional text)) = some text := by
  cases text <;> rfl

theorem store_dumpOptions (options : Option (List Text)) :
    column.store (dumpOptions options) = dumpOptions options := by
  refine column.store_of_isPlain ?_
  cases options with
  | none => exact .null
  | some options =>
      refine .arr fun item hitem => ?_
      obtain ⟨text, -, rfl⟩ := List.mem_map.mp hitem
      exact .str text

theorem optionalTexts_dumpOptions (options : Option (List Text)) :
    optionalTexts (some (dumpOptions options)) = some options := by
  cases options with
  | none => rfl
  | some options =>
      have hitems : (options.map Json.str).mapM (fun item => requiredStr (some item)) =
          some (options.map id) := mapM_map_eq_some fun _ _ => rfl
      simp only [dumpOptions, optionalTexts, hitems, List.map_id, Option.map_some]

theorem fieldTypeOf_value (fieldType : FieldType) : fieldTypeOf fieldType.value = some fieldType := by
  cases fieldType <;> rfl

theorem selectTypeOf_value (selectType : SelectType) :
    selectTypeOf selectType.value = some selectType := by
  cases selectType <;> rfl

theorem bindToOf_value (bindTo : BindTo) : Parser.bindToOf bindTo.value = some bindTo := by
  cases bindTo <;> rfl

theorem validatePattern_store (validator : ValidatorPattern) :
    Parser.validatePattern (column.store (dumpValidator validator)) = some validator := by
  have hget : ∀ (key : Text) {value : Json},
      Json.get [("type".toList, .str "pattern".toList), ("value".toList, .str validator.value),
        ("message".toList, .str validator.message)] key = some value →
      Json.get (column.storeFields [("type".toList, .str "pattern".toList),
        ("value".toList, .str validator.value), ("message".toList, .str validator.message)]) key =
          some (column.store value) := fun _ _ hvalue => column.get_storeFields_of_get hvalue
  rw [dumpValidator, column.store_object, Parser.validatePattern, hget "type".toList rfl,
    hget "value".toList rfl, hget "message".toList rfl]
  simp only [column.store_str, if_true]

theorem validators_store (patterns : List ValidatorPattern) :
    validators (some (column.store (.arr (patterns.map dumpValidator)))) = some patterns := by
  rw [column.store_arr, validators, List.map_map]
  exact (mapM_map_eq_some fun validator _ => validatePattern_store validator).trans
    (congrArg some (List.map_id patterns))

/-- A field comes back as it was dumped, but for the order of keys in its free values. -/
theorem modelValidateField_store (field : FormField) :
    modelValidateField (column.store (.obj (dumpField field))) = some (readField column field) := by
  rw [column.store_object, modelValidateField]
  have hget : ∀ (key : Text) {value : Json}, Json.get (dumpField field) key = some value →
      Json.get (column.storeFields (dumpField field)) key = some (column.store value) :=
    fun _ _ hvalue => column.get_storeFields_of_get hvalue
  unfold validateField
  rw [hget "name".toList rfl, hget "value".toList rfl,
    hget "description".toList rfl, hget "options".toList rfl,
    hget "field_type".toList rfl, hget "select_type".toList rfl,
    hget "required".toList rfl, hget "required_condition".toList rfl,
    hget "hide_condition".toList rfl, hget "hidden".toList rfl,
    hget "readonly".toList rfl, hget "secure".toList rfl,
    hget "placeholder".toList rfl, hget "label".toList rfl,
    hget "bind_to".toList rfl, hget "validators".toList rfl,
    hget "interface".toList rfl, hget "data".toList rfl]
  simp only [column.store_str, column.store_bool, column.store_object, store_dumpOptional,
    store_dumpOptions, validators_store, requiredStr, laxBool, labelOr, literal,
    optionalStr_dumpOptional, optionalTexts_dumpOptions, fieldTypeOf_value, selectTypeOf_value,
    bindToOf_value, data, Option.bind_eq_bind, Option.bind_some, Option.getD_some, readField]

/-- What is read from the column is the contract that was written, but for the order of keys in the free
values. -/
theorem modelValidate_storedSpec (template : ParsedTemplate) :
    modelValidate (storedSpec column template) = some (readTemplate column template) := by
  have hname : Json.get (modelDump template) "name".toList = some (.str template.name) := rfl
  have hlist : Json.get (modelDump template) "fields".toList =
      some (.arr (template.fields.map fun field => .obj (dumpField field))) := rfl
  rw [storedSpec, modelValidate, column.get_storeFields_of_get hname,
    column.get_storeFields_of_get hlist, column.store_str, column.store_arr]
  have hfields : ((template.fields.map fun field => Json.obj (dumpField field)).map column.store).mapM
      modelValidateField = some (template.fields.map (readField column)) := by
    rw [List.map_map]
    exact mapM_map_eq_some fun field _ => modelValidateField_store field
  simp only [requiredStr, validateFields, hfields, Option.bind_eq_bind, Option.bind_some, readTemplate]

/-- A contract whose defaults have no objects and no numbers with a point is read as it was. -/
theorem contract_readTemplate {template : ParsedTemplate}
    (h : ∀ field ∈ template.fields, Jsonb.IsPlain field.value) :
    (readTemplate column template).contract = template.contract := by
  have hfields : (template.fields.map (readField column)).map FormField.toFieldSpec =
      template.fields.map FormField.toFieldSpec := by
    rw [List.map_map]
    refine List.map_congr_left fun field hfield => ?_
    simp only [Function.comp_apply, readField, column.store_of_isPlain (h field hfield)]
  exact congrArg DeclarativeRunTemplate.mk hfields

end RoundTrip

end Store
end Declarative
end PdeOperator
