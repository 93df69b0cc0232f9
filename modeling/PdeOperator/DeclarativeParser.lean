import PdeOperator.DeclarativeEngine

/-! `DeclarativeTemplateParser.from_document`: a document becomes the contract of a template. A document
is any YAML value of JSON type (a YAML text can also hold dates, bytes and sets), so a mapping that is expected
somewhere may be anything else. -/

namespace PdeOperator
open Base

namespace Declarative

/-- All that `FieldSpec` has: what the engine reads, and what only the form reads. -/
structure FormField extends FieldSpec where
  description : Option Text := none
  readonly : Bool := false
  placeholder : Option Text := none
  label : Text
  interface : Option Text := none
  data : JsonObject := []

structure ParsedTemplate where
  name : Text
  fields : List FormField

/-- What the engine reads of a parsed template. -/
def ParsedTemplate.contract (template : ParsedTemplate) : DeclarativeRunTemplate where
  fields := template.fields.map FormField.toFieldSpec

/-- The libraries of the parser: `validationError` is the text of the `ValidationError` of a validator. -/
structure ParserLibrary extends EngineLibrary where
  validationError : Json → Text

namespace Parser

inductive Error where
  | noUiVariables
  | noVariables
  | noValue (name : Text)
  | notScalar (name : Text)
  | dataNotMapping (name : Text)
  | noInterface (name : Text)
  | optionsNotArray (name : Text)
  | badSelectType (name : Text)
  | badBindTo (name : Text)
  | validatorsNotArray (name : Text)
  | invalidValidators (name cause : Text)
  /-- `.get` of a value that is no mapping. -/
  | attributeError
  /-- The lookup of a list or a mapping in a set. -/
  | typeError
  deriving DecidableEq

/-- The error is a `DeclarativeContractError`, which is a `ValueError`. -/
def Error.IsContractError : Error → Prop
  | .attributeError | .typeError => False
  | _ => True

def bindToValues : Text := "env_var, is_dry_run, log_level, pipeline_data, pipeline_var, profile".toList

/-- The texts of the contract errors; those of the other two are Python's. -/
def Error.message : Error → Text
  | .noUiVariables => "Document must contain a root '.ui-variables' mapping".toList
  | .noVariables => ".ui-variables.variables must be a non-empty mapping".toList
  | .noValue name => "Variable '".toList ++ name ++ "' must define 'value'".toList
  | .notScalar name =>
      "Variable '".toList ++ name ++ "' must be a scalar or a mapping with 'value'".toList
  | .dataNotMapping name =>
      "variables-fields-customization.".toList ++ name ++ ".data must be a mapping".toList
  | .noInterface name => "variables-fields-customization.".toList ++ name ++
      ".data.interface is required when data is set".toList
  | .optionsNotArray name => "Variable '".toList ++ name ++ ".options' must be an array of strings".toList
  | .badSelectType name =>
      "settings.select_type for '".toList ++ name ++ "' must be 'single' or 'multi'".toList
  | .badBindTo name =>
      "settings.bind_to for '".toList ++ name ++ "' must be one of: ".toList ++ bindToValues
  | .validatorsNotArray name => "settings.validators for '".toList ++ name ++ "' must be an array".toList
  | .invalidValidators name cause =>
      "Invalid validators for '".toList ++ name ++ "': ".toList ++ cause
  | .attributeError => "AttributeError".toList
  | .typeError => "TypeError".toList

/-- What `.get` is called on. -/
def mapping : Json → Except Error JsonObject
  | .obj fields => .ok fields
  | _ => .error .attributeError

section Helpers

variable (lib : ParserLibrary)

def normalizeVariableEntry (name : Text) : Json → Except Error JsonObject
  | .obj fields => if (Json.get fields "value".toList).isNone then .error (.noValue name) else .ok fields
  | .bool value => .ok [("value".toList, .bool value)]
  | .null => .ok [("value".toList, .null)]
  | .int value => .ok [("value".toList, .str (pyStr lib.toEngineLibrary (.int value)))]
  | .float literal => .ok [("value".toList, .str (pyStr lib.toEngineLibrary (.float literal)))]
  | .str text => .ok [("value".toList, .str text)]
  | .arr _ => .error (.notScalar name)

/-- `_optional_str` of the result of a `.get`. -/
def optionalStr : Option Json → Option Text
  | none => none
  | some .null => none
  | some raw =>
      let text := Text.strip (pyStr lib.toEngineLibrary raw)
      if text.isEmpty then none else some text

def parseOptions (name : Text) : Option Json → Except Error (Option (List Text))
  | none => .ok none
  | some .null => .ok none
  | some (.arr items) => .ok (some (items.map (pyStr lib.toEngineLibrary)))
  | some _ => .error (.optionsNotArray name)

/-- `bool(settings.get(key, False))` -/
def flag (settings : JsonObject) (key : Text) : Bool :=
  Api.isTrue ((Json.get settings key).getD (.bool false))

/-- `if not raw` of the result of a `.get`. -/
def isUnset (raw : Option Json) : Bool := !Api.isTrue (raw.getD .null)

def parseData (name : Text) (raw : Option Json) : Except Error (Option Text × JsonObject) :=
  if isUnset raw then .ok (none, [])
  else match raw with
    | some (.obj fields) =>
        match optionalStr lib (Json.get fields "interface".toList) with
        | none => .error (.noInterface name)
        | some interface => .ok (some interface, fields.filter fun entry => entry.1 ≠ "interface".toList)
    | _ => .error (.dataNotMapping name)

/-- `{item.lower() for item in options} == {"true", "false"}` -/
def areBooleanTexts (options : List Text) : Bool :=
  (options.all isBooleanText) &&
    (options.map (List.map Char.toLower)).contains "true".toList &&
    (options.map (List.map Char.toLower)).contains "false".toList

def inferFieldType (value : Json) (options : Option (List Text)) (interface : Option Text) : FieldType :=
  match value, options, interface with
  | .bool _, _, _ => .checkbox
  | _, some options, _ => if areBooleanTexts options then .checkbox else .select
  | _, none, some _ => .select
  | _, none, none => .string

def parseSelectType (name : Text) : Option Json → Except Error SelectType
  | none => .ok .single
  | some .null => .ok .single
  | some raw =>
      if raw = .str "single".toList then .ok .single
      else if raw = .str "multi".toList then .ok .multi
      else .error (.badSelectType name)

/-- The binding of a text in `_BIND_TO_VALUES`. -/
def bindToOf (text : Text) : Option BindTo :=
  [BindTo.pipelineVar, .envVar, .pipelineData, .isDryRun, .logLevel, .profile].find? fun bindTo =>
    bindTo.value = text

def parseBindTo (name : Text) : Option Json → Except Error BindTo
  | none => .ok .pipelineVar
  | some .null => .ok .pipelineVar
  | some (.arr _) => .error .typeError
  | some (.obj _) => .error .typeError
  | some (.str text) =>
      match bindToOf text with
      | some bindTo => .ok bindTo
      | none => .error (.badBindTo name)
  | some _ => .error (.badBindTo name)

/-- `ValidatorPattern.model_validate(item)`; `none` is a `ValidationError`. -/
def validatePattern : Json → Option ValidatorPattern
  | .obj fields =>
      match Json.get fields "type".toList, Json.get fields "value".toList,
        Json.get fields "message".toList with
      | none, some (.str value), some (.str message) => some { value, message }
      | some (.str type), some (.str value), some (.str message) =>
          if type = "pattern".toList then some { value, message } else none
      | _, _, _ => none
  | _ => none

def parseValidators (name : Text) (raw : Option Json) : Except Error (List ValidatorPattern) :=
  if isUnset raw then .ok []
  else match raw with
    | some (.arr items) => items.mapM fun item =>
        match validatePattern item with
        | some validator => .ok validator
        | none => .error (.invalidValidators name (lib.validationError item))
    | _ => .error (.validatorsNotArray name)

def buildField (name : Text) (raw : JsonObject) (custom : Json) : Except Error FormField := do
  let value := (Json.get raw "value".toList).getD .null
  let options ← parseOptions lib name (Json.get raw "options".toList)
  let custom ← mapping custom
  let settings := (Json.get custom "settings".toList).getD (.obj [])
  let (interface, data) ← parseData lib name (Json.get custom "data".toList)
  let settings ← mapping settings
  let label := (optionalStr lib (Json.get settings "label".toList)).getD name
  let selectType ← parseSelectType name (Json.get settings "select_type".toList)
  let bindTo ← parseBindTo name (Json.get settings "bind_to".toList)
  let validators ← parseValidators lib name (Json.get settings "validators".toList)
  .ok
    { name
      value
      description := optionalStr lib (Json.get raw "description".toList)
      options
      fieldType := inferFieldType value options interface
      selectType
      required := flag settings "required".toList
      requiredCondition := optionalStr lib (Json.get settings "required_condition".toList)
      hideCondition := optionalStr lib (Json.get settings "hide_condition".toList)
      hidden := flag settings "hidden".toList
      readonly := flag settings "readonly".toList
      secure := flag settings "secure".toList
      placeholder := optionalStr lib (Json.get settings "placeholder".toList)
      label
      bindTo
      validators
      interface
      data }

/-- One turn of the comprehension over the variables. -/
def parseVariable (customization : Json) (entry : Text × Json) : Except Error FormField := do
  let raw ← normalizeVariableEntry lib entry.1 entry.2
  let customization ← mapping customization
  buildField lib entry.1 raw ((Json.get customization entry.1).getD (.obj []))

/-- `_workflow_name(doc) or fallback_name` -/
def templateName (doc : JsonObject) (fallbackName : Text) : Text :=
  match Json.get doc "workflow".toList with
  | some (.obj workflow) =>
      let name := (Json.get workflow "name".toList).getD .null
      let text := Text.strip (pyStr lib.toEngineLibrary name)
      if Api.isTrue name && !text.isEmpty then text else fallbackName
  | _ => fallbackName

def customizationKey : Text := "variables-fields-customization".toList

end Helpers

/-- The variables of a document, with the value of their customization. -/
def readVariables (doc : JsonObject) : Except Error (JsonObject × Json) :=
  match Json.get doc ".ui-variables".toList with
  | some (.obj uiVariables) =>
      match Json.get uiVariables "variables".toList with
      | some (.obj (first :: rest)) =>
          .ok (first :: rest, (Json.get uiVariables customizationKey).getD (.obj []))
      | _ => .error .noVariables
  | _ => .error .noUiVariables

def fromDocument (lib : ParserLibrary) (doc : JsonObject) (fallbackName : Text) :
    Except Error ParsedTemplate := do
  let (entries, customization) ← readVariables doc
  let fields ← entries.mapM (parseVariable lib customization)
  .ok { name := templateName lib doc fallbackName, fields }

end Parser
end Declarative
end PdeOperator
