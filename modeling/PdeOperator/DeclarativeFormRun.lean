import PdeOperator.DeclarativeFormAgreement
import PdeOperator.DeclarativeParser

/-! `DeclarativeRunTemplateFormView` while it is on the screen: the values that it holds and submits, the
options that it has been sent, and what it shows of both. -/

namespace PdeOperator
open Base Js

namespace Declarative.FormView

structure EnumOpt where
  value : Text
  label : Text
  deriving DecidableEq

def knownInterfaces : List Text := ["Profiles".toList, "ClusterNamespaces".toList, "GitFiles".toList]

def isKnownInterface : Option Text → Bool
  | none => false
  | some name => !name.isEmpty && knownInterfaces.contains name

/-- `!!field.interface` -/
def hasInterface (field : FormField) : Bool := !(field.interface.getD []).isEmpty

def usesDynamicSelect (field : FormField) : Bool :=
  field.fieldType == .select && hasInterface field && isKnownInterface field.interface

def usesUnknownInterface (field : FormField) : Bool :=
  hasInterface field && !isKnownInterface field.interface

def staticOptions (field : FormField) : List EnumOpt :=
  (field.options.getD []).map fun value => { value, label := value }

inductive Control where
  | text | checkbox | select | multiSelect
  deriving DecidableEq

/-- The element that `renderField` makes. -/
def controlOf (field : FormField) : Control :=
  if usesUnknownInterface field then .text
  else match field.fieldType with
    | .checkbox => .checkbox
    | .select => if field.selectType = .multi then .multiSelect else .select
    | .string => .text

/-- `values`, and `optionsByFieldId` with an entry for each field whose options have come or failed. -/
structure State where
  values : JsonObject
  options : List (Text × List EnumOpt) := []

/-- What a field starts with, as the contract has it. -/
def initialJson (field : FormField) : Option Json :=
  if field.value ≠ .null then some field.value
  else match field.fieldType, field.options with
    | .select, some (first :: _) => some (.str first)
    | _, _ => none

/-- `initialFormValues`; the setter of `__proto__` takes no default. -/
def initialValues (fields : List FormField) : JsonObject :=
  fields.foldl (fun out field =>
    match initialJson field with
    | some value => if field.name = proto then out else Dict.set field.name value out
    | none => out) []

section Initial

variable {browser : Browser} {fields : List FormField}

theorem initialValue_eq (field : FormField) :
    initialValue browser field.toFieldSpec = (initialJson field).map (ofJson browser) := by
  rw [initialValue, initialJson]
  split
  · rfl
  · cases field.fieldType with
    | string => rfl
    | checkbox => rfl
    | select =>
        cases field.options with
        | none => rfl
        | some options => cases options <;> rfl

theorem initialValues_concat (fields : List FormField) (last : FormField) :
    initialValues (fields ++ [last]) =
      match initialJson last with
      | some value =>
          if last.name = proto then initialValues fields
          else Dict.set last.name value (initialValues fields)
      | none => initialValues fields := by
  rw [initialValues, List.foldl_append]
  rfl

theorem proto_notMem_initialValues : proto ∉ (initialValues fields).map Prod.fst := by
  induction fields using List.reverseRecOn with
  | nil => exact List.not_mem_nil
  | append_singleton fields last ih =>
      rw [initialValues_concat]
      split
      · split
        · exact ih
        · next hname =>
          rw [Dict.mem_keys_set, not_or]
          exact ⟨Ne.symm hname, ih⟩
      · exact ih

theorem ofValues_set (name : Text) (value : Json) (values : JsonObject) :
    (ofValues browser (Dict.set name value values)).own =
      Dict.set name (ofJson browser value) (ofValues browser values).own := by
  rw [ofValues, ofValues]
  induction values with
  | nil => rfl
  | cons entry values ih =>
      rw [Dict.set, List.map_cons, Dict.set]
      split
      · rfl
      · exact congrArg (List.cons (entry.1, ofJson browser entry.2)) ih

theorem ne_null_of_initialJson {field : FormField} {value : Json} (h : initialJson field = some value) :
    ofJson browser value ≠ .null := by
  rw [initialJson] at h
  split at h
  · next hvalue =>
    obtain rfl := Option.some.inj h
    intro hnull
    cases hjson : field.value with
    | null => exact hvalue hjson
    | _ =>
        rw [hjson] at hnull
        cases hnull
  · split at h
    · obtain rfl := Option.some.inj h
      exact nofun
    · cases h

/-- The values of the first state are those of `initialFormValues`. -/
theorem ofValues_initialValues :
    ofValues browser (initialValues fields) =
      initialFormValues browser (fields.map FormField.toFieldSpec) := by
  induction fields using List.reverseRecOn with
  | nil => rfl
  | append_singleton fields last ih =>
      have hlookup : (ofValues browser (initialValues fields)).own.lookup proto = none := by
        rw [List.lookup_eq_none_iff]
        intro entry hentry
        obtain ⟨value, hvalue, rfl⟩ := List.mem_map.mp hentry
        rw [bne_iff_ne]
        exact fun heq => proto_notMem_initialValues (List.mem_map.mpr ⟨value, hvalue, heq.symm⟩)
      rw [initialFormValues, List.map_append, List.foldl_append, ← initialFormValues, ← ih,
        initialValues_concat, List.map_singleton, List.foldl_cons, List.foldl_nil, initialValue_eq]
      cases hvalue : initialJson last with
      | none => rfl
      | some value =>
          have hnull : ofJson browser value ≠ .null := ne_null_of_initialJson hvalue
          dsimp only [Option.map_some]
          rw [Object.set]
          by_cases hname : last.name = proto
          · rw [if_pos hname, if_pos ⟨hname, rfl, hlookup⟩, if_neg hnull]
          · rw [if_neg hname, if_neg fun hset => hname hset.1, ← ofValues_set]
            rfl

end Initial

def initialState (fields : List FormField) : State where
  values := initialValues fields

/-- `opts` of a select; `none` is an exception, where `Object.prototype` answers for a field that is never
fetched, as `fetchedRef` has its name from the start. -/
def optionsOf (s : State) (field : FormField) : Option (List EnumOpt) :=
  if usesDynamicSelect field then
    match s.options.lookup field.name with
    | some opts => some opts
    | none => if field.name ∈ prototypeNames then none else some []
  else some (staticOptions field)

/-- The options are set, the value is settled and the loading ends in one go. -/
def isLoading (s : State) (field : FormField) : Bool :=
  usesDynamicSelect field && (s.options.lookup field.name).isNone && decide (field.name ∉ prototypeNames)

def setFieldValue (s : State) (name : Text) (value : Json) : State :=
  if Json.get s.values name = some value then s
  else { s with values := Dict.set name value s.values }

section Shown

variable (browser : Browser) (fields : List FormField) (s : State)

/-- `values[name]` -/
def current (name : Text) : Value := (ofValues browser s.values).get browser.native name

def isVisible (field : FormField) : Bool :=
  ((evaluateFormState browser (fields.map FormField.toFieldSpec)
    (ofValues browser s.values)).visible.get browser.native field.name).truthy

/-- No select that is rendered meets something else than a list of options. -/
def renders : Bool :=
  fields.all fun field => !isVisible browser fields s field || (optionsOf s field).isSome

/-- `checked` of a checkbox. -/
def isChecked : Value → Bool
  | .bool value => value
  | .str text => text.map Char.toLower == "true".toList
  | .other text => text.map Char.toLower == "true".toList
  | .undefined | .null => false

/-- `selected` of a select: without options it is the empty text of the option that stands for none. -/
def selectedValue (opts : List EnumOpt) (value : Value) : Text :=
  match value with
  | .str text => if opts.any fun opt => opt.value = text then text else (opts.head?.map EnumOpt.value).getD []
  | _ => (opts.head?.map EnumOpt.value).getD []

/-- `selected` of a multiple select; `String(value ?? "")` is what `normalizeRsqlValue` computes. -/
def selectedParts (value : Value) : List Text :=
  (((normalizeRsqlValue value).splitOn ',').map trim).filter fun part => part ≠ []

/-- The options that a multiple select highlights. -/
def highlighted (opts : List EnumOpt) (value : Value) : List Text :=
  (opts.map EnumOpt.value).filter fun option => option ∈ selectedParts value

end Shown

inductive Edit where
  | enter (text : Text)
  | toggle (checked : Bool)
  | choose (value : Text)
  | chooseMany (values : List Text)

/-- What `onChange` sets. -/
def Edit.value : Edit → Json
  | .enter text => .str text
  | .toggle checked => .bool checked
  | .choose value => .str value
  | .chooseMany values => .str ([','].intercalate values)

inductive Act where
  | edit (name : Text) (edit : Edit)
  | arrive (name : Text) (opts : List EnumOpt)
  | fail (name : Text)
  | submit

/-- The values of the option elements of a select. -/
def elementValues (opts : List EnumOpt) : List Text :=
  if opts.isEmpty then [[]] else opts.map EnumOpt.value

/-- The edits that a control lets through. -/
def offers (s : State) (field : FormField) : Edit → Bool
  | .enter _ => controlOf field == .text
  | .toggle _ => controlOf field == .checkbox
  | .choose value => controlOf field == .select && !isLoading s field &&
      ((optionsOf s field).getD []).any fun opt => opt.value = value
  | .chooseMany values => controlOf field == .multiSelect && !isLoading s field &&
      decide (values.Sublist (elementValues ((optionsOf s field).getD [])))

section Step

variable (browser : Browser) (fields : List FormField)

/-- The value after the options have come: kept if it is one of them, else the first of them. -/
def settle (s : State) (name : Text) (opts : List EnumOpt) : State :=
  let value := current browser s name
  if opts.any fun opt => .str opt.value = value then s
  else match opts with
    | [] => if isEmptyValue value then s else setFieldValue s name (.str [])
    | first :: _ => setFieldValue s name (.str first.value)

/-- The value after the options have failed to come. -/
def clear (s : State) (name : Text) : State :=
  if isEmptyValue (current browser s name) then s else setFieldValue s name (.str [])

def setOptions (s : State) (name : Text) (opts : List EnumOpt) : State :=
  { s with options := Dict.set name opts s.options }

def step (s : State) : Act → Option State
  | .edit name edit =>
      if renders browser fields s && fields.any fun field =>
          field.name = name && isVisible browser fields s field && !field.readonly && offers s field edit
      then some (setFieldValue s name edit.value)
      else none
  | .arrive name opts =>
      if fields.any fun field => field.name = name && isLoading s field
      then some (settle browser (setOptions s name opts) name opts)
      else none
  | .fail name =>
      if fields.any fun field => field.name = name && isLoading s field
      then some (clear browser (setOptions s name []) name)
      else none
  | .submit =>
      if renders browser fields s && !hasMissingRequired browser (fields.map FormField.toFieldSpec)
          (ofValues browser s.values)
      then some s
      else none

def form : System State Act where
  step := step browser fields

end Step

end Declarative.FormView
end PdeOperator
