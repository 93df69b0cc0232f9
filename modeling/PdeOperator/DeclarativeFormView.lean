import PdeOperator.BaseJs
import PdeOperator.DeclarativeContract

/-! `DeclarativeRunTemplateFormView`: which fields of a template the form in the browser shows, which of
them it requires, and when it holds a submission back. -/

namespace PdeOperator
open Base Js

namespace Declarative.FormView

/-- `String` in the browser: of a function of `Object.prototype`, and of a number, an array or an
object that comes from JSON. -/
structure Browser where
  native : Text → Text
  text : Json → Text

section View

variable (browser : Browser)

/-- A value as `JSON.parse` gives it. -/
def ofJson : Json → Value
  | .null => .null
  | .bool value => .bool value
  | .str value => .str value
  | value => .other (browser.text value)

def normalizeRsqlValue : Value → Text
  | .undefined | .null => []
  | .bool true => "true".toList
  | .bool false => "false".toList
  | .str value => value
  | .other text => text

/-- An expression that does not match is false here. -/
def evaluateRsql (expression : Option Text) (values : Object) : Bool :=
  match expression with
  | none => false
  | some expression =>
      if expression.all isSpace then false
      else match Rsql.parse isSpace expression with
        | none => false
        | some condition =>
            condition.holds fun name => normalizeRsqlValue (values.get browser.native name)

/-- `userValues[f.name] !== undefined ? userValues[f.name] : f.value` -/
def resolveField (userValues : Object) (field : FieldSpec) : Value :=
  if userValues.get browser.native field.name ≠ .undefined then
    userValues.get browser.native field.name
  else ofJson browser field.value

def resolveValues (fields : List FieldSpec) (userValues : Object) : Object :=
  fields.foldl (fun out field => out.set field.name (resolveField browser userValues field)) {}

structure FormState where
  visible : Object
  required : Object
  resolved : Object

def isHidden (resolved : Object) (field : FieldSpec) : Bool :=
  field.hidden || evaluateRsql browser field.hideCondition resolved

/-- One turn of the loop over the fields; `required` asks the entry of `visible` that has just been
made. -/
def evaluateField (resolved : Object) (flags : Object × Object) (field : FieldSpec) :
    Object × Object :=
  let visible := flags.1.set field.name (.bool !isHidden browser resolved field)
  let isRequired :=
    if (visible.get browser.native field.name).truthy then
      field.required || evaluateRsql browser field.requiredCondition resolved
    else false
  (visible, flags.2.set field.name (.bool isRequired))

def evaluateFormState (fields : List FieldSpec) (values : Object) : FormState :=
  let resolved := resolveValues browser fields values
  let flags := fields.foldl (evaluateField browser resolved) ({}, {})
  { visible := flags.1, required := flags.2, resolved }

def isEmptyValue : Value → Bool
  | .undefined | .null => true
  | .str value => value.all isSpace
  | .bool _ | .other _ => false

/-- What the form starts with in a field: the default, or the first option of a select field. -/
def initialValue (field : FieldSpec) : Option Value :=
  if field.value ≠ .null then some (ofJson browser field.value)
  else match field.fieldType, field.options with
    | .select, some (first :: _) => some (.str first)
    | _, _ => none

def initialFormValues (fields : List FieldSpec) : Object :=
  fields.foldl (fun out field =>
    match initialValue browser field with
    | some value => out.set field.name value
    | none => out) {}

def hasMissingRequired (fields : List FieldSpec) (values : Object) : Bool :=
  let state := evaluateFormState browser fields values
  fields.any fun field =>
    if !(state.visible.get browser.native field.name).truthy ||
        !(state.required.get browser.native field.name).truthy then false
    else isEmptyValue (values.get browser.native field.name)

variable {browser} {fields : List FieldSpec} {values : Object}

theorem resolveValues_eq : resolveValues browser fields values =
    Object.assign (fields.map fun field => (field.name, resolveField browser values field)) := by
  rw [resolveValues, Object.assign, List.foldl_map]

theorem initialFormValues_eq : initialFormValues browser fields =
    Object.assign (fields.filterMap fun field =>
      (initialValue browser field).map (Prod.mk field.name)) := by
  rw [initialFormValues, Object.assign, List.foldl_filterMap]
  congr 1
  funext out field
  cases initialValue browser field <;> rfl

/-- The form starts with an entry for every default, unless the field is called `__proto__`. -/
theorem lookup_initialFormValues (hnodup : (fields.map FieldSpec.name).Nodup) {field : FieldSpec}
    (hfield : field ∈ fields) (hdefault : field.value ≠ .null) (hname : field.name ≠ proto) :
    (initialFormValues browser fields).own.lookup field.name = some (ofJson browser field.value) := by
  have hkeys : ((fields.filterMap fun field =>
      (initialValue browser field).map (Prod.mk field.name)).map Prod.fst).Nodup := by
    refine hnodup.sublist ?_
    have hnamed := Dict.keys_filterMap_sublist
      (f := fun entry : Text × FieldSpec => (initialValue browser entry.2).map (Prod.mk entry.1)) ?_
      (fields.map fun field => (field.name, field))
    · rwa [List.filterMap_map, List.map_map] at hnamed
    · intro entry result hresult
      obtain ⟨value, -, rfl⟩ := Option.map_eq_some_iff.mp hresult
      rfl
  have hvalue : initialValue browser field = some (ofJson browser field.value) := if_pos hdefault
  rw [initialFormValues_eq, Object.assign_eq hkeys,
    Dict.lookup_eq_some_iff (hkeys.sublist (List.filter_sublist.map Prod.fst)), List.mem_filter,
    List.mem_filterMap]
  refine ⟨⟨field, hfield, ?_⟩, decide_eq_true hname⟩
  rw [hvalue]
  rfl

variable (browser) in
/-- The flag that ends up under the name of a field; an own property `__proto__` never comes to be, and
the prototype counts as true. -/
def shows (resolved : Object) (field : FieldSpec) : Bool :=
  decide (field.name = proto) || !isHidden browser resolved field

variable (browser) in
def requires (resolved : Object) (field : FieldSpec) : Bool :=
  shows browser resolved field &&
    (field.required || evaluateRsql browser field.requiredCondition resolved)

theorem names_map (f : FieldSpec → Value) (fields : List FieldSpec) :
    (fields.map fun field => (field.name, f field)).map Prod.fst = fields.map FieldSpec.name := by
  rw [List.map_map]
  rfl

/-- Reading a flag that is assigned a boolean. -/
theorem truthy_get_assign (hnodup : (fields.map FieldSpec.name).Nodup) {field : FieldSpec}
    (hfield : field ∈ fields) (flag : FieldSpec → Bool) :
    ((Object.assign (fields.map fun field => (field.name, .bool (flag field)))).get browser.native
      field.name).truthy = (decide (field.name = proto) || flag field) := by
  have hkeys : ((fields.map fun field => (field.name, Value.bool (flag field))).map
      Prod.fst).Nodup := by
    rw [names_map]
    exact hnodup
  by_cases hname : field.name = proto
  · have huncut : (proto, Value.null) ∉
        fields.map fun field => (field.name, Value.bool (flag field)) := by
      intro hmem
      obtain ⟨other, -, heq⟩ := List.mem_map.mp hmem
      exact absurd (Prod.mk.inj heq).2 nofun
    rw [Object.get_assign_of_absent browser.native hkeys (Or.inl hname), if_neg huncut, inherited,
      if_pos hname, decide_eq_true hname]
    rfl
  · rw [Object.get_assign_of_mem browser.native hkeys (List.mem_map.mpr ⟨field, hfield, rfl⟩) hname,
      decide_eq_false hname]
    rfl

/-- The loop assigns to every name its own two flags. -/
theorem foldl_evaluateField (resolved : Object) (hnodup : (fields.map FieldSpec.name).Nodup) :
    fields.foldl (evaluateField browser resolved) ({}, {}) =
      (Object.assign (fields.map fun field =>
          (field.name, .bool !isHidden browser resolved field)),
        Object.assign (fields.map fun field =>
          (field.name, .bool (requires browser resolved field)))) := by
  induction fields using List.reverseRecOn with
  | nil => rfl
  | append_singleton fields field ih =>
      have hbefore : (fields.map FieldSpec.name).Nodup := by
        rw [List.map_append] at hnodup
        exact hnodup.of_append_left
      have hvisible : ((Object.assign ((fields ++ [field]).map fun field =>
          (field.name, .bool !isHidden browser resolved field))).get browser.native
            field.name).truthy = (decide (field.name = proto) || !isHidden browser resolved field) :=
        truthy_get_assign hnodup (List.mem_append_right fields (List.mem_singleton_self field)) _
      rw [List.foldl_append, ih hbefore, List.foldl_cons, List.foldl_nil, evaluateField]
      dsimp only
      rw [List.map_append, List.map_singleton, Object.assign_concat] at hvisible
      rw [hvisible, List.map_append, List.map_singleton, Object.assign_concat, List.map_append,
        List.map_singleton, Object.assign_concat, requires, shows]
      cases decide (field.name = proto) || !isHidden browser resolved field <;> rfl

theorem visible_eq (hnodup : (fields.map FieldSpec.name).Nodup) {field : FieldSpec}
    (hfield : field ∈ fields) :
    ((evaluateFormState browser fields values).visible.get browser.native field.name).truthy =
      shows browser (resolveValues browser fields values) field := by
  rw [evaluateFormState]
  dsimp only
  rw [foldl_evaluateField _ hnodup]
  exact truthy_get_assign hnodup hfield _

theorem required_eq (hnodup : (fields.map FieldSpec.name).Nodup) {field : FieldSpec}
    (hfield : field ∈ fields) :
    ((evaluateFormState browser fields values).required.get browser.native field.name).truthy =
      (decide (field.name = proto) || requires browser (resolveValues browser fields values) field) := by
  rw [evaluateFormState]
  dsimp only
  rw [foldl_evaluateField _ hnodup]
  exact truthy_get_assign hnodup hfield _

/-- A submission is held back for an empty field that is shown and required. -/
theorem hasMissingRequired_iff : hasMissingRequired browser fields values = true ↔ ∃ field ∈ fields,
    ((evaluateFormState browser fields values).visible.get browser.native field.name).truthy = true ∧
    ((evaluateFormState browser fields values).required.get browser.native field.name).truthy = true ∧
    isEmptyValue (values.get browser.native field.name) = true := by
  rw [hasMissingRequired, List.any_eq_true]
  refine exists_congr fun field => and_congr_right fun _ => ?_
  cases ((evaluateFormState browser fields values).visible.get browser.native field.name).truthy with
  | false => simp
  | true =>
      cases ((evaluateFormState browser fields values).required.get browser.native
        field.name).truthy with
      | false => simp
      | true => simp

end View

end Declarative.FormView
end PdeOperator
