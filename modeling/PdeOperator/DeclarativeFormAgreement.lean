import PdeOperator.DeclarativeFormView
import PdeOperator.DeclarativeServer

/-! The form in the browser and the server on the same values: when they show the same fields, require
the same fields and miss the same values. -/

namespace PdeOperator
open Base

namespace Declarative

/-- The white space that a text may have. -/
def PlainSpace (text : Text) : Prop :=
  ∀ c ∈ text, (Text.isSpace c || Js.isSpace c) = true → c ∈ [' ', '\t', '\r', '\n']

/-- An expression that is blank or matches. -/
def IsReadable (expression : Option Text) : Prop :=
  ∀ text, expression = some text → PlainSpace text ∧
    (Text.isBlank text = true ∨ (Rsql.parse Text.isSpace text).isSome = true)

/-- A string, a boolean or null. -/
def IsFormValue : Json → Prop
  | .null | .bool _ => True
  | .str text => PlainSpace text
  | .int _ | .float _ | .arr _ | .obj _ => False

/-- What a form and its contract may be. -/
structure FormDomain (contract : DeclarativeRunTemplate) (values : JsonObject) : Prop where
  names : (contract.fields.map FieldSpec.name).Nodup
  conditions : ∀ field ∈ contract.fields,
    IsReadable field.hideCondition ∧ IsReadable field.requiredCondition
  defaults : ∀ field ∈ contract.fields, IsFormValue field.value
  given : ∀ name value, Json.get values name = some value → IsFormValue value
  entries : ∀ field ∈ contract.fields, field.value ≠ .null →
    (Json.get values field.name).isSome = true

theorem IsReadable.isWellFormed {expression : Option Text} (h : IsReadable expression) :
    Rsql.IsWellFormed expression :=
  fun text htext => (h text htext).2

theorem FormDomain.wellFormed {contract : DeclarativeRunTemplate} {values : JsonObject}
    (h : FormDomain contract values) : contract.WellFormed where
  names := h.names
  conditions field hfield :=
    ⟨(h.conditions field hfield).1.isWellFormed, (h.conditions field hfield).2.isWellFormed⟩

section Server

variable {lib : EngineLibrary} {contract : DeclarativeRunTemplate} {values : JsonObject}


/-- The turn of a field with an empty value that is visible and required. -/
def FindsMissing (lib : EngineLibrary) (effective : EffectiveFormState) : Prop :=
  ∃ entry ∈ effective.fields,
    Engine.collectField lib effective entry = .error (.missingRequired entry.1)

theorem validatePatterns_ne (name value : Text) (validators : List ValidatorPattern)
    (missing : Text) :
    validatePatterns lib name value validators ≠ .error (.missingRequired missing) := by
  induction validators with
  | nil => exact nofun
  | cons validator rest ih =>
      rw [validatePatterns]
      split
      · exact nofun
      · exact nofun
      · exact ih

theorem validateOptions_ne (field : FieldSpec) (value missing : Text) :
    validateOptions field value ≠ .error (.missingRequired missing) := by
  unfold validateOptions
  split
  · exact nofun
  · dsimp only
    split <;> split <;> exact nofun

/-- A validator never reports a missing value. -/
theorem validateField_ne (field : FieldSpec) (value : Json) (missing : Text) :
    validateField lib field value ≠ .error (.missingRequired missing) := by
  unfold validateField
  split
  · exact validatePatterns_ne _ _ _ missing
  · exact nofun
  · exact nofun
  · split <;> exact nofun
  · exact nofun
  · intro heq
    rcases bind_eq_error.mp heq with hpatterns | ⟨_, -, hoptions⟩
    · exact validatePatterns_ne _ _ _ missing hpatterns
    · exact validateOptions_ne field _ missing hoptions
  · exact nofun

theorem collectField_missing_iff {effective : EffectiveFormState} {entry : Text × FieldSpec} :
    Engine.collectField lib effective entry = .error (.missingRequired entry.1) ↔
      Engine.isEmpty (Rsql.getValue effective.resolvedValues entry.1) = true ∧
        effective.visible entry.1 = true ∧ effective.required entry.1 = true := by
  unfold Engine.collectField
  dsimp only
  by_cases hempty : Engine.isEmpty (Rsql.getValue effective.resolvedValues entry.1) = true
  · rw [if_pos hempty]
    by_cases hflags : (effective.visible entry.1 && effective.required entry.1) = true
    · rw [if_pos hflags]
      exact iff_of_true rfl ⟨hempty, Bool.and_eq_true_iff.mp hflags⟩
    · rw [if_neg hflags]
      refine iff_of_false nofun fun h => hflags (Bool.and_eq_true_iff.mpr h.2)
  · rw [if_neg hempty]
    refine iff_of_false (fun heq => ?_) fun h => hempty h.1
    cases hvisible : effective.visible entry.1 with
    | false =>
        rw [hvisible] at heq
        cases heq
    | true =>
        rw [hvisible, if_pos rfl] at heq
        cases hturn : validateField lib entry.2 (Rsql.getValue effective.resolvedValues entry.1) with
        | ok _ =>
            rw [hturn] at heq
            cases heq
        | error error =>
            rw [hturn] at heq
            obtain rfl := Except.error.inj heq
            exact validateField_ne _ _ _ hturn

end Server

/-! ### The browser in closed form -/

section Browser

variable {browser : FormView.Browser} {lib : EngineLibrary} {contract : DeclarativeRunTemplate}
  {values : JsonObject}

/-- White space is the same in both languages where it is plain. -/
theorem isSpace_eq {text : Text} (h : PlainSpace text) : ∀ c ∈ text, Js.isSpace c = Text.isSpace c := by
  intro c hc
  by_cases hspace : (Text.isSpace c || Js.isSpace c) = true
  · have hplain := h c hc hspace
    simp only [List.mem_cons, List.not_mem_nil, or_false] at hplain
    rcases hplain with rfl | rfl | rfl | rfl <;> decide
  · rw [Bool.or_eq_true, not_or, Bool.not_eq_true, Bool.not_eq_true] at hspace
    rw [hspace.1, hspace.2]

theorem all_isSpace_eq {text : Text} (h : PlainSpace text) : text.all Js.isSpace = Text.isBlank text := by
  rw [Text.isBlank, Bool.eq_iff_iff, List.all_eq_true, List.all_eq_true]
  exact forall₂_congr fun c hc => by rw [isSpace_eq h c hc]

theorem formEvaluateRsql_eq {expression : Option Text} (h : IsReadable expression) (o : Js.Object) :
    FormView.evaluateRsql browser expression o =
      Rsql.outcome expression fun name => FormView.normalizeRsqlValue (o.get browser.native name) := by
  cases expression with
  | none => rfl
  | some expression =>
      obtain ⟨hplain, -⟩ := h _ rfl
      have hparse := Rsql.parse_congr (isSpace_eq hplain)
      cases hread : Rsql.parse Text.isSpace expression with
      | none =>
          simp only [FormView.evaluateRsql, Rsql.outcome, all_isSpace_eq hplain, hparse, hread]
      | some condition =>
          simp only [FormView.evaluateRsql, Rsql.outcome, all_isSpace_eq hplain, hparse, hread]

theorem normalize_ofJson {value : Json} (h : IsFormValue value) :
    FormView.normalizeRsqlValue (FormView.ofJson browser value) = Rsql.normalize lib value := by
  cases value with
  | null => rfl
  | bool value => cases value <;> rfl
  | str text => rfl
  | int _ | float _ | arr _ | obj _ => exact h.elim

theorem isEmptyValue_ofJson {value : Json} (h : IsFormValue value) :
    FormView.isEmptyValue (FormView.ofJson browser value) = Engine.isEmpty value := by
  cases value with
  | null => rfl
  | bool value => rfl
  | str text => exact all_isSpace_eq h
  | int _ | float _ | arr _ | obj _ => exact h.elim

variable (browser) in
/-- The values of the form: own properties of an object literal. -/
def ofValues (values : JsonObject) : Js.Object where
  own := values.map fun entry => (entry.1, FormView.ofJson browser entry.2)

theorem get_ofValues (name : Text) : (ofValues browser values).get browser.native name =
    match Json.get values name with
    | some value => FormView.ofJson browser value
    | none => Js.inherited browser.native name := by
  have hlookup : (ofValues browser values).own.lookup name =
      (Json.get values name).map (FormView.ofJson browser) := by
    rw [ofValues, Json.get]
    dsimp only
    induction values with
    | nil => rfl
    | cons entry values ih =>
        rw [List.map_cons, List.lookup_cons, List.lookup_cons, ih]
        cases name == entry.1 <;> rfl
  rw [Js.Object.get, hlookup]
  cases Json.get values name <;> rfl

/-- The form has an entry for a name. -/
def HasEntry (values : JsonObject) (name : Text) : Prop := (Json.get values name).isSome = true

/-- The field `__proto__` is given null: the resolved values lose their prototype. -/
def CutsPrototype (contract : DeclarativeRunTemplate) (values : JsonObject) : Prop :=
  Js.proto ∈ contract.fields.map FieldSpec.name ∧ Json.get values Js.proto = some .null

/-- A name of `Object.prototype` that the resolved values of the form have not got themselves. -/
def Misread (contract : DeclarativeRunTemplate) (values : JsonObject) (name : Text) : Prop :=
  name ∈ Js.prototypeNames ∧
    if name ≠ Js.proto ∧ name ∈ contract.fields.map FieldSpec.name then ¬HasEntry values name
    else ¬CutsPrototype contract values

instance (values : JsonObject) (name : Text) : Decidable (HasEntry values name) :=
  inferInstanceAs (Decidable (_ = _))

instance (contract : DeclarativeRunTemplate) (values : JsonObject) :
    Decidable (CutsPrototype contract values) := inferInstanceAs (Decidable (_ ∧ _))

instance (contract : DeclarativeRunTemplate) (values : JsonObject) (name : Text) :
    Decidable (Misread contract values name) := inferInstanceAs (Decidable (_ ∧ _))

theorem misread_of_own {name : Text}
    (h : name ≠ Js.proto ∧ name ∈ contract.fields.map FieldSpec.name) :
    Misread contract values name ↔ name ∈ Js.prototypeNames ∧ ¬HasEntry values name := by
  rw [Misread, if_pos h]

theorem misread_of_absent {name : Text}
    (h : ¬(name ≠ Js.proto ∧ name ∈ contract.fields.map FieldSpec.name)) :
    Misread contract values name ↔ name ∈ Js.prototypeNames ∧ ¬CutsPrototype contract values := by
  rw [Misread, if_neg h]

variable (browser lib contract values) in
/-- The text of a name in the conditions of the form. -/
def formText (name : Text) : Text :=
  if Misread contract values name then
    FormView.normalizeRsqlValue (Js.inherited browser.native name)
  else serverText lib contract values name

/-- What the form resolves a field to. -/
theorem formResolveField_eq {field : FieldSpec} :
    FormView.resolveField browser (ofValues browser values) field =
      match Json.get values field.name with
      | some value => FormView.ofJson browser value
      | none =>
          if field.name ∈ Js.prototypeNames then Js.inherited browser.native field.name
          else FormView.ofJson browser field.value := by
  have hdefined : ∀ value, FormView.ofJson browser value ≠ .undefined := by
    intro value
    cases value <;> exact nofun
  rw [FormView.resolveField, get_ofValues]
  cases Json.get values field.name with
  | some value => exact if_pos (hdefined value)
  | none =>
      by_cases hname : field.name ∈ Js.prototypeNames
      · obtain ⟨text, htext⟩ : ∃ text, Js.inherited browser.native field.name = .other text :=
          Js.inherited_of_mem hname
        simp only [htext, if_pos hname]
        exact if_pos nofun
      · simp only [Js.inherited_of_notMem hname, if_neg hname]
        exact if_neg fun h => h rfl

theorem resolvedPairs_keys : ((contract.fields.map fun field =>
    (field.name, FormView.resolveField browser (ofValues browser values) field)).map Prod.fst) =
      contract.fields.map FieldSpec.name := FormView.names_map _ _

/-- The prototype is cut off by null only, and null is resolved for `__proto__` when it is given. -/
theorem cutsPrototype_iff : CutsPrototype contract values ↔ (Js.proto, Js.Value.null) ∈
    contract.fields.map fun field =>
      (field.name, FormView.resolveField browser (ofValues browser values) field) := by
  have hnull : ∀ value, FormView.ofJson browser value = .null ↔ value = .null := by
    intro value
    cases value <;> simp [FormView.ofJson]
  rw [CutsPrototype, List.mem_map, List.mem_map]
  constructor
  · rintro ⟨⟨field, hfield, hname⟩, hvalue⟩
    refine ⟨field, hfield, ?_⟩
    rw [formResolveField_eq, hname, hvalue]
    rfl
  · rintro ⟨field, hfield, heq⟩
    obtain ⟨hname, hvalue⟩ := Prod.mk.inj heq
    refine ⟨⟨field, hfield, hname⟩, ?_⟩
    rw [formResolveField_eq, hname] at hvalue
    cases hgiven : Json.get values Js.proto with
    | some value =>
        simp only [hgiven] at hvalue
        rw [(hnull value).mp hvalue]
    | none =>
        simp only [hgiven] at hvalue
        exact absurd hvalue nofun

theorem nodup_resolvedPairs (hdomain : FormDomain contract values) :
    ((contract.fields.map fun field => (field.name,
      FormView.resolveField browser (ofValues browser values) field)).map Prod.fst).Nodup := by
  rw [resolvedPairs_keys]
  exact hdomain.names

/-- What the conditions of the form read under the name of a field. -/
theorem normalize_own (hdomain : FormDomain contract values) {field : FieldSpec}
    (hfield : field ∈ contract.fields) (hproto : field.name ≠ Js.proto) :
    FormView.normalizeRsqlValue ((FormView.resolveValues browser contract.fields
      (ofValues browser values)).get browser.native field.name) =
      formText browser lib contract values field.name := by
  have hmisread : Misread contract values field.name ↔ _ :=
    misread_of_own ⟨hproto, List.mem_map_of_mem hfield⟩
  have hserver : serverText lib contract values field.name =
      Rsql.normalize lib (resolveField values field.name field) := by
    rw [serverText, getValue_eq hdomain.wellFormed hfield]
  rw [FormView.resolveValues_eq, Js.Object.get_assign_of_mem browser.native
    (nodup_resolvedPairs hdomain) (List.mem_map.mpr ⟨field, hfield, rfl⟩) hproto,
    formResolveField_eq, formText, hserver, resolveField]
  cases hgiven : Json.get values field.name with
  | some value =>
      have hentry : HasEntry values field.name := by rw [HasEntry, hgiven]; rfl
      rw [if_neg fun h => (hmisread.mp h).2 hentry]
      exact normalize_ofJson (hdomain.given _ _ hgiven)
  | none =>
      by_cases hinherited : field.name ∈ Js.prototypeNames
      · have hentry : ¬HasEntry values field.name := by rw [HasEntry, hgiven]; exact nofun
        rw [if_pos (hmisread.mpr ⟨hinherited, hentry⟩)]
        simp only [if_pos hinherited]
      · rw [if_neg fun h => hinherited (hmisread.mp h).1]
        simp only [if_neg hinherited]
        exact normalize_ofJson (hdomain.defaults field hfield)

/-- Where the form reads nothing the server has nothing: no such field, or `__proto__` at null. -/
theorem serverText_eq_nil (hdomain : FormDomain contract values) {name : Text}
    (habsent : name = Js.proto ∨ name ∉ contract.fields.map FieldSpec.name)
    (hnothing : CutsPrototype contract values ∨ name ∉ Js.prototypeNames) :
    serverText lib contract values name = [] := by
  rcases habsent with rfl | habsent
  · rcases hnothing with hcut | hnot
    · obtain ⟨field, hfield, hname⟩ := List.mem_map.mp hcut.1
      rw [serverText, ← hname, getValue_eq hdomain.wellFormed hfield, resolveField, hname, hcut.2]
      rfl
    · exact absurd List.mem_cons_self hnot
  · rw [serverText, getValue_resolveValues_of_notMem]
    · rfl
    · rw [fieldsByName_eq hdomain.names, List.map_map]
      exact habsent

/-- What they read under a name that is no own property of the resolved values. -/
theorem normalize_absent (hdomain : FormDomain contract values) {name : Text}
    (hown : ¬(name ≠ Js.proto ∧ name ∈ contract.fields.map FieldSpec.name)) :
    FormView.normalizeRsqlValue ((FormView.resolveValues browser contract.fields
      (ofValues browser values)).get browser.native name) =
      formText browser lib contract values name := by
  have hmisread : Misread contract values name ↔ _ := misread_of_absent hown
  have habsent : name = Js.proto ∨ name ∉ contract.fields.map FieldSpec.name := by
    by_cases hproto : name = Js.proto
    · exact Or.inl hproto
    · exact Or.inr fun hmem => hown ⟨hproto, hmem⟩
  rw [FormView.resolveValues_eq, Js.Object.get_assign_of_absent browser.native
    (nodup_resolvedPairs hdomain) (by rwa [resolvedPairs_keys]), formText]
  by_cases hcut : CutsPrototype contract values
  · rw [if_pos (cutsPrototype_iff.mp hcut), if_neg fun h => (hmisread.mp h).2 hcut,
      serverText_eq_nil hdomain habsent (Or.inl hcut)]
    rfl
  · rw [if_neg fun h => hcut (cutsPrototype_iff.mpr h)]
    by_cases hinherited : name ∈ Js.prototypeNames
    · rw [if_pos (hmisread.mpr ⟨hinherited, hcut⟩)]
    · rw [if_neg fun h => hinherited (hmisread.mp h).1, Js.inherited_of_notMem hinherited,
        serverText_eq_nil hdomain habsent (Or.inr hinherited)]
      rfl

theorem normalize_resolved (hdomain : FormDomain contract values) (name : Text) :
    FormView.normalizeRsqlValue ((FormView.resolveValues browser contract.fields
      (ofValues browser values)).get browser.native name) =
      formText browser lib contract values name := by
  by_cases hown : name ≠ Js.proto ∧ name ∈ contract.fields.map FieldSpec.name
  · obtain ⟨hproto, hname⟩ := hown
    obtain ⟨field, hfield, rfl⟩ := List.mem_map.mp hname
    exact normalize_own hdomain hfield hproto
  · exact normalize_absent hdomain hown

/-- What the form shows and requires, over the texts that its conditions read. -/
theorem form_flags (hdomain : FormDomain contract values) {field : FieldSpec}
    (hfield : field ∈ contract.fields) :
    ((FormView.evaluateFormState browser contract.fields (ofValues browser values)).visible.get
        browser.native field.name).truthy =
      (decide (field.name = Js.proto) ||
        (field.flagsOf (formText browser lib contract values)).visible) ∧
    ((FormView.evaluateFormState browser contract.fields (ofValues browser values)).required.get
        browser.native field.name).truthy =
      (decide (field.name = Js.proto) ||
        (field.flagsOf (formText browser lib contract values)).required) := by
  obtain ⟨hhide, hrequire⟩ := hdomain.conditions field hfield
  have hread : ∀ name, FormView.normalizeRsqlValue ((FormView.resolveValues browser contract.fields
      (ofValues browser values)).get browser.native name) = formText browser lib contract values name :=
    normalize_resolved hdomain
  have hhidden : FormView.isHidden browser
      (FormView.resolveValues browser contract.fields (ofValues browser values)) field =
        (field.hidden ||
          Rsql.outcome field.hideCondition (formText browser lib contract values)) := by
    rw [FormView.isHidden, formEvaluateRsql_eq hhide]
    simp only [hread]
  rw [FormView.visible_eq hdomain.names hfield, FormView.required_eq hdomain.names hfield,
    FormView.requires, FormView.shows, hhidden, formEvaluateRsql_eq hrequire]
  simp only [hread, FieldSpec.flagsOf]
  by_cases hproto : field.name = Js.proto
  · simp [hproto]
  · simp [hproto]

end Browser

section Agreement

variable (browser : FormView.Browser) (lib : EngineLibrary) (contract : DeclarativeRunTemplate)
  (values : JsonObject)

/-- Every field is shown and required by the form as it is by the server. -/
def SameFlags (effective : EffectiveFormState) : Prop :=
  ∀ field ∈ contract.fields,
    ((FormView.evaluateFormState browser contract.fields (ofValues browser values)).visible.get
        browser.native field.name).truthy = effective.visible field.name ∧
      ((FormView.evaluateFormState browser contract.fields (ofValues browser values)).required.get
        browser.native field.name).truthy = effective.required field.name

/-- A required field that has to be shown, and has no value. -/
def IsMissing (field : FieldSpec) : Prop :=
  (field.flagsOf (serverText lib contract values)).required = true ∧
    Engine.isEmpty (resolveField values field.name field) = true

/-- No name of `Object.prototype` makes a difference. -/
structure ReadsAlike : Prop where
  hide : ∀ field ∈ contract.fields, field.name ≠ Js.proto → field.hidden = false →
    Rsql.outcome field.hideCondition (formText browser lib contract values) =
      Rsql.outcome field.hideCondition (serverText lib contract values)
  require : ∀ field ∈ contract.fields, field.name ≠ Js.proto →
    (field.flagsOf (serverText lib contract values)).visible = true → field.required = false →
    Rsql.outcome field.requiredCondition (formText browser lib contract values) =
      Rsql.outcome field.requiredCondition (serverText lib contract values)
  proto : ∀ field ∈ contract.fields, field.name = Js.proto →
    (field.flagsOf (serverText lib contract values)).required = true
  missing : (∃ field ∈ contract.fields, IsMissing lib contract values field) →
    ∃ field ∈ contract.fields, IsMissing lib contract values field ∧
      (HasEntry values field.name ∨ field.name ∉ Js.prototypeNames)

variable {browser lib contract values}

theorem findsMissing_iff {effective : EffectiveFormState} (hdomain : FormDomain contract values)
    (h : evaluate lib contract values = .ok effective) :
    FindsMissing lib effective ↔ ∃ field ∈ contract.fields, IsMissing lib contract values field := by
  have hturn : ∀ field ∈ contract.fields,
      (Engine.collectField lib effective (field.name, field) =
        .error (.missingRequired field.name) ↔ IsMissing lib contract values field) := by
    intro field hfield
    obtain ⟨hvisible, hrequired⟩ := effective_flags hdomain.wellFormed h hfield
    have hcollect : Engine.collectField lib effective (field.name, field) = _ ↔ _ :=
      collectField_missing_iff
    rw [hcollect, evaluate_resolvedValues h, getValue_eq hdomain.wellFormed hfield, hvisible, hrequired, IsMissing]
    constructor
    · exact fun ⟨hempty, _, hrequired⟩ => ⟨hrequired, hempty⟩
    · intro ⟨hrequired, hempty⟩
      exact ⟨hempty, (Bool.and_eq_true_iff.mp hrequired).1, hrequired⟩
  rw [FindsMissing, evaluate_fields h]
  constructor
  · rintro ⟨⟨name, field⟩, hentry, hcollect⟩
    obtain ⟨hfield, rfl⟩ := (mem_fieldsByName_iff hdomain.names).mp hentry
    exact ⟨field, hfield, (hturn field hfield).mp hcollect⟩
  · rintro ⟨field, hfield, hmissing⟩
    exact ⟨(field.name, field), (mem_fieldsByName_iff hdomain.names).mpr ⟨hfield, rfl⟩,
      (hturn field hfield).mpr hmissing⟩

/-- A value is empty in the form when it is empty on the server and not read from the prototype. -/
theorem isEmptyValue_get_iff (hdomain : FormDomain contract values) {field : FieldSpec}
    (hfield : field ∈ contract.fields) :
    FormView.isEmptyValue ((ofValues browser values).get browser.native field.name) = true ↔
      Engine.isEmpty (resolveField values field.name field) = true ∧
        (HasEntry values field.name ∨ field.name ∉ Js.prototypeNames) := by
  rw [get_ofValues, resolveField, HasEntry]
  cases hgiven : Json.get values field.name with
  | some value =>
      simp only [isEmptyValue_ofJson (hdomain.given _ _ hgiven), Option.getD_some, Option.isSome_some,
        true_or, and_true]
  | none =>
      have hdefault : field.value = .null := by
        by_contra hvalue
        have hentry := hdomain.entries field hfield hvalue
        rw [hgiven] at hentry
        cases hentry
      rw [Option.getD_none, hdefault]
      by_cases hinherited : field.name ∈ Js.prototypeNames
      · obtain ⟨text, htext⟩ : ∃ text, Js.inherited browser.native field.name = .other text :=
          Js.inherited_of_mem hinherited
        simp [htext, FormView.isEmptyValue, hinherited]
      · simp [Js.inherited_of_notMem hinherited, FormView.isEmptyValue, Engine.isEmpty, hinherited]

theorem flags_agree_iff : ∀ hidden hides hides' required requires requires' : Bool,
    ((!(hidden || hides)) = (!(hidden || hides')) ∧
        (!(hidden || hides) && (required || requires)) =
          (!(hidden || hides') && (required || requires'))) ↔
      (hidden = false → hides = hides') ∧
        ((!(hidden || hides')) = true → required = false → requires = requires') := by
  decide

/-- The flags agree when each condition that counts comes to the same, and the field `__proto__` is one
that the server requires. -/
theorem sameFlags_iff {effective : EffectiveFormState} (hdomain : FormDomain contract values)
    (h : evaluate lib contract values = .ok effective) :
    SameFlags browser contract values effective ↔ ∀ field ∈ contract.fields,
      (field.name ≠ Js.proto → field.hidden = false →
        Rsql.outcome field.hideCondition (formText browser lib contract values) =
          Rsql.outcome field.hideCondition (serverText lib contract values)) ∧
      (field.name ≠ Js.proto → (field.flagsOf (serverText lib contract values)).visible = true →
        field.required = false →
        Rsql.outcome field.requiredCondition (formText browser lib contract values) =
          Rsql.outcome field.requiredCondition (serverText lib contract values)) ∧
      (field.name = Js.proto → (field.flagsOf (serverText lib contract values)).required = true) := by
  refine forall₂_congr fun field hfield => ?_
  obtain ⟨hvisible, hrequired⟩ := effective_flags hdomain.wellFormed h hfield
  obtain ⟨hformVisible, hformRequired⟩ :
      _ = (_ || (field.flagsOf (formText browser lib contract values)).visible) ∧ _ :=
    form_flags hdomain hfield
  rw [hformVisible, hformRequired, hvisible, hrequired]
  by_cases hproto : field.name = Js.proto
  · simp only [hproto, decide_true, Bool.true_or, ne_eq, not_true_eq_false, false_implies, true_and,
      true_implies]
    constructor
    · exact fun hboth => hboth.2.symm
    · intro hserver
      exact ⟨((Bool.and_eq_true_iff.mp hserver).1).symm, hserver.symm⟩
  · simp only [hproto, decide_false, Bool.false_or, ne_eq, not_false_eq_true, true_implies,
      false_implies, and_true]
    exact flags_agree_iff _ _ _ _ _ _

/-- Where the flags agree, the form misses the fields that the server misses, apart from those that it
reads from the prototype. -/
theorem hasMissingRequired_of_sameFlags {effective : EffectiveFormState}
    (hdomain : FormDomain contract values) (h : evaluate lib contract values = .ok effective)
    (hsame : SameFlags browser contract values effective) :
    FormView.hasMissingRequired browser contract.fields (ofValues browser values) = true ↔
      ∃ field ∈ contract.fields, IsMissing lib contract values field ∧
        (HasEntry values field.name ∨ field.name ∉ Js.prototypeNames) := by
  rw [FormView.hasMissingRequired_iff]
  refine exists_congr fun field => and_congr_right fun hfield => ?_
  obtain ⟨hvisible, hrequired⟩ := effective_flags hdomain.wellFormed h hfield
  rw [(hsame field hfield).1, (hsame field hfield).2, hvisible, hrequired,
    isEmptyValue_get_iff hdomain hfield, IsMissing]
  constructor
  · exact fun ⟨_, hrequired, hempty, hread⟩ => ⟨⟨hrequired, hempty⟩, hread⟩
  · exact fun ⟨⟨hrequired, hempty⟩, hread⟩ =>
      ⟨(Bool.and_eq_true_iff.mp hrequired).1, hrequired, hempty, hread⟩

/-- The form and the server agree on visible, required and missing fields if and only if no name of
`Object.prototype` makes a difference. -/
theorem form_agrees_iff (hdomain : FormDomain contract values) :
    ∃ effective, evaluate lib contract values = .ok effective ∧
      (SameFlags browser contract values effective ∧
          (FormView.hasMissingRequired browser contract.fields (ofValues browser values) = true ↔
            FindsMissing lib effective) ↔
        ReadsAlike browser lib contract values) := by
  obtain ⟨effective, hevaluate⟩ : ∃ effective, evaluate lib contract values = .ok effective :=
    ⟨_, evaluate_eq hdomain.wellFormed⟩
  refine ⟨effective, hevaluate, ?_⟩
  rw [findsMissing_iff hdomain hevaluate]
  constructor
  · rintro ⟨hsame, hmissing⟩
    rw [hasMissingRequired_of_sameFlags hdomain hevaluate hsame] at hmissing
    have hflags := (sameFlags_iff hdomain hevaluate).mp hsame
    exact ⟨fun field hfield => (hflags field hfield).1, fun field hfield => (hflags field hfield).2.1,
      fun field hfield => (hflags field hfield).2.2, hmissing.mpr⟩
  · intro hreads
    have hsame := (sameFlags_iff hdomain hevaluate).mpr fun field hfield =>
      ⟨hreads.hide field hfield, hreads.require field hfield, hreads.proto field hfield⟩
    refine ⟨hsame, ?_⟩
    rw [hasMissingRequired_of_sameFlags hdomain hevaluate hsame]
    exact ⟨fun ⟨field, hfield, hmissing, _⟩ => ⟨field, hfield, hmissing⟩, hreads.missing⟩

/-- They agree on every contract whose fields and conditions keep off the names of
`Object.prototype`. -/
theorem readsAlike_of_ordinary (h : ∀ field ∈ contract.fields, field.name ∉ Js.prototypeNames ∧
    ∀ name ∈ Rsql.mentions field.hideCondition ++ Rsql.mentions field.requiredCondition,
      name ∉ Js.prototypeNames) : ReadsAlike browser lib contract values := by
  have htext : ∀ name, name ∉ Js.prototypeNames →
      formText browser lib contract values name = serverText lib contract values name :=
    fun name hname => if_neg fun hmisread => hname hmisread.1
  constructor
  · intro field hfield _ _
    exact Rsql.outcome_congr fun name hname =>
      htext name ((h field hfield).2 name (List.mem_append_left _ hname))
  · intro field hfield _ _ _
    exact Rsql.outcome_congr fun name hname =>
      htext name ((h field hfield).2 name (List.mem_append_right _ hname))
  · intro field hfield hproto
    exact absurd (hproto ▸ List.mem_cons_self) (h field hfield).1
  · rintro ⟨field, hfield, hmissing⟩
    exact ⟨field, hfield, hmissing, Or.inr (h field hfield).1⟩

end Agreement

instance (text : Text) : Decidable (PlainSpace text) :=
  Text.decidableForallChar text
    fun c => (Text.isSpace c || Js.isSpace c) = true → c ∈ [' ', '\t', '\r', '\n']

instance : (expression : Option Text) → Decidable (IsReadable expression)
  | none => isTrue nofun
  | some text =>
      decidable_of_iff (PlainSpace text ∧
          (Text.isBlank text = true ∨ (Rsql.parse Text.isSpace text).isSome = true))
        ⟨fun h _ heq => Option.some.inj heq ▸ h, fun h => h text rfl⟩

instance : (value : Json) → Decidable (IsFormValue value)
  | .null | .bool _ => isTrue trivial
  | .str text => inferInstanceAs (Decidable (PlainSpace text))
  | .int _ | .float _ | .arr _ | .obj _ => isFalse id

theorem given_of_entries {values : JsonObject} (h : ∀ entry ∈ values, IsFormValue entry.2)
    (name : Text) (value : Json) (hvalue : Json.get values name = some value) : IsFormValue value := by
  obtain ⟨before, after, rfl, -⟩ := List.lookup_eq_some_iff.mp hvalue
  exact h (name, value) (List.mem_append_right _ List.mem_cons_self)

/-- The texts that V8 gives its functions. -/
def sampleBrowser : FormView.Browser where
  native name := "function ".toList ++ (if name = "constructor".toList then "Object".toList else name) ++
    "() \x7b [native code] \x7d".toList
  text _ := []

def conditionalContract : DeclarativeRunTemplate where
  fields :=
    [{ name := "ENV".toList, value := .str "dev".toList },
      { name := "TOKEN".toList, requiredCondition := some "ENV == 'prod'".toList }]

theorem form_agrees_conditional : ∃ effective,
    evaluate Engine.plainLibrary conditionalContract [("ENV".toList, .str "prod".toList)] = .ok effective ∧
    SameFlags sampleBrowser conditionalContract [("ENV".toList, .str "prod".toList)] effective ∧
    (FormView.hasMissingRequired sampleBrowser conditionalContract.fields
        (ofValues sampleBrowser [("ENV".toList, .str "prod".toList)]) = true ↔
      FindsMissing Engine.plainLibrary effective) := by
  have hdomain : FormDomain conditionalContract [("ENV".toList, .str "prod".toList)] := by
    refine ⟨by decide, by decide, by decide, given_of_entries (by decide), by decide⟩
  obtain ⟨effective, hevaluate, hagrees⟩ := form_agrees_iff hdomain
  have hreads : ReadsAlike sampleBrowser Engine.plainLibrary conditionalContract
      [("ENV".toList, .str "prod".toList)] := readsAlike_of_ordinary (by decide)
  exact ⟨effective, hevaluate, (hagrees.mpr hreads).1, (hagrees.mpr hreads).2⟩

/-- A required field under the name of a function that every object has, and a field that is hidden
unless it is empty. -/
def inheritedContract : DeclarativeRunTemplate where
  fields :=
    [{ name := "constructor".toList, required := true },
      { name := "NAME".toList, hideCondition := some "constructor != ''".toList }]

/-- The form reads the function: it misses nothing, and hides the field. -/
theorem constructor_is_never_missing : FormDomain inheritedContract [] ∧ ∃ effective,
    evaluate Engine.plainLibrary inheritedContract [] = .ok effective ∧
    ¬SameFlags sampleBrowser inheritedContract [] effective ∧
    FormView.hasMissingRequired sampleBrowser inheritedContract.fields
      (ofValues sampleBrowser []) = false ∧
    FindsMissing Engine.plainLibrary effective := by
  refine ⟨⟨by decide, by decide, by decide, given_of_entries (by decide), by decide⟩, _, rfl, ?_, by decide,
    (_, _), List.mem_cons_self, rfl⟩
  intro hsame
  have hname := (hsame _ (List.mem_cons_of_mem _ List.mem_cons_self)).1
  revert hname
  decide

end Declarative
end PdeOperator
