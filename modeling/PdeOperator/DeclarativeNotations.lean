import PdeOperator.BaseDict
import PdeOperator.DeclarativeParser

/-! The two notations of a variable, `NAME: v` and `NAME: {value: v}`. A number is a text in the first and
stays a number in the second. -/

namespace PdeOperator
open Base

namespace Declarative

/-- What the field is for another default, with the same options and the same source of options. -/
def FormField.withValue (value : Json) (field : FormField) : FormField :=
  { field with value, fieldType := Parser.inferFieldType value field.options field.interface }

namespace Parser

/-- `{value: v}` -/
def expanded (value : Json) : Json := .obj [("value".toList, value)]

def inMapping (change : JsonObject → JsonObject) : Json → Json
  | .obj fields => .obj (change fields)
  | value => value

/-- The document in which the entry of a variable is written as a mapping. -/
def expandVariable (name : Text) (doc : JsonObject) : JsonObject :=
  Dict.modify ".ui-variables".toList
    (inMapping (Dict.modify "variables".toList (inMapping (Dict.modify name expanded)))) doc

def IsScalar : Json → Prop
  | .arr _ | .obj _ => False
  | _ => True

def IsNumber : Json → Prop
  | .int _ | .float _ => True
  | _ => False

/-- The document has the entry under its variables. -/
def HasVariable (doc : JsonObject) (name : Text) (value : Json) : Prop :=
  ∃ uiVariables entries, Json.get doc ".ui-variables".toList = some (.obj uiVariables) ∧
    Json.get uiVariables "variables".toList = some (.obj entries) ∧
    Json.get entries name = some value

variable {lib : ParserLibrary} {doc : JsonObject} {name fallbackName : Text} {value : Json}

/-- All that the parser reads of the other document is the same but for the entry. -/
theorem readVariables_expandVariable (h : HasVariable doc name value) :
    ∃ before after customization,
      readVariables doc = .ok (before ++ (name, value) :: after, customization) ∧
      readVariables (expandVariable name doc) =
        .ok (before ++ (name, expanded value) :: after, customization) := by
  obtain ⟨uiVariables, entries, hui, hentries, hvalue⟩ := h
  obtain ⟨before, after, rfl, hmodify⟩ := Dict.modify_of_lookup expanded hvalue
  have hentries' : Json.get (Dict.modify "variables".toList (inMapping (Dict.modify name expanded))
      uiVariables) "variables".toList = some (.obj (before ++ (name, expanded value) :: after)) := by
    rw [← hmodify]
    exact Dict.lookup_modify_self hentries
  have hcustomization : Json.get (Dict.modify "variables".toList (inMapping (Dict.modify name expanded))
      uiVariables) customizationKey = Json.get uiVariables customizationKey :=
    Dict.lookup_modify_of_ne (by decide)
  have hui' : Json.get (expandVariable name doc) ".ui-variables".toList =
      some (.obj (Dict.modify "variables".toList (inMapping (Dict.modify name expanded)) uiVariables)) :=
    Dict.lookup_modify_self hui
  refine ⟨before, after, (Json.get uiVariables customizationKey).getD (.obj []), ?_, ?_⟩
  · unfold readVariables
    rw [hui]
    dsimp only
    rw [hentries]
    cases before <;> rfl
  · unfold readVariables
    rw [hui']
    dsimp only
    rw [hentries', hcustomization]
    cases before <;> rfl

variable (lib name) in
/-- The default is read where the field gets its value and its type, and by no check. -/
theorem buildField_value (value other custom : Json) :
    buildField lib name [("value".toList, value)] custom =
      (buildField lib name [("value".toList, other)] custom).map (FormField.withValue value) := by
  have hoptions : ∀ v : Json, Json.get [("value".toList, v)] "options".toList = none := fun _ => rfl
  unfold buildField
  rw [hoptions, hoptions, parseOptions]
  cases mapping custom with
  | error e => rfl
  | ok fields =>
  simp only [bind, Except.bind]
  cases parseData lib name (Json.get fields "data".toList) with
  | error e => rfl
  | ok data =>
  dsimp only
  cases mapping ((Json.get fields "settings".toList).getD (.obj [])) with
  | error e => rfl
  | ok settings =>
  dsimp only
  cases parseSelectType name (Json.get settings "select_type".toList) with
  | error e => rfl
  | ok selectType =>
  dsimp only
  cases parseBindTo name (Json.get settings "bind_to".toList) with
  | error e => rfl
  | ok bindTo =>
  dsimp only
  cases parseValidators lib name (Json.get settings "validators".toList) with
  | error e => rfl
  | ok validators => rfl

/-- The default that the parser reads of an entry. -/
def scalarDefault (lib : ParserLibrary) : Json → Json
  | .int value => .str (pyStr lib.toEngineLibrary (.int value))
  | .float literal => .str (pyStr lib.toEngineLibrary (.float literal))
  | value => value

variable (lib) in
theorem scalarDefault_eq_iff (hscalar : IsScalar value) : scalarDefault lib value = value ↔ ¬IsNumber value := by
  cases value with
  | int value => exact iff_of_false nofun fun h => h trivial
  | float literal => exact iff_of_false nofun fun h => h trivial
  | arr items => exact hscalar.elim
  | obj fields => exact hscalar.elim
  | _ => exact iff_of_true rfl id

theorem normalizeVariableEntry_scalar (hscalar : IsScalar value) :
    normalizeVariableEntry lib name value = .ok [("value".toList, scalarDefault lib value)] := by
  cases value with
  | arr items => exact hscalar.elim
  | obj fields => exact hscalar.elim
  | _ => rfl

theorem normalizeVariableEntry_expanded :
    normalizeVariableEntry lib name (expanded value) = .ok [("value".toList, value)] := rfl

variable (lib name) in
/-- The field of the mapping is the field of the scalar with the value as it stands. -/
theorem parseVariable_expanded (customization : Json) (hscalar : IsScalar value) :
    parseVariable lib customization (name, expanded value) =
      (parseVariable lib customization (name, value)).map (FormField.withValue value) := by
  unfold parseVariable
  rw [normalizeVariableEntry_scalar hscalar, normalizeVariableEntry_expanded]
  simp only [bind, Except.bind]
  cases mapping customization with
  | error e => rfl
  | ok customs => exact buildField_value lib name value (scalarDefault lib value) _

/-- The fields of both are the same for all values but the numbers. -/
theorem withValue_eq_iff {customization : Json} (hscalar : IsScalar value) {field : FormField}
    (h : parseVariable lib customization (name, value) = .ok field) :
    field.withValue value = field ↔ ¬IsNumber value := by
  unfold parseVariable at h
  rw [normalizeVariableEntry_scalar hscalar] at h
  obtain ⟨raw, hraw, h⟩ := bind_eq_ok.mp h
  obtain rfl := Except.ok.inj hraw
  obtain ⟨customs, -, hbuild⟩ := bind_eq_ok.mp h
  have hfield : field.withValue (scalarDefault lib value) = field := by
    have hvalue := buildField_value lib name (scalarDefault lib value) (scalarDefault lib value)
      ((Json.get customs name).getD (.obj []))
    dsimp only at hbuild
    rw [hbuild] at hvalue
    exact (Except.ok.inj hvalue).symm
  rw [← scalarDefault_eq_iff lib hscalar]
  constructor
  · intro heq
    rw [← hfield] at heq
    exact (congrArg (fun field : FormField => field.value) heq).symm
  · intro hdefault
    rwa [hdefault] at hfield

/-- What a template and the values give is the same for the result of the parser. -/
structure SameMeaning (lib : ParserLibrary) (template : ParsedTemplate)
    (result : Except Error ParsedTemplate) : Prop where
  fields : ∃ other, result = .ok other ∧ other.fields = template.fields
  runs : ∀ other, result = .ok other → ∀ values,
    Engine.buildRunPayload lib.toEngineLibrary other.contract values =
      Engine.buildRunPayload lib.toEngineLibrary template.contract values

variable (lib fallbackName) in
/-- The other document is accepted where the document is, with the same name and the same other fields. -/
theorem fromDocument_expandVariable (hvariable : HasVariable doc name value) (hscalar : IsScalar value) :
    (∃ e, fromDocument lib doc fallbackName = .error e ∧
        fromDocument lib (expandVariable name doc) fallbackName = .error e) ∨
      ∃ template other before field after, fromDocument lib doc fallbackName = .ok template ∧
        fromDocument lib (expandVariable name doc) fallbackName = .ok other ∧
        template.fields = before ++ field :: after ∧
        other.fields = before ++ field.withValue value :: after ∧
        (field.withValue value = field ↔ ¬IsNumber value) := by
  obtain ⟨before, after, customization, hread, hread'⟩ := readVariables_expandVariable hvariable
  unfold fromDocument
  rw [hread, hread']
  simp only [bind, Except.bind, List.mapM_append, List.mapM_cons, pure, Except.pure]
  cases before.mapM (parseVariable lib customization) with
  | error e => exact Or.inl ⟨e, rfl, rfl⟩
  | ok fieldsBefore =>
  dsimp only
  rw [parseVariable_expanded lib name customization hscalar]
  cases hfield : parseVariable lib customization (name, value) with
  | error e => exact Or.inl ⟨e, rfl, rfl⟩
  | ok field =>
  cases after.mapM (parseVariable lib customization) with
  | error e => exact Or.inl ⟨e, rfl, rfl⟩
  | ok fieldsAfter =>
      exact Or.inr ⟨_, _, fieldsBefore, field, fieldsAfter, rfl, rfl, rfl, rfl,
        withValue_eq_iff hscalar hfield⟩

/-- A document that is accepted means the same in both notations exactly if the value is no number. -/
theorem sameMeaning_expandVariable_iff (hvariable : HasVariable doc name value) (hscalar : IsScalar value) :
    (∀ e, fromDocument lib doc fallbackName = .error e →
        fromDocument lib (expandVariable name doc) fallbackName = .error e) ∧
      ∀ template, fromDocument lib doc fallbackName = .ok template →
        (SameMeaning lib template (fromDocument lib (expandVariable name doc) fallbackName) ↔
          ¬IsNumber value) := by
  rcases fromDocument_expandVariable lib fallbackName hvariable hscalar with
    ⟨e, hdoc, hexpanded⟩ | ⟨template, other, before, field, after, hdoc, hexpanded, hfields, hfields', hfield⟩
  · rw [hdoc, hexpanded]
    exact ⟨fun _ h => h, nofun⟩
  · rw [hdoc, hexpanded]
    refine ⟨nofun, fun _ h => ?_⟩
    obtain rfl := Except.ok.inj h
    rw [← hfield]
    constructor
    · rintro ⟨⟨_, h, heq⟩, -⟩
      obtain rfl := Except.ok.inj h
      rw [hfields, hfields'] at heq
      exact (List.cons.inj (List.append_cancel_left heq)).1
    · intro hsame
      rw [hsame, ← hfields] at hfields'
      refine ⟨⟨other, rfl, hfields'⟩, fun _ h values => ?_⟩
      obtain rfl := Except.ok.inj h
      rw [ParsedTemplate.contract, hfields', ParsedTemplate.contract]

def textLibrary : ParserLibrary where
  toEngineLibrary := Engine.plainLibrary
  validationError _ := []

/-- The variable `A`, whose text is the data of the pipeline. -/
def documentOf (value : Json) : JsonObject :=
  [(".ui-variables".toList, .obj
    [("variables".toList, .obj [("A".toList, value)]),
      (customizationKey, .obj [("A".toList, .obj
        [("settings".toList, .obj [("bind_to".toList, .str "pipeline_data".toList)])])])])]

theorem sameMeaning_expandVariable_text :
    ∃ template, fromDocument textLibrary (documentOf (.str "x".toList)) "t".toList = .ok template ∧
      SameMeaning textLibrary template
        (fromDocument textLibrary (expandVariable "A".toList (documentOf (.str "x".toList)))
          "t".toList) :=
  have hvariable : HasVariable (documentOf (.str "x".toList)) "A".toList (.str "x".toList) :=
    ⟨_, _, rfl, rfl, rfl⟩
  ⟨_, rfl, ((sameMeaning_expandVariable_iff hvariable trivial).2 _ rfl).mpr id⟩

/-- The entry `A: 5` runs with the text `5`; of `A: {value: 5}`, which is accepted, no run is. -/
theorem number_refused_in_mapping :
    HasVariable (documentOf (.int 5)) "A".toList (.int 5) ∧
      ∃ template other,
        fromDocument textLibrary (documentOf (.int 5)) "t".toList = .ok template ∧
        fromDocument textLibrary (expandVariable "A".toList (documentOf (.int 5))) "t".toList =
          .ok other ∧
        (Engine.buildRunPayload textLibrary.toEngineLibrary template.contract []).map
            AssembledRunPayload.pipelineData = .ok "5".toList ∧
        Engine.buildRunPayload textLibrary.toEngineLibrary other.contract [] =
          .error (.notString "A".toList) :=
  ⟨⟨_, _, rfl, rfl, rfl⟩, _, _, rfl, rfl, rfl, rfl⟩

end Parser
end Declarative
end PdeOperator
