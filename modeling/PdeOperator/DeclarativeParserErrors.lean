import PdeOperator.DeclarativeParser

/-! Which exceptions leave the parser and the engine of declarative templates. The API answers contract
errors with 400; a `.get` on something else than a mapping, a list or mapping that is looked up in a set,
and a pattern that does not compile go past it. -/

namespace PdeOperator
open Base

namespace Declarative

namespace Parser

variable {lib : ParserLibrary} {name : Text} {raw : JsonObject} {custom customization : Json}
  {doc : JsonObject} {fallbackName : Text}

def IsMapping (value : Json) : Prop := ∃ fields, value = .obj fields

/-- A list or a mapping. -/
def IsCollection : Option Json → Prop
  | some (.arr _) | some (.obj _) => True
  | _ => False

theorem mapping_error {value : Json} {e : Error} :
    mapping value = .error e ↔ ¬IsMapping value ∧ e = .attributeError := by
  cases value with
  | obj fields => exact iff_of_false nofun fun h => h.1 ⟨fields, rfl⟩
  | _ => exact ⟨fun h => ⟨nofun, (Except.error.inj h).symm⟩, fun h => h.2 ▸ rfl⟩

theorem mapping_ok {value : Json} {fields : JsonObject} :
    mapping value = .ok fields ↔ value = .obj fields := by
  cases value with
  | obj other => exact ⟨fun h => congrArg Json.obj (Except.ok.inj h), fun h => by cases h; rfl⟩
  | _ => exact iff_of_false nofun nofun

theorem normalizeVariableEntry_error {value : Json} {e : Error}
    (h : normalizeVariableEntry lib name value = .error e) : e.IsContractError := by
  cases value with
  | obj fields =>
      rw [normalizeVariableEntry] at h
      split at h
      · cases h
        trivial
      · cases h
  | arr items =>
      cases h
      trivial
  | _ => cases h

theorem parseOptions_error {value : Option Json} {e : Error}
    (h : parseOptions lib name value = .error e) : e.IsContractError := by
  rcases value with _ | (_ | _ | _ | _ | _ | _ | _) <;> cases h <;> trivial

theorem parseData_error {value : Option Json} {e : Error} (h : parseData lib name value = .error e) :
    e.IsContractError := by
  unfold parseData at h
  split at h
  · cases h
  · split at h
    · split at h
      · cases h
        trivial
      · cases h
    · cases h
      trivial

theorem parseSelectType_error {value : Option Json} {e : Error} (h : parseSelectType name value = .error e) :
    e.IsContractError := by
  unfold parseSelectType at h
  split at h
  · cases h
  · cases h
  · split at h
    · cases h
    · split at h
      · cases h
      · cases h
        trivial

theorem parseValidators_error {value : Option Json} {e : Error}
    (h : parseValidators lib name value = .error e) : e.IsContractError := by
  unfold parseValidators at h
  split at h
  · cases h
  · split at h
    · obtain ⟨before, item, after, -, -, hitem⟩ := mapM_eq_error_iff.mp h
      split at hitem
      · cases hitem
      · cases hitem
        trivial
    · cases h
      trivial

variable (name) in
/-- A binding is looked up in a set, in which lists and mappings cannot be. -/
theorem parseBindTo_error_iff {value : Option Json} :
    (∃ e, parseBindTo name value = .error e ∧ ¬e.IsContractError) ↔ IsCollection value := by
  rcases value with _ | (_ | _ | _ | _ | text | _ | _)
  case some.str =>
    refine iff_of_false ?_ id
    rintro ⟨e, he, hcontract⟩
    rw [parseBindTo] at he
    split at he
    · cases he
    · cases he
      exact hcontract trivial
  case some.arr => exact iff_of_true ⟨.typeError, rfl, id⟩ trivial
  case some.obj => exact iff_of_true ⟨.typeError, rfl, id⟩ trivial
  all_goals
    refine iff_of_false ?_ id
    rintro ⟨e, he, hcontract⟩
    cases he
    try exact hcontract trivial

def settingsOf (custom : JsonObject) : Json := (Json.get custom "settings".toList).getD (.obj [])

variable (lib name raw custom) in
/-- A lookup of `_build_field` that goes wrong, behind checks that have passed. -/
inductive FieldCrash : Prop
  | custom (hoptions : ∃ options, parseOptions lib name (Json.get raw "options".toList) = .ok options)
      (h : ¬IsMapping custom)
  | settings {fields : JsonObject} (hcustom : custom = .obj fields)
      (hoptions : ∃ options, parseOptions lib name (Json.get raw "options".toList) = .ok options)
      (hdata : ∃ data, parseData lib name (Json.get fields "data".toList) = .ok data)
      (h : ¬IsMapping (settingsOf fields))
  | bindTo {fields settings : JsonObject} (hcustom : custom = .obj fields)
      (hsettings : settingsOf fields = .obj settings)
      (hoptions : ∃ options, parseOptions lib name (Json.get raw "options".toList) = .ok options)
      (hdata : ∃ data, parseData lib name (Json.get fields "data".toList) = .ok data)
      (hselect : ∃ select, parseSelectType name (Json.get settings "select_type".toList) = .ok select)
      (h : IsCollection (Json.get settings "bind_to".toList))

theorem buildField_error_iff :
    (∃ e, buildField lib name raw custom = .error e ∧ ¬e.IsContractError) ↔
      FieldCrash lib name raw custom := by
  constructor
  · rintro ⟨e, he, hcontract⟩
    rcases bind_eq_error.mp he with he | ⟨options, hoptions, he⟩
    · exact absurd (parseOptions_error he) hcontract
    rcases bind_eq_error.mp he with he | ⟨fields, hfields, he⟩
    · exact .custom ⟨options, hoptions⟩ (mapping_error.mp he).1
    have hcustom := mapping_ok.mp hfields
    rcases bind_eq_error.mp he with he | ⟨⟨interface, data⟩, hdata, he⟩
    · exact absurd (parseData_error he) hcontract
    rcases bind_eq_error.mp he with he | ⟨settings, hsettings, he⟩
    · exact .settings hcustom ⟨options, hoptions⟩ ⟨_, hdata⟩ (mapping_error.mp he).1
    rcases bind_eq_error.mp he with he | ⟨select, hselect, he⟩
    · exact absurd (parseSelectType_error he) hcontract
    rcases bind_eq_error.mp he with he | ⟨bindTo, -, he⟩
    · exact .bindTo hcustom (mapping_ok.mp hsettings) ⟨options, hoptions⟩ ⟨_, hdata⟩ ⟨select, hselect⟩
        ((parseBindTo_error_iff name).mp ⟨e, he, hcontract⟩)
    rcases bind_eq_error.mp he with he | ⟨validators, -, he⟩
    · exact absurd (parseValidators_error he) hcontract
    · cases he
  · intro h
    cases h with
    | custom hoptions h =>
        obtain ⟨options, hoptions⟩ := hoptions
        refine ⟨.attributeError, bind_eq_error.mpr (Or.inr ⟨options, hoptions, ?_⟩), id⟩
        exact bind_eq_error.mpr (Or.inl (mapping_error.mpr ⟨h, rfl⟩))
    | settings hcustom hoptions hdata h =>
        obtain ⟨options, hoptions⟩ := hoptions
        obtain ⟨data, hdata⟩ := hdata
        refine ⟨.attributeError, bind_eq_error.mpr (Or.inr ⟨options, hoptions, ?_⟩), id⟩
        refine bind_eq_error.mpr (Or.inr ⟨_, mapping_ok.mpr hcustom, ?_⟩)
        refine bind_eq_error.mpr (Or.inr ⟨data, hdata, ?_⟩)
        exact bind_eq_error.mpr (Or.inl (mapping_error.mpr ⟨h, rfl⟩))
    | bindTo hcustom hsettings hoptions hdata hselect h =>
        obtain ⟨options, hoptions⟩ := hoptions
        obtain ⟨data, hdata⟩ := hdata
        obtain ⟨select, hselect⟩ := hselect
        obtain ⟨e, he, hcontract⟩ := (parseBindTo_error_iff name).mpr h
        refine ⟨e, bind_eq_error.mpr (Or.inr ⟨options, hoptions, ?_⟩), hcontract⟩
        refine bind_eq_error.mpr (Or.inr ⟨_, mapping_ok.mpr hcustom, ?_⟩)
        refine bind_eq_error.mpr (Or.inr ⟨data, hdata, ?_⟩)
        refine bind_eq_error.mpr (Or.inr ⟨_, mapping_ok.mpr hsettings, ?_⟩)
        exact bind_eq_error.mpr (Or.inr ⟨select, hselect, bind_eq_error.mpr (Or.inl he)⟩)

variable (lib customization) in
/-- A variable that gets to a lookup that goes wrong. -/
inductive VariableCrash (entry : Text × Json) : Prop
  | customization {raw : JsonObject}
      (hraw : normalizeVariableEntry lib entry.1 entry.2 = .ok raw) (h : ¬IsMapping customization)
  | field {raw customs : JsonObject} (hraw : normalizeVariableEntry lib entry.1 entry.2 = .ok raw)
      (hcustoms : customization = .obj customs)
      (h : FieldCrash lib entry.1 raw ((Json.get customs entry.1).getD (.obj [])))

theorem parseVariable_error_iff {entry : Text × Json} :
    (∃ e, parseVariable lib customization entry = .error e ∧ ¬e.IsContractError) ↔
      VariableCrash lib customization entry := by
  constructor
  · rintro ⟨e, he, hcontract⟩
    rcases bind_eq_error.mp he with he | ⟨raw, hraw, he⟩
    · exact absurd (normalizeVariableEntry_error he) hcontract
    rcases bind_eq_error.mp he with he | ⟨customs, hcustoms, he⟩
    · exact .customization hraw (mapping_error.mp he).1
    · exact .field hraw (mapping_ok.mp hcustoms) (buildField_error_iff.mp ⟨e, he, hcontract⟩)
  · intro h
    cases h with
    | customization hraw h =>
        refine ⟨.attributeError, bind_eq_error.mpr (Or.inr ⟨_, hraw, ?_⟩), id⟩
        exact bind_eq_error.mpr (Or.inl (mapping_error.mpr ⟨h, rfl⟩))
    | field hraw hcustoms h =>
        obtain ⟨e, he, hcontract⟩ := buildField_error_iff.mpr h
        refine ⟨e, bind_eq_error.mpr (Or.inr ⟨_, hraw, ?_⟩), hcontract⟩
        exact bind_eq_error.mpr (Or.inr ⟨_, mapping_ok.mpr hcustoms, he⟩)

theorem readVariables_error {e : Error} (h : readVariables doc = .error e) : e.IsContractError := by
  unfold readVariables at h
  split at h
  · split at h
    · cases h
    · cases h
      trivial
  · cases h
    trivial

variable (lib doc) in
/-- The first variable of the document that is not accepted gets to a lookup that goes wrong. -/
def DocumentCrash : Prop :=
  ∃ before entry after customization, readVariables doc = .ok (before ++ entry :: after, customization) ∧
    (∀ earlier ∈ before, ∃ field, parseVariable lib customization earlier = .ok field) ∧
    VariableCrash lib customization entry

theorem fromDocument_error_iff :
    (∃ e, fromDocument lib doc fallbackName = .error e ∧ ¬e.IsContractError) ↔ DocumentCrash lib doc := by
  constructor
  · rintro ⟨e, he, hcontract⟩
    rcases bind_eq_error.mp he with he | ⟨⟨entries, customization⟩, hentries, he⟩
    · exact absurd (readVariables_error he) hcontract
    rcases bind_eq_error.mp he with he | ⟨fields, -, he⟩
    · obtain ⟨before, entry, after, rfl, hbefore, hentry⟩ := mapM_eq_error_iff.mp he
      exact ⟨before, entry, after, customization, hentries, hbefore,
        parseVariable_error_iff.mp ⟨e, hentry, hcontract⟩⟩
    · cases he
  · rintro ⟨before, entry, after, customization, hentries, hbefore, h⟩
    obtain ⟨e, he, hcontract⟩ := parseVariable_error_iff.mpr h
    refine ⟨e, bind_eq_error.mpr (Or.inr ⟨_, hentries, ?_⟩), hcontract⟩
    exact bind_eq_error.mpr (Or.inl (mapM_eq_error_iff.mpr ⟨before, entry, after, rfl, hbefore, he⟩))

end Parser

/-! ### The engine -/

/-- All exceptions of the engine but the `re.error` of a pattern are contract errors. -/
def ContractError.IsContractError : ContractError → Prop
  | .invalidPattern _ => False
  | _ => True

namespace Engine

variable {lib : EngineLibrary} {contract : DeclarativeRunTemplate} {values : JsonObject}
  {effective : EffectiveFormState} {field : FieldSpec} {name text : Text}

/-- A pattern that does not compile, behind patterns that match. -/
def ReachesBadPattern (lib : EngineLibrary) (text : Text) (validators : List ValidatorPattern) : Prop :=
  ∃ before validator after, validators = before ++ validator :: after ∧
    (∀ earlier ∈ before, lib.reMatch earlier.value text = some true) ∧
    lib.reMatch validator.value text = none

theorem reachesBadPattern_cons {validator : ValidatorPattern} {rest : List ValidatorPattern} :
    ReachesBadPattern lib text (validator :: rest) ↔ lib.reMatch validator.value text = none ∨
      (lib.reMatch validator.value text = some true ∧ ReachesBadPattern lib text rest) := by
  constructor
  · rintro ⟨before, bad, after, hlist, hbefore, hbad⟩
    cases before with
    | nil =>
        obtain ⟨rfl, rfl⟩ := List.cons.inj hlist
        exact Or.inl hbad
    | cons first before =>
        obtain ⟨rfl, rfl⟩ := List.cons.inj hlist
        obtain ⟨hfirst, hbefore⟩ := List.forall_mem_cons.mp hbefore
        exact Or.inr ⟨hfirst, before, bad, after, rfl, hbefore, hbad⟩
  · rintro (hbad | ⟨hmatch, before, bad, after, rfl, hbefore, hbad⟩)
    · exact ⟨[], validator, rest, rfl, nofun, hbad⟩
    · exact ⟨validator :: before, bad, after, rfl, List.forall_mem_cons.mpr ⟨hmatch, hbefore⟩, hbad⟩

variable (name) in
theorem validatePatterns_error_iff {validators : List ValidatorPattern} :
    (∃ e, validatePatterns lib name text validators = .error e ∧ ¬e.IsContractError) ↔
      ReachesBadPattern lib text validators := by
  induction validators with
  | nil =>
      refine iff_of_false ?_ ?_
      · rintro ⟨e, he, -⟩
        cases he
      · rintro ⟨before, bad, after, hlist, -⟩
        exact absurd hlist.symm (List.append_ne_nil_of_right_ne_nil _ (List.cons_ne_nil _ _))
  | cons validator rest ih =>
      rw [validatePatterns, reachesBadPattern_cons]
      cases hmatch : lib.reMatch validator.value text with
      | none => exact iff_of_true ⟨_, rfl, id⟩ (Or.inl rfl)
      | some matched =>
          cases matched with
          | true => simpa using ih
          | false =>
              refine iff_of_false ?_ (by simp)
              rintro ⟨e, he, hcontract⟩
              cases he
              exact hcontract trivial

theorem validateOptions_error {e : ContractError} (h : validateOptions field text = .error e) :
    e.IsContractError := by
  unfold validateOptions at h
  split at h
  · cases h
  · split at h
    all_goals
      dsimp only at h
      split at h
      · cases h
      · cases h
        trivial

/-- The value is compared with patterns, one of which does not compile. -/
def BadPatternFor (lib : EngineLibrary) (field : FieldSpec) (value : Json) : Prop :=
  field.fieldType ≠ .checkbox ∧ ∃ text, value = .str text ∧ ReachesBadPattern lib text field.validators

/-- A value that is no text is refused or is a Boolean. -/
theorem validateField_error_of_notText {value : Json} {e : ContractError} (hvalue : ∀ text, value ≠ .str text)
    (h : validateField lib field value = .error e) : e.IsContractError := by
  unfold validateField at h
  split at h
  · exact absurd rfl (hvalue _)
  · cases h
    trivial
  · cases h
  · exact absurd rfl (hvalue _)
  · cases h
    trivial
  · exact absurd rfl (hvalue _)
  · cases h
    trivial

theorem validateField_checkbox_error {e : ContractError} (htype : field.fieldType = .checkbox)
    (h : validateField lib field (.str text) = .error e) : e.IsContractError := by
  unfold validateField at h
  rw [htype] at h
  dsimp only at h
  split at h
  · cases h
  · cases h
    trivial

theorem validateField_text_error_iff (htype : field.fieldType ≠ .checkbox) :
    (∃ e, validateField lib field (.str text) = .error e ∧ ¬e.IsContractError) ↔
      ReachesBadPattern lib text field.validators := by
  rw [← validatePatterns_error_iff field.name]
  cases hfield : field.fieldType with
  | checkbox => exact absurd hfield htype
  | string =>
      unfold validateField
      rw [hfield]
  | select =>
      unfold validateField
      rw [hfield]
      constructor
      · rintro ⟨e, he, hcontract⟩
        rcases bind_eq_error.mp he with he | ⟨_, -, he⟩
        · exact ⟨e, he, hcontract⟩
        · exact absurd (validateOptions_error he) hcontract
      · rintro ⟨e, he, hcontract⟩
        exact ⟨e, bind_eq_error.mpr (Or.inl he), hcontract⟩

theorem validateField_error_iff {value : Json} :
    (∃ e, validateField lib field value = .error e ∧ ¬e.IsContractError) ↔
      BadPatternFor lib field value := by
  constructor
  · rintro ⟨e, he, hcontract⟩
    by_cases htext : ∃ text, value = .str text
    · obtain ⟨text, rfl⟩ := htext
      have htype : field.fieldType ≠ .checkbox := fun htype =>
        hcontract (validateField_checkbox_error htype he)
      exact ⟨htype, text, rfl, (validateField_text_error_iff htype).mp ⟨e, he, hcontract⟩⟩
    · rw [not_exists] at htext
      exact absurd (validateField_error_of_notText htext he) hcontract
  · rintro ⟨htype, text, rfl, hbad⟩
    exact (validateField_text_error_iff htype).mpr hbad

theorem evaluate_error {e : ContractError} (h : evaluate lib contract values = .error e) :
    e.IsContractError := by
  have hcondition : ∀ {expression resolved e}, Rsql.evaluate lib expression resolved = .error e →
      e.IsContractError := by
    intro expression resolved e he
    unfold Rsql.evaluate at he
    split at he
    · cases he
    · split at he
      · cases he
      · split at he
        · cases he
          trivial
        · cases he
  have hflags : ∀ {resolved field e}, fieldFlags lib resolved field = .error e → e.IsContractError := by
    intro resolved field e he
    unfold fieldFlags at he
    dsimp only at he
    split at he
    · cases he
    · rcases bind_eq_error.mp he with he | ⟨isHidden, -, he⟩
      · exact hcondition he
      · split at he
        · cases he
        · split at he
          · cases he
          · rcases bind_eq_error.mp he with he | ⟨_, -, he⟩
            · exact hcondition he
            · cases he
  rcases bind_eq_error.mp h with h | ⟨_, -, h⟩
  · obtain ⟨before, entry, after, -, -, hentry⟩ := mapM_eq_error_iff.mp h
    exact hflags (map_eq_error.mp hentry)
  · cases h

theorem collectField_error_iff {entry : Text × FieldSpec} :
    (∃ e, collectField lib effective entry = .error e ∧ ¬e.IsContractError) ↔
      effective.visible entry.1 = true ∧
        isEmpty (Rsql.getValue effective.resolvedValues entry.1) = false ∧
        BadPatternFor lib entry.2 (Rsql.getValue effective.resolvedValues entry.1) := by
  rw [← validateField_error_iff]
  unfold collectField
  dsimp only
  cases hempty : isEmpty (Rsql.getValue effective.resolvedValues entry.1) with
  | true =>
      refine iff_of_false ?_ (by simp)
      rintro ⟨e, he, hcontract⟩
      rw [if_pos rfl] at he
      split at he
      · cases he
        exact hcontract trivial
      · cases he
  | false =>
      rw [if_neg Bool.false_ne_true]
      cases hvisible : effective.visible entry.1 with
      | false =>
          refine iff_of_false ?_ (by simp)
          rintro ⟨e, he, -⟩
          cases he
      | true =>
          simp only [if_true, true_and]
          constructor
          · rintro ⟨e, he, hcontract⟩
            rcases bind_eq_error.mp he with he | ⟨_, -, he⟩
            · exact ⟨e, he, hcontract⟩
            · cases he
          · rintro ⟨e, he, hcontract⟩
            exact ⟨e, bind_eq_error.mpr (Or.inl he), hcontract⟩

theorem assemble_error {submitted : JsonObject} {e : ContractError}
    (h : assemble lib effective submitted = .error e) : e.IsContractError := by
  rcases bind_eq_error.mp h with h | ⟨_, -, h⟩
  · unfold getRequiredSingleton at h
    split at h
    · cases h
    · cases h
      trivial
  · cases h

variable (lib contract values) in
/-- The first field that is not accepted is visible and has a text that is compared with a pattern that
does not compile. -/
def PatternCrash : Prop :=
  ∃ effective before name field after, evaluate lib contract values = .ok effective ∧
    contract.fieldsByName = before ++ (name, field) :: after ∧
    (∀ earlier ∈ before, ∃ collected, collectField lib effective earlier = .ok collected) ∧
    effective.visible name = true ∧ isEmpty (resolveField values name field) = false ∧
    BadPatternFor lib field (resolveField values name field)

theorem buildRunPayload_error_iff :
    (∃ e, buildRunPayload lib contract values = .error e ∧ ¬e.IsContractError) ↔
      PatternCrash lib contract values := by
  have hvalue : ∀ {effective name field}, evaluate lib contract values = .ok effective →
      (name, field) ∈ contract.fieldsByName →
      Rsql.getValue effective.resolvedValues name = resolveField values name field := by
    intro effective name field heffective hmem
    rw [evaluate_resolvedValues heffective]
    exact getValue_resolveValues nodup_fieldsByName hmem
  constructor
  · rintro ⟨e, he, hcontract⟩
    rcases bind_eq_error.mp he with he | ⟨effective, heffective, he⟩
    · exact absurd (evaluate_error he) hcontract
    rcases bind_eq_error.mp he with he | ⟨submitted, -, he⟩
    · rcases bind_eq_error.mp he with he | ⟨_, -, he⟩
      · obtain ⟨before, ⟨name, field⟩, after, hfields, hbefore, hentry⟩ := mapM_eq_error_iff.mp he
        rw [evaluate_fields heffective] at hfields
        obtain ⟨hvisible, hfilled, hbad⟩ := collectField_error_iff.mp ⟨e, hentry, hcontract⟩
        rw [hvalue heffective (hfields ▸ List.mem_append_right _ List.mem_cons_self)] at hfilled hbad
        exact ⟨effective, before, name, field, after, heffective, hfields, hbefore, hvisible, hfilled, hbad⟩
      · cases he
    · exact absurd (assemble_error he) hcontract
  · rintro ⟨effective, before, name, field, after, heffective, hfields, hbefore, hvisible, hfilled, hbad⟩
    rw [← hvalue heffective (hfields ▸ List.mem_append_right _ List.mem_cons_self)] at hfilled hbad
    have hcollect : ∃ e, collectField lib effective (name, field) = .error e ∧ ¬e.IsContractError :=
      collectField_error_iff.mpr ⟨hvisible, hfilled, hbad⟩
    obtain ⟨e, he, hcontract⟩ := hcollect
    refine ⟨e, bind_eq_error.mpr (Or.inr ⟨effective, heffective, ?_⟩), hcontract⟩
    refine bind_eq_error.mpr (Or.inl (bind_eq_error.mpr (Or.inl ?_)))
    rw [mapM_eq_error_iff, evaluate_fields heffective]
    exact ⟨before, (name, field), after, hfields, hbefore, he⟩

end Engine

/-- The upload of the document and the runs of its template with the values raise contract errors only. -/
structure OnlyContractErrors (lib : ParserLibrary) (doc : JsonObject) (fallbackName : Text)
    (values : JsonObject) : Prop where
  upload : ∀ e, Parser.fromDocument lib doc fallbackName = .error e → e.IsContractError
  run : ∀ template, Parser.fromDocument lib doc fallbackName = .ok template →
    ∀ e, Engine.buildRunPayload lib.toEngineLibrary template.contract values = .error e →
      e.IsContractError

/-- This holds exactly when the document gets to no lookup that goes wrong and the values, for the template
that it describes, to no pattern that does not compile. -/
theorem onlyContractErrors_iff {lib : ParserLibrary} {doc : JsonObject} {fallbackName : Text}
    {values : JsonObject} :
    OnlyContractErrors lib doc fallbackName values ↔
      ¬Parser.DocumentCrash lib doc ∧
        ∀ template, Parser.fromDocument lib doc fallbackName = .ok template →
          ¬Engine.PatternCrash lib.toEngineLibrary template.contract values := by
  constructor
  · intro h
    constructor
    · intro hcrash
      obtain ⟨e, he, hcontract⟩ := Parser.fromDocument_error_iff.mpr hcrash
      exact hcontract (h.upload e he)
    · intro template htemplate hcrash
      obtain ⟨e, he, hcontract⟩ := Engine.buildRunPayload_error_iff.mpr hcrash
      exact hcontract (h.run template htemplate e he)
  · rintro ⟨hdocument, hpattern⟩
    constructor
    · intro e he
      by_contra hcontract
      exact hdocument (Parser.fromDocument_error_iff.mp ⟨e, he, hcontract⟩)
    · intro template htemplate e he
      by_contra hcontract
      exact hpattern template htemplate (Engine.buildRunPayload_error_iff.mp ⟨e, he, hcontract⟩)

/-- The libraries of a Python in which the patterns that are given do not compile. -/
def Parser.libraryWithout (badPatterns : List Text) : ParserLibrary where
  repr _ := []
  reMatch pattern _ := if pattern ∈ badPatterns then none else some true
  validationError _ := []

/-- A document with the variable `A`, whose value is `x`, and a customization. -/
def Parser.documentWith (customization : Json) : JsonObject :=
  [(".ui-variables".toList, .obj
    [("variables".toList, .obj [("A".toList, .str "x".toList)]),
      (Parser.customizationKey, customization)])]

/-- The customization of `A` with one setting. -/
def Parser.customizationWith (setting : Text) (value : Json) : Json :=
  .obj [("A".toList, .obj [("settings".toList, .obj [(setting, value)])])]

def Parser.badPattern : Json :=
  .arr [.obj [("value".toList, .str "(".toList), ("message".toList, .str "bad".toList)]]

/-- Neither a customization that is `null` nor a list of bindings is met by a contract error, and a document
with the pattern of one open parenthesis is accepted and fails each run. -/
theorem other_errors_escape :
    ¬OnlyContractErrors (Parser.libraryWithout []) (Parser.documentWith .null) "t".toList [] ∧
      ¬OnlyContractErrors (Parser.libraryWithout [])
        (Parser.documentWith (Parser.customizationWith "bind_to".toList (.arr []))) "t".toList [] ∧
      ¬OnlyContractErrors (Parser.libraryWithout ["(".toList])
        (Parser.documentWith (Parser.customizationWith "validators".toList Parser.badPattern))
        "t".toList [] := by
  refine ⟨?_, ?_, ?_⟩
  · intro h
    exact h.upload .attributeError rfl
  · intro h
    exact h.upload .typeError rfl
  · intro h
    exact h.run _ rfl (.invalidPattern "(".toList) rfl

end Declarative
end PdeOperator
