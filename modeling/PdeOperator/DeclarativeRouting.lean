import PdeOperator.DeclarativeDecode
import PdeOperator.DeclarativeServer

/-! Which maps of values the declarative engine accepts, and where the value of each field goes. -/

namespace PdeOperator
open Base

namespace Declarative.Engine

section Specification

variable (lib : EngineLibrary) (contract : DeclarativeRunTemplate) (values : JsonObject)

/-- The conditions on the fields under which a run can be started. -/
structure Accepts : Prop where
  required : ∀ field ∈ contract.fields,
    (field.flagsOf (serverText lib contract values)).visible = true →
    (field.flagsOf (serverText lib contract values)).required = true →
    isEmpty (resolveField values field.name field) = false
  valid : ∀ field ∈ contract.fields,
    (field.flagsOf (serverText lib contract values)).visible = true →
    isEmpty (resolveField values field.name field) = false →
    validateField lib field (resolveField values field.name field) = .ok ()
  pipelineData : ∃ field ∈ contract.fields, field.bindTo = .pipelineData ∧
    (isEmpty (resolveField values field.name field) = false ∨ isEmpty field.value = false)

/-- The field has a value for its binding, a submitted one or a default. -/
def hasValue (field : FieldSpec) : Bool :=
  !isEmpty (resolveField values field.name field) || !isEmpty field.value

/-- The value of the first field of a binding that has one. -/
def boundValue (bindTo : BindTo) : Option Json :=
  (contract.fields.find? fun field => field.bindTo = bindTo && hasValue values field).map fun field =>
    if isEmpty (resolveField values field.name field) then field.value
    else resolveField values field.name field

/-- `true` and `false` for a flag, the text itself for a text, and Python's `str` of anything else. -/
inductive HasText : Json → Text → Prop where
  | yes : HasText (.bool true) "true".toList
  | no : HasText (.bool false) "false".toList
  | str (text : Text) : HasText (.str text) text
  | other (value : Json) : (∀ flag, value ≠ .bool flag) → (∀ text, value ≠ .str text) →
      HasText value (pyStr lib value)

/-- The submitted fields that are bound to a pipeline variable, with the texts of their values; `secure` tells
which of the two texts they belong in. -/
def SubmitsText (secure : Bool) (name text : Text) : Prop :=
  ∃ field ∈ contract.fields, field.name = name ∧ field.bindTo = .pipelineVar ∧ field.secure = secure ∧
    isEmpty (resolveField values name field) = false ∧ HasText lib (resolveField values name field) text

/-- The text is a line `NAME=value` for each of the variables, ordered by their names, and nothing else. There
is no text for no variable. -/
def HoldsLines (text : Option Text) (vars : List (Text × Text)) : Prop :=
  (vars = [] → text = none) ∧
    (vars ≠ [] → ∃ ordered : List (Text × Text), ordered.Perm vars ∧ ordered.Pairwise (fun a b => a.1 ≤ b.1) ∧
      text = some (['\n'].intercalate (ordered.map fun entry => entry.1 ++ '=' :: entry.2)))

/-- A flag that is set, the word `true` in any case, or another value that is true in Python. -/
def MeansTrue : Json → Prop
  | .bool flag => flag = true
  | .str text => text.map Char.toLower = "true".toList
  | value => Api.isTrue value = true

/-- The submitted fields that are bound to an environment variable. -/
def SubmitsEnv (name : Text) (value : Json) : Prop :=
  ∃ field ∈ contract.fields, field.name = name ∧ field.bindTo = .envVar ∧
    isEmpty (resolveField values name field) = false ∧ resolveField values name field = value

/-- The payload has every submitted field in its place, and in no other. -/
structure Routes (payload : AssembledRunPayload) (plain secure : List (Text × Text)) : Prop where
  plainText : HoldsLines payload.pipelineVars plain
  secureText : HoldsLines payload.pipelineVarsSecure secure
  plainVars : ∀ name text, (name, text) ∈ plain ↔ SubmitsText lib contract values false name text
  secureVars : ∀ name text, (name, text) ∈ secure ↔ SubmitsText lib contract values true name text
  env : ∀ name value, (name, value) ∈ payload.envVars.getD [] ↔ SubmitsEnv contract values name value
  /-- No name is in two places. -/
  apart : (plain.map Prod.fst ++ secure.map Prod.fst ++
    (payload.envVars.getD []).map Prod.fst).Nodup
  profile : payload.profileId =
    pyStr lib ((boundValue contract values .profile).getD (.str "default".toList))
  pipelineData : some payload.pipelineData =
    (boundValue contract values .pipelineData).map (pyStr lib)
  logLevel : payload.logLevel =
    pyStr lib ((boundValue contract values .logLevel).getD (.str "INFO".toList))
  isDryRun : payload.isDryRun = true ↔
    MeansTrue ((boundValue contract values .isDryRun).getD (.bool false))

end Specification

variable {lib : EngineLibrary} {contract : DeclarativeRunTemplate} {values values' : JsonObject}
  {effective : EffectiveFormState} {submitted : JsonObject} {payload : AssembledRunPayload}

theorem collectField_isOk_iff {entry : Text × FieldSpec} :
    (∃ collected, collectField lib effective entry = .ok collected) ↔
      (effective.visible entry.1 = true → effective.required entry.1 = true →
        isEmpty (Rsql.getValue effective.resolvedValues entry.1) = false) ∧
      (effective.visible entry.1 = true →
        isEmpty (Rsql.getValue effective.resolvedValues entry.1) = false →
        validateField lib entry.2 (Rsql.getValue effective.resolvedValues entry.1) = .ok ()) := by
  unfold collectField
  dsimp only
  cases hempty : isEmpty (Rsql.getValue effective.resolvedValues entry.1) with
  | true =>
      rw [if_pos rfl]
      cases hvisible : effective.visible entry.1 with
      | false => simp
      | true => cases hrequired : effective.required entry.1 <;> simp
  | false =>
      rw [if_neg Bool.false_ne_true]
      cases hvisible : effective.visible entry.1 with
      | false => simp
      | true =>
          cases hvalid : validateField lib entry.2
              (Rsql.getValue effective.resolvedValues entry.1) with
          | error error => simp [bind, Except.bind]
          | ok _ => simp [bind, Except.bind]

/-- The loop over the fields ends if and only if each of its turns does. -/
theorem collectSubmitted_isOk_iff : (∃ submitted, collectSubmitted lib effective = .ok submitted) ↔
    ∀ entry ∈ effective.fields, ∃ collected, collectField lib effective entry = .ok collected := by
  rw [← exists_mapM_ok_iff]
  constructor
  · rintro ⟨submitted, h⟩
    obtain ⟨collected, hcollected, -⟩ := bind_eq_ok.mp h
    exact ⟨collected, hcollected⟩
  · rintro ⟨collected, hcollected⟩
    exact ⟨_, bind_eq_ok.mpr ⟨collected, hcollected, rfl⟩⟩

theorem assemble_isOk_iff : (∃ payload, assemble lib effective submitted = .ok payload) ↔
    (findSingleton submitted .pipelineData effective.fields).isSome = true := by
  unfold assemble getRequiredSingleton
  cases findSingleton submitted .pipelineData effective.fields with
  | none => simp [bind, Except.bind]
  | some value => simp [bind, Except.bind]

/-- The search goes through the fields in the order of the contract. -/
theorem findSingleton_submittedValues (hnodup : (contract.fields.map FieldSpec.name).Nodup)
    (bindTo : BindTo) :
    findSingleton (submittedValues contract values) bindTo contract.fieldsByName =
      boundValue contract values bindTo := by
  have hsubmitted : ∀ field ∈ contract.fields,
      Json.get (submittedValues contract values) field.name =
        if isEmpty (resolveField values field.name field) then none
        else some (resolveField values field.name field) := fun field hfield =>
    get_submittedValues ((mem_fieldsByName_iff hnodup).mpr ⟨hfield, rfl⟩)
  rw [fieldsByName_eq hnodup, boundValue]
  revert hsubmitted
  generalize submittedValues contract values = submitted
  clear hnodup
  induction contract.fields with
  | nil => exact fun _ => rfl
  | cons field rest ih =>
      intro hsubmitted
      have hrest := ih fun other hother => hsubmitted other (List.mem_cons_of_mem _ hother)
      rw [List.map_cons, findSingleton, hrest, hsubmitted field List.mem_cons_self, List.find?_cons]
      by_cases hbind : field.bindTo = bindTo
      · cases hvalue : isEmpty (resolveField values field.name field) with
        | true =>
            cases hdefault : isEmpty field.value with
            | true => simp [hbind, hasValue, hvalue, hdefault]
            | false => simp [hbind, hasValue, hvalue, hdefault]
        | false => simp [hbind, hasValue, hvalue]
      · simp [hbind]

theorem boundValue_isSome_iff {bindTo : BindTo} : (boundValue contract values bindTo).isSome = true ↔
    ∃ field ∈ contract.fields, field.bindTo = bindTo ∧
      (isEmpty (resolveField values field.name field) = false ∨ isEmpty field.value = false) := by
  rw [boundValue, Option.isSome_map, List.find?_isSome]
  simp [hasValue]

/-- The engine builds a payload from the accepted maps of values and from no other. -/
theorem buildRunPayload_isOk_iff (hcontract : contract.WellFormed) :
    (∃ payload, buildRunPayload lib contract values = .ok payload) ↔
      Accepts lib contract values := by
  obtain ⟨effective, hevaluate⟩ : ∃ effective, evaluate lib contract values = .ok effective :=
    ⟨_, evaluate_eq hcontract⟩
  have hfields : effective.fields = contract.fieldsByName := evaluate_fields hevaluate
  have hturns : (∃ submitted, collectSubmitted lib effective = .ok submitted) ↔
      ∀ field ∈ contract.fields,
        ((field.flagsOf (serverText lib contract values)).visible = true →
          (field.flagsOf (serverText lib contract values)).required = true →
          isEmpty (resolveField values field.name field) = false) ∧
        ((field.flagsOf (serverText lib contract values)).visible = true →
          isEmpty (resolveField values field.name field) = false →
          validateField lib field (resolveField values field.name field) = .ok ()) := by
    rw [collectSubmitted_isOk_iff, hfields, fieldsByName_eq hcontract.names, List.forall_mem_map]
    refine forall₂_congr fun field hfield => ?_
    obtain ⟨hvisible, hrequired⟩ := effective_flags hcontract hevaluate hfield
    rw [collectField_isOk_iff, hvisible, hrequired, evaluate_resolvedValues hevaluate,
      getValue_eq hcontract hfield]
  have hdata : (∃ payload,
      assemble lib effective (submittedValues contract values) = .ok payload) ↔ _ :=
    assemble_isOk_iff
  rw [hfields, findSingleton_submittedValues hcontract.names, boundValue_isSome_iff] at hdata
  constructor
  · rintro ⟨payload, h⟩
    obtain ⟨effective', hevaluate', hsubmitted, hassemble⟩ := buildRunPayload_eq_ok h
    obtain rfl := Except.ok.inj (hevaluate.symm.trans hevaluate')
    have hall := hturns.mp ⟨_, hsubmitted⟩
    exact ⟨fun field hfield => (hall field hfield).1, fun field hfield => (hall field hfield).2,
      hdata.mp ⟨payload, hassemble⟩⟩
  · rintro ⟨hrequired, hvalid, hpipelineData⟩
    obtain ⟨submitted, hsubmitted⟩ := hturns.mpr fun field hfield =>
      ⟨hrequired field hfield, hvalid field hfield⟩
    obtain ⟨payload, hassemble⟩ := hdata.mpr hpipelineData
    rw [← collectSubmitted_eq hevaluate hsubmitted] at hassemble
    exact ⟨payload, bind_eq_ok.mpr ⟨effective, hevaluate,
      bind_eq_ok.mpr ⟨submitted, hsubmitted, hassemble⟩⟩⟩

theorem hasText_iff {value : Json} {text : Text} : HasText lib value text ↔ asPipelineText lib value = text := by
  constructor
  · intro h
    cases h with
    | yes => rfl
    | no => rfl
    | str text => rfl
    | other value hflag htext =>
        cases value with
        | bool flag => exact absurd rfl (hflag flag)
        | str text => exact absurd rfl (htext text)
        | null => rfl
        | int _ => rfl
        | float _ => rfl
        | arr _ => rfl
        | obj _ => rfl
  · rintro rfl
    cases value with
    | bool flag =>
        cases flag with
        | true => exact .yes
        | false => exact .no
    | str text => exact .str text
    | null => exact .other _ nofun nofun
    | int _ => exact .other _ nofun nofun
    | float _ => exact .other _ nofun nofun
    | arr _ => exact .other _ nofun nofun
    | obj _ => exact .other _ nofun nofun

theorem submitsText_iff {secure : Bool} {name text : Text} :
    SubmitsText lib contract values secure name text ↔ SubmitsVar lib contract values secure name text := by
  simp only [SubmitsText, SubmitsVar, hasText_iff]

theorem pairwise_sortVars (vars : List (Text × Text)) :
    (sortVars vars).Pairwise fun a b => a.1 ≤ b.1 := by
  have hsorted : (sortVars vars).Pairwise fun a b => decide (a.1 ≤ b.1) = true := by
    apply List.pairwise_mergeSort
    · intro a b c hab hbc
      exact decide_eq_true (le_trans (of_decide_eq_true hab) (of_decide_eq_true hbc))
    · intro a b
      rw [Bool.or_eq_true, decide_eq_true_eq, decide_eq_true_eq]
      exact le_total a.1 b.1
  exact hsorted.imp of_decide_eq_true

/-- The assembled text has one line for each variable. -/
theorem holdsLines_pipelineText (vars : List (Text × Text)) : HoldsLines (pipelineText vars) vars := by
  refine ⟨fun hnil => ?_, fun hne => ?_⟩
  · rw [hnil]
    rfl
  · have hempty : ¬vars.isEmpty = true := fun h => hne (List.isEmpty_iff.mp h)
    refine ⟨sortVars vars, List.mergeSort_perm _ _, pairwise_sortVars vars, ?_⟩
    rw [pipelineText, if_neg hempty]
    rfl

theorem asBool_eq_true_iff {value : Json} : asBool value = true ↔ MeansTrue value := by
  cases value with
  | str text => exact beq_iff_eq
  | _ => exact Iff.rfl

theorem mem_envVars_iff (hnodup : (contract.fields.map FieldSpec.name).Nodup)
    (heffective : effective.fields = contract.fieldsByName) {name : Text} {value : Json} :
    (name, value) ∈ envVars effective (submittedValues contract values) ↔
      SubmitsEnv contract values name value := by
  rw [envVars, List.mem_filter, mem_submittedValues_iff]
  constructor
  · rintro ⟨⟨field, hfield, hvalue, hfilled⟩, hbound⟩
    obtain ⟨hmem, hname⟩ := (mem_fieldsByName_iff hnodup).mp hfield
    rw [lookup_fields heffective hfield] at hbound
    exact ⟨field, hmem, hname, of_decide_eq_true hbound, hvalue ▸ hfilled, hvalue⟩
  · rintro ⟨field, hmem, hname, hbind, hfilled, hvalue⟩
    have hfield := (mem_fieldsByName_iff hnodup).mpr ⟨hmem, hname⟩
    refine ⟨⟨field, hfield, hvalue, hvalue ▸ hfilled⟩, ?_⟩
    rw [lookup_fields heffective hfield]
    exact decide_eq_true hbind

theorem nodup_envVars :
    ((envVars effective (submittedValues contract values)).map Prod.fst).Nodup :=
  nodup_submittedValues.sublist (List.filter_sublist.map Prod.fst)

section Exclusive

variable {name : Text}

/-- A submitted parameter is either plain or secure. -/
theorem not_submitsVar_twice (hnodup : (contract.fields.map FieldSpec.name).Nodup) {text text' : Text}
    (hplain : SubmitsVar lib contract values false name text) :
    ¬SubmitsVar lib contract values true name text' := by
  rintro ⟨field', hfield', hname', -, hsecure, -⟩
  obtain ⟨field, hfield, hname, -, hplain, -⟩ := hplain
  rw [List.inj_on_of_nodup_map hnodup hfield hfield' (hname.trans hname'.symm), hsecure] at hplain
  cases hplain

/-- No name is submitted as a parameter and as a variable of the environment. -/
theorem not_submitsVar_and_env (hnodup : (contract.fields.map FieldSpec.name).Nodup) {secure : Bool}
    {text : Text} {value : Json} (hvar : SubmitsVar lib contract values secure name text) :
    ¬SubmitsEnv contract values name value := by
  rintro ⟨field', hfield', hname', henv, -⟩
  obtain ⟨field, hfield, hname, hvar, -⟩ := hvar
  rw [List.inj_on_of_nodup_map hnodup hfield hfield' (hname.trans hname'.symm), henv] at hvar
  cases hvar

end Exclusive

/-- No name is in two of the lists that are assembled. -/
theorem nodup_assembledNames (hnodup : (contract.fields.map FieldSpec.name).Nodup)
    (hvars : ∀ secure name text, (name, text) ∈ pipelineVars lib effective secure
      (submittedValues contract values) ↔ SubmitsVar lib contract values secure name text)
    (henv : ∀ name value, (name, value) ∈ envVars effective (submittedValues contract values) ↔
      SubmitsEnv contract values name value) :
    ((pipelineVars lib effective false (submittedValues contract values)).map Prod.fst ++
      (pipelineVars lib effective true (submittedValues contract values)).map Prod.fst ++
      (envVars effective (submittedValues contract values)).map Prod.fst).Nodup := by
  have hapart : ∀ {secure : Bool} {name : Text},
      name ∈ (pipelineVars lib effective secure (submittedValues contract values)).map Prod.fst →
      name ∉ (envVars effective (submittedValues contract values)).map Prod.fst := by
    intro secure name hvar hsubmitted
    obtain ⟨⟨_, text⟩, hmem, rfl⟩ := List.mem_map.mp hvar
    obtain ⟨⟨_, value⟩, hmem', rfl⟩ := List.mem_map.mp hsubmitted
    exact not_submitsVar_and_env hnodup ((hvars _ _ _).mp hmem) ((henv _ _).mp hmem')
  rw [List.nodup_append, List.nodup_append]
  refine ⟨⟨nodup_pipelineVars, nodup_pipelineVars, ?_⟩, nodup_envVars, ?_⟩
  · rintro name hplain other hsecure rfl
    obtain ⟨⟨_, text⟩, hmem, rfl⟩ := List.mem_map.mp hplain
    obtain ⟨⟨_, text'⟩, hmem', rfl⟩ := List.mem_map.mp hsecure
    exact not_submitsVar_twice hnodup ((hvars _ _ _).mp hmem) ((hvars _ _ _).mp hmem')
  · rintro name hvar other hsubmitted rfl
    rcases List.mem_append.mp hvar with hvar | hvar
    · exact hapart hvar hsubmitted
    · exact hapart hvar hsubmitted

/-- What is assembled has every submitted field in its place. -/
theorem routes_of_ok (hnodup : (contract.fields.map FieldSpec.name).Nodup)
    (h : buildRunPayload lib contract values = .ok payload) :
    ∃ plain secure, Routes lib contract values payload plain secure := by
  obtain ⟨effective, hevaluate, -, hassemble⟩ := buildRunPayload_eq_ok h
  have hfields : effective.fields = contract.fieldsByName := evaluate_fields hevaluate
  have hvars : ∀ secure name text, (name, text) ∈ pipelineVars lib effective secure
      (submittedValues contract values) ↔ SubmitsVar lib contract values secure name text :=
    fun _ _ _ => mem_pipelineVars_iff hnodup hfields
  have henv : ∀ name value, (name, value) ∈ envVars effective (submittedValues contract values) ↔
      SubmitsEnv contract values name value := fun _ _ => mem_envVars_iff hnodup hfields
  have hbound : ∀ bindTo, findSingleton (submittedValues contract values) bindTo effective.fields =
      boundValue contract values bindTo := by
    intro bindTo
    rw [hfields]
    exact findSingleton_submittedValues hnodup bindTo
  obtain ⟨pipelineData, hdata, heq⟩ := bind_eq_ok.mp hassemble
  obtain rfl := Except.ok.inj heq
  have hgetD : ∀ env : JsonObject, (if env.isEmpty then none else some env).getD [] = env := by
    intro env
    cases env <;> rfl
  refine ⟨pipelineVars lib effective false (submittedValues contract values),
    pipelineVars lib effective true (submittedValues contract values), holdsLines_pipelineText _,
    holdsLines_pipelineText _, fun name text => (hvars false name text).trans submitsText_iff.symm,
    fun name text => (hvars true name text).trans submitsText_iff.symm, ?_, ?_, ?_, ?_, ?_, ?_⟩
  · dsimp only
    rw [hgetD]
    exact henv
  · dsimp only
    rw [hgetD]
    exact nodup_assembledNames hnodup hvars henv
  · dsimp only
    rw [getSingleton, hbound]
  · unfold getRequiredSingleton at hdata
    rw [hbound] at hdata
    dsimp only
    split at hdata
    · next value hvalue =>
      rw [hvalue, Except.ok.inj hdata]
      rfl
    · cases hdata
  · dsimp only
    rw [getSingleton, hbound]
  · rw [← asBool_eq_true_iff]
    dsimp only
    rw [getSingleton, hbound]

/-- The engine reads the values of the fields of the contract only. -/
theorem buildRunPayload_congr (hsame : ∀ field ∈ contract.fields,
    Json.get values' field.name = Json.get values field.name) :
    buildRunPayload lib contract values' = buildRunPayload lib contract values := by
  have hresolve : resolveValues contract.fieldsByName values' =
      resolveValues contract.fieldsByName values := by
    refine List.map_congr_left fun entry hentry => ?_
    obtain ⟨field, hfield, rfl⟩ := List.mem_map.mp (Dict.mem_of_mem_ofPairs hentry)
    rw [resolveField, resolveField, hsame field hfield]
  have hevaluate : evaluate lib contract values' = evaluate lib contract values := by
    simp only [evaluate, hresolve]
  simp only [buildRunPayload, hevaluate]

end Declarative.Engine
end PdeOperator
