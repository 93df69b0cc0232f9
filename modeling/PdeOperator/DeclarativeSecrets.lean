import PdeOperator.InputCryptoOutline
import PdeOperator.RunStore

/-! Two calls with other secrets: what a run row shows of the secure values of a declarative template. -/

namespace PdeOperator
open Base

namespace Declarative

/-- A field whose values go to `pipeline_vars_secure`. -/
def FieldSpec.IsSecret (field : FieldSpec) : Prop := field.bindTo = .pipelineVar ∧ field.secure = true

instance (field : FieldSpec) : Decidable field.IsSecret := inferInstanceAs (Decidable (_ ∧ _))

/-- Two maps of values that differ in non-empty values of secret fields only. -/
def DifferInSecrets (contract : DeclarativeRunTemplate) (values values' : JsonObject) : Prop :=
  ∀ name, Json.get values name ≠ Json.get values' name →
    (∃ field, (name, field) ∈ contract.fieldsByName ∧ field.IsSecret) ∧
    ∃ value value', Json.get values name = some value ∧ Json.get values' name = some value' ∧
      Engine.isEmpty value = false ∧ Engine.isEmpty value' = false

namespace Engine

/-- The secure variables that a map of values submits, in the order of their names. -/
def secureVars (lib : EngineLibrary) (contract : DeclarativeRunTemplate) (values : JsonObject) :
    List (Text × Text) :=
  sortVars (contract.fieldsByName.filterMap fun entry =>
    if entry.2.IsSecret ∧ isEmpty (resolveField values entry.1 entry.2) = false then
      some (entry.1, asPipelineText lib (resolveField values entry.1 entry.2))
    else none)

section Assembled

variable {lib : EngineLibrary} {contract : DeclarativeRunTemplate} {values values' : JsonObject}
  {effective effective' : EffectiveFormState} {payload payload' : AssembledRunPayload}

/-- The secure text is made of the secure variables. -/
theorem pipelineText_secure (heffective : effective.fields = contract.fieldsByName) :
    sortVars (pipelineVars lib effective true (submittedValues contract values)) =
      secureVars lib contract values := by
  rw [secureVars, pipelineVars, submittedValues, List.filterMap_filterMap]
  refine congrArg sortVars (List.filterMap_congr fun entry hentry => ?_)
  unfold submitField
  cases hempty : isEmpty (resolveField values entry.1 entry.2) with
  | true => simp
  | false =>
      simp only [Bool.false_eq_true, if_false, Option.bind_some,
        lookup_fields heffective hentry, FieldSpec.IsSecret, and_true]

theorem pipelineText_eq_none_iff {vars : List (Text × Text)} :
    pipelineText vars = none ↔ sortVars vars = [] := by
  rw [pipelineText, ← List.length_eq_zero_iff, sortVars, List.length_mergeSort,
    List.length_eq_zero_iff, ← List.isEmpty_iff]
  split
  · next h => simp [h]
  · next h => simp [h]

theorem pipelineText_of_ne_nil {vars : List (Text × Text)} (h : sortVars vars ≠ []) :
    pipelineText vars = some (Text.joinLines ((sortVars vars).map fun entry =>
      InputCrypto.keyValueLine entry.1 entry.2)) := by
  refine if_neg fun hempty => h ?_
  rw [List.isEmpty_iff.mp hempty, sortVars, List.mergeSort_nil]

/-- Two assembled texts have the same mask exactly if their outlines are the same. -/
theorem maskSecureVars_pipelineText_iff {vars vars' : List (Text × Text)} :
    InputCrypto.maskSecureVars (pipelineText vars) = InputCrypto.maskSecureVars (pipelineText vars') ↔
      InputCrypto.outline (sortVars vars) = InputCrypto.outline (sortVars vars') := by
  have htext : ∀ {all : List (Text × Text)}, all ≠ [] →
      Text.joinLines (all.map fun entry => InputCrypto.keyValueLine entry.1 entry.2) ≠ [] := by
    intro all hall hnil
    refine InputCrypto.outline_ne_nil hall ?_
    rw [← InputCrypto.shownLines_joinLines, hnil]
    rfl
  have hmasked : ∀ {t : Text}, InputCrypto.maskSecureVars (some t) ≠ none := by
    intro t
    rw [InputCrypto.maskSecureVars]
    split <;> exact Option.some_ne_none _
  by_cases h : sortVars vars = []
  · rw [pipelineText_eq_none_iff.mpr h, h]
    by_cases h' : sortVars vars' = []
    · rw [pipelineText_eq_none_iff.mpr h', h']
      exact iff_of_true rfl rfl
    · rw [pipelineText_of_ne_nil h']
      exact iff_of_false (fun heq => hmasked heq.symm)
        fun heq => InputCrypto.outline_ne_nil h' heq.symm
  · rw [pipelineText_of_ne_nil h]
    by_cases h' : sortVars vars' = []
    · rw [pipelineText_eq_none_iff.mpr h', h']
      exact iff_of_false hmasked (InputCrypto.outline_ne_nil h)
    · rw [pipelineText_of_ne_nil h', InputCrypto.maskSecureVars_eq_iff (htext h) (htext h'),
        InputCrypto.shownLines_joinLines, InputCrypto.shownLines_joinLines]

/-- The masks of two accepted maps of values. -/
theorem maskSecureVars_payload_iff (h : buildRunPayload lib contract values = .ok payload)
    (h' : buildRunPayload lib contract values' = .ok payload') :
    InputCrypto.maskSecureVars payload.pipelineVarsSecure =
        InputCrypto.maskSecureVars payload'.pipelineVarsSecure ↔
      InputCrypto.outline (secureVars lib contract values) =
        InputCrypto.outline (secureVars lib contract values') := by
  obtain ⟨effective, hevaluate, -, hassemble⟩ := buildRunPayload_eq_ok h
  obtain ⟨effective', hevaluate', -, hassemble'⟩ := buildRunPayload_eq_ok h'
  rw [(assemble_texts hassemble).2, (assemble_texts hassemble').2, maskSecureVars_pipelineText_iff,
    pipelineText_secure (evaluate_fields hevaluate), pipelineText_secure (evaluate_fields hevaluate')]

/-- A field resolves to the same in both maps, or is secret and filled in both. -/
theorem resolveField_of_differ (hdiffer : DifferInSecrets contract values values')
    {entry : Text × FieldSpec} (hentry : entry ∈ contract.fieldsByName) :
    resolveField values entry.1 entry.2 = resolveField values' entry.1 entry.2 ∨
      entry.2.IsSecret ∧ isEmpty (resolveField values entry.1 entry.2) = false ∧
        isEmpty (resolveField values' entry.1 entry.2) = false := by
  by_cases hsame : Json.get values entry.1 = Json.get values' entry.1
  · left
    rw [resolveField, resolveField, hsame]
  · right
    obtain ⟨⟨field, hfield, hsecret⟩, value, value', hvalue, hvalue', hempty, hempty'⟩ :=
      hdiffer entry.1 hsame
    have hown := (Dict.lookup_eq_some_iff nodup_fieldsByName).mpr hentry
    have hfound := (Dict.lookup_eq_some_iff nodup_fieldsByName).mpr hfield
    obtain rfl := Option.some.inj (hown.symm.trans hfound)
    rw [resolveField, resolveField, hvalue, hvalue']
    exact ⟨hsecret, hempty, hempty'⟩

/-- What reads no secret field reads the same from both maps. -/
theorem filterMap_submitted_congr {β : Type} (hdiffer : DifferInSecrets contract values values')
    {read : Text × Json → Option β}
    (hread : ∀ entry ∈ contract.fieldsByName, entry.2.IsSecret → ∀ value,
      read (entry.1, value) = none) :
    (submittedValues contract values).filterMap read =
      (submittedValues contract values').filterMap read := by
  have hnone : ∀ {vs : JsonObject} {entry}, entry ∈ contract.fieldsByName → entry.2.IsSecret →
      (submitField vs entry).bind read = none := by
    intro vs entry hentry hsecret
    unfold submitField
    split
    · rfl
    · exact hread entry hentry hsecret _
  rw [submittedValues, submittedValues, List.filterMap_filterMap, List.filterMap_filterMap]
  apply List.filterMap_congr
  intro entry hentry
  rcases resolveField_of_differ hdiffer hentry with hsame | ⟨hsecret, -, -⟩
  · rw [submitField, submitField, hsame]
  · rw [hnone hentry hsecret, hnone hentry hsecret]

/-- A singleton reads its own fields only. -/
theorem findSingleton_congr {submitted submitted' : JsonObject} {bindTo : BindTo}
    {fields : List (Text × FieldSpec)}
    (h : ∀ entry ∈ fields, entry.2.bindTo = bindTo →
      Json.get submitted entry.2.name = Json.get submitted' entry.2.name) :
    findSingleton submitted bindTo fields = findSingleton submitted' bindTo fields := by
  induction fields with
  | nil => rfl
  | cons entry rest ih =>
      have hrest := ih fun other hother => h other (List.mem_cons_of_mem _ hother)
      rw [findSingleton, findSingleton, hrest]
      by_cases hbind : entry.2.bindTo = bindTo
      · rw [h entry List.mem_cons_self hbind]
      · rw [if_pos hbind, if_pos hbind]

theorem findSingleton_submitted (hdiffer : DifferInSecrets contract values values') {bindTo : BindTo}
    (hbind : bindTo ≠ .pipelineVar) :
    findSingleton (submittedValues contract values) bindTo contract.fieldsByName =
      findSingleton (submittedValues contract values') bindTo contract.fieldsByName := by
  apply findSingleton_congr
  intro entry hentry hbound
  rw [name_of_mem_fieldsByName hentry, get_submittedValues hentry, get_submittedValues hentry]
  rcases resolveField_of_differ hdiffer hentry with hsame | ⟨hsecret, -, -⟩
  · rw [hsame]
  · exact absurd (hbound.symm.trans hsecret.1) hbind

section SameFields

variable (hdiffer : DifferInSecrets contract values values')
  (hfields : effective.fields = contract.fieldsByName)
  (hfields' : effective'.fields = contract.fieldsByName)
include hdiffer hfields hfields'

theorem getSingleton_submitted {bindTo : BindTo} (hbind : bindTo ≠ .pipelineVar) (default : Json) :
    getSingleton effective (submittedValues contract values) bindTo default =
      getSingleton effective' (submittedValues contract values') bindTo default := by
  rw [getSingleton, getSingleton, hfields, hfields', findSingleton_submitted hdiffer hbind]

theorem getRequiredSingleton_submitted {bindTo : BindTo} (hbind : bindTo ≠ .pipelineVar) :
    getRequiredSingleton effective (submittedValues contract values) bindTo =
      getRequiredSingleton effective' (submittedValues contract values') bindTo := by
  rw [getRequiredSingleton, getRequiredSingleton, hfields, hfields',
    findSingleton_submitted hdiffer hbind]

theorem pipelineVars_submitted :
    pipelineVars lib effective false (submittedValues contract values) =
      pipelineVars lib effective' false (submittedValues contract values') := by
  rw [pipelineVars, pipelineVars, hfields, hfields']
  apply filterMap_submitted_congr hdiffer
  intro entry hentry hsecret value
  rw [(Dict.lookup_eq_some_iff nodup_fieldsByName).mpr hentry]
  exact if_neg fun hplain => absurd (hsecret.2.symm.trans hplain.2) Bool.true_eq_false.mp

theorem envVars_submitted : envVars effective (submittedValues contract values) =
    envVars effective' (submittedValues contract values') := by
  rw [envVars, envVars, hfields, hfields', ← List.filterMap_eq_filter]
  apply filterMap_submitted_congr hdiffer
  intro entry hentry hsecret value
  have hnot : ¬entry.2.bindTo = .envVar := by
    rw [hsecret.1]
    decide
  simp [Option.guard, (Dict.lookup_eq_some_iff nodup_fieldsByName).mpr hentry, hnot]

end SameFields

/-- Two payloads that differ in their secure texts only. -/
def SameButSecure (payload payload' : AssembledRunPayload) : Prop :=
  { payload with pipelineVarsSecure := none } = { payload' with pipelineVarsSecure := none }

/-- The secrets reach the secure text and nothing else. -/
theorem buildRunPayload_sameButSecure (hdiffer : DifferInSecrets contract values values')
    (h : buildRunPayload lib contract values = .ok payload)
    (h' : buildRunPayload lib contract values' = .ok payload') : SameButSecure payload payload' := by
  obtain ⟨effective, hevaluate, -, hassemble⟩ := buildRunPayload_eq_ok h
  obtain ⟨effective', hevaluate', -, hassemble'⟩ := buildRunPayload_eq_ok h'
  have hfields : effective.fields = contract.fieldsByName := evaluate_fields hevaluate
  have hfields' : effective'.fields = contract.fieldsByName := evaluate_fields hevaluate'
  obtain ⟨pipelineData, hdata, heq⟩ := bind_eq_ok.mp hassemble
  obtain ⟨pipelineData', hdata', heq'⟩ := bind_eq_ok.mp hassemble'
  obtain rfl := Except.ok.inj heq
  obtain rfl := Except.ok.inj heq'
  have hsingleton : ∀ {bindTo : BindTo} (default : Json), bindTo ≠ .pipelineVar →
      getSingleton effective (submittedValues contract values) bindTo default =
        getSingleton effective' (submittedValues contract values') bindTo default :=
    fun default hbind => getSingleton_submitted hdiffer hfields hfields' hbind default
  have hpipelineData : pipelineData = pipelineData' := by
    rw [getRequiredSingleton_submitted hdiffer hfields hfields' (by decide), hdata'] at hdata
    exact (Except.ok.inj hdata).symm
  simp only [SameButSecure, hsingleton _ (by decide : BindTo.profile ≠ .pipelineVar),
    hsingleton _ (by decide : BindTo.logLevel ≠ .pipelineVar),
    hsingleton _ (by decide : BindTo.isDryRun ≠ .pipelineVar), hpipelineData,
    pipelineVars_submitted hdiffer hfields hfields', envVars_submitted hdiffer hfields hfields']

/-- The names of the secure variables are the same for both maps. -/
theorem secureVars_names (hdiffer : DifferInSecrets contract values values') :
    (secureVars lib contract values).map Prod.fst =
      (secureVars lib contract values').map Prod.fst := by
  have hsorted : ∀ vars : List (Text × Text), (sortVars vars).map Prod.fst =
      (vars.map Prod.fst).mergeSort fun a b => decide (a ≤ b) := fun vars =>
    List.map_mergeSort fun _ _ _ _ => rfl
  rw [secureVars, secureVars, hsorted, hsorted, List.map_filterMap, List.map_filterMap]
  refine congrArg (List.mergeSort · _) (List.filterMap_congr fun entry hentry => ?_)
  rcases resolveField_of_differ hdiffer hentry with hsame | ⟨hsecret, hempty, hempty'⟩
  · rw [hsame]
  · rw [if_pos ⟨hsecret, hempty⟩, if_pos ⟨hsecret, hempty'⟩]
    rfl

variable (lib contract values) in
/-- The text of every secure variable is a single line. -/
def SecretsAreLines : Prop := ∀ entry ∈ secureVars lib contract values, Text.IsLine entry.2

/-- Secrets without line boundaries leave no trace. -/
theorem outline_secureVars_of_lines (hdiffer : DifferInSecrets contract values values')
    (h : SecretsAreLines lib contract values) (h' : SecretsAreLines lib contract values') :
    InputCrypto.outline (secureVars lib contract values) =
      InputCrypto.outline (secureVars lib contract values') :=
  InputCrypto.outline_eq_of_isLine (secureVars_names hdiffer) h h'

end Assembled
end Engine
end Declarative

/-- A row without its timestamps, its URL and the name of its Job. -/
def Run.content (run : Run) : Run :=
  { run with
    k8sJobName := none
    statusUpdatedAt := none
    reportUpdatedAt := none
    logUpdatedAt := none
    executionUrl := none
    createdAt := 0
    startedAt := none
    finishedAt := none
    cancelRequestedAt := none }

namespace RunStore

/-- Two rows agree in every column but the id, the timestamps and the URL. The name of a Job, when the
call starts one, is the id of the run again. -/
def RowsAgree (id : Uuid) (run : Run) (id' : Uuid) (run' : Run) : Prop :=
  run.content = run'.content ∧
    (run.k8sJobName = none ∧ run'.k8sJobName = none ∨
      run.k8sJobName = some (RunService.jobName id) ∧ run'.k8sJobName = some (RunService.jobName id'))

section Rows

variable {settings : Settings} {lib : CallLibrary} {env env' : RunEnv} {w v w' v' : RunStore}

/-- Requests that differ in their secure texts only make rows that differ in the masks only. -/
theorem rowsAgree_started_iff {request request' : CreateRunRequest} {profile : Profile}
    {triggeredBy : Option Text}
    (hsame : { request with pipelineVarsSecure := none } =
      { request' with pipelineVarsSecure := none }) :
    RowsAgree env.newId (started settings env (RunService.createRun settings env.newId request profile
        triggeredBy env.createdAt))
      env'.newId (started settings env' (RunService.createRun settings env'.newId request' profile
        triggeredBy env'.createdAt)) ↔
      InputCrypto.maskSecureVars request.pipelineVarsSecure =
        InputCrypto.maskSecureVars request'.pipelineVarsSecure := by
  obtain ⟨hprofile, hdata, hvars, -, hdry, hlevel, henv, himage, htemplate⟩ :=
    CreateRunRequest.mk.inj hsame
  have hcreated : ∀ (e : RunEnv) (r : CreateRunRequest), (started settings e
      (RunService.createRun settings e.newId r profile triggeredBy e.createdAt)).pipelineVarsSecure =
        InputCrypto.maskSecureVars r.pipelineVarsSecure := by
    intro e r
    unfold started
    split <;> rfl
  constructor
  · rintro ⟨hcontent, -⟩
    have hmask := congrArg Run.pipelineVarsSecure hcontent
    calc InputCrypto.maskSecureVars request.pipelineVarsSecure
        = (started settings env (RunService.createRun settings env.newId request profile triggeredBy
            env.createdAt)).pipelineVarsSecure := (hcreated env request).symm
      _ = (started settings env' (RunService.createRun settings env'.newId request' profile triggeredBy
            env'.createdAt)).pipelineVarsSecure := hmask
      _ = InputCrypto.maskSecureVars request'.pipelineVarsSecure := hcreated env' request'
  · intro hmask
    unfold RowsAgree started
    split
    · refine ⟨?_, Or.inl ⟨rfl, rfl⟩⟩
      simp only [Run.content, RunService.createRun, hprofile, hdata, hvars, hdry, hlevel, henv, himage,
        htemplate, hmask]
    · refine ⟨?_, Or.inr ⟨rfl, rfl⟩⟩
      simp only [Run.content, RunService.startRunJobNow, RunService.createRun, hprofile, hdata, hvars,
        hdry, hlevel, henv, himage, htemplate, hmask]

/-- The rows of two calls whose values differ in secrets agree if and only if the secrets have the same
outline. -/
theorem secret_rows_agree_iff {templateId : Uuid} {template : RunTemplate}
    {contract : Declarative.DeclarativeRunTemplate} {values values' : JsonObject}
    (hprofiles : w.store.session.profiles = v.store.session.profiles)
    (hw : w.store.session.templates.lookup templateId = some template)
    (hv : v.store.session.templates.lookup templateId = some template)
    (hcontract : template.declarativeSpec.bind lib.loadContract = some contract)
    (hdiffer : Declarative.DifferInSecrets contract values values')
    (h : createRunFromDeclarativeTemplate settings lib env templateId (some values) w = .ok w')
    (h' : createRunFromDeclarativeTemplate settings lib env' templateId (some values') v = .ok v') :
    ∃ run run', w'.runs.lookup env.newId = some run ∧ v'.runs.lookup env'.newId = some run' ∧
      (RowsAgree env.newId run env'.newId run' ↔
        InputCrypto.outline (Declarative.Engine.secureVars lib.engine contract values) =
          InputCrypto.outline (Declarative.Engine.secureVars lib.engine contract values')) := by
  obtain ⟨payload, profile, hpayload, hprofile, rfl⟩ :=
    createRunFromDeclarativeTemplate_eq_ok hw hcontract h
  obtain ⟨payload', profile', hpayload', hprofile', rfl⟩ :=
    createRunFromDeclarativeTemplate_eq_ok hv hcontract h'
  have hsame := Declarative.Engine.buildRunPayload_sameButSecure hdiffer hpayload hpayload'
  obtain ⟨hid, hdata, hvars, -, hdry, hlevel, henv, himage⟩ :=
    Declarative.AssembledRunPayload.mk.inj hsame
  rw [hid, hprofiles] at hprofile
  obtain rfl := Option.some.inj (hprofile.symm.trans hprofile')
  refine ⟨_, _, AList.lookup_insert _, AList.lookup_insert _, ?_⟩
  rw [rowsAgree_started_iff]
  · exact Declarative.Engine.maskSecureVars_payload_iff hpayload hpayload'
  · simp only [Declarative.toCreateRunRequest, hid, hdata, hvars, hdry, hlevel, henv, himage]

end Rows

def dataField : Declarative.FieldSpec where
  name := "DATA".toList
  value := .str "stages: []".toList
  bindTo := .pipelineData

def keyField : Declarative.FieldSpec := { name := "KEY".toList, secure := true }

def secretContract : Declarative.DeclarativeRunTemplate := { fields := [dataField, keyField] }

def secretValues (text : Text) : JsonObject := [("KEY".toList, .str text)]

def secretTemplate : RunTemplate where
  name := "deploy".toList
  description := none
  tags := []
  templateKind := "declarative".toList
  profileId := "default".toList
  pipelineData := []
  pipelineVars := none
  pipelineVarsSecure := none
  isDryRun := false
  logLevel := "INFO".toList
  envVars := none
  pdeImage := none
  declarativeSpec := some []
  createdAt := 0
  updatedAt := 0

/-- Its server; the patterns of the contract are never asked for. -/
def secretCalls : CallLibrary := { sampleCalls with loadContract := fun _ => some secretContract }

def secretStart : RunStore where
  store := { sampleStore with
    session := { sampleDatabase with templates := AList.singleton 7 secretTemplate } }
  runs := ∅

theorem secretValues_differ {text text' : Text} (h : Text.isBlank text = false)
    (h' : Text.isBlank text' = false) :
    Declarative.DifferInSecrets secretContract (secretValues text) (secretValues text') := by
  intro name hdiffer
  have hname : name = "KEY".toList := by
    by_contra hother
    refine hdiffer ?_
    rw [secretValues, secretValues, Json.get, Json.get, List.lookup_cons, List.lookup_cons,
      beq_false_of_ne hother]
  subst hname
  refine ⟨⟨keyField, ?_, rfl, rfl⟩, .str text, .str text', rfl, rfl, h, h'⟩
  exact List.mem_cons_of_mem _ List.mem_cons_self

theorem secureVars_secretValues {text : Text} (h : Text.isBlank text = false) :
    Declarative.Engine.secureVars secretCalls.engine secretContract (secretValues text) =
      [("KEY".toList, text)] := by
  have hfields : secretContract.fieldsByName =
      [("DATA".toList, dataField), ("KEY".toList, keyField)] := rfl
  have hkey : keyField.IsSecret ∧ Declarative.Engine.isEmpty (Declarative.resolveField
      (secretValues text) "KEY".toList keyField) = false := ⟨⟨rfl, rfl⟩, h⟩
  have hdata : ¬dataField.IsSecret := fun hsecret => absurd hsecret.1 (by decide)
  rw [Declarative.Engine.secureVars, hfields, List.filterMap_cons, List.filterMap_cons,
    if_neg fun hd => hdata hd.1, if_pos hkey]
  exact List.mergeSort_singleton _

theorem secretsAreLines_secretValues {text : Text} (h : Text.isBlank text = false)
    (hline : Text.IsLine text) : Declarative.Engine.SecretsAreLines secretCalls.engine secretContract
      (secretValues text) := by
  intro entry hentry
  rw [secureVars_secretValues h, List.mem_singleton] at hentry
  exact hentry ▸ hline

theorem lookup_secretStart : secretStart.store.session.templates.lookup 7 = some secretTemplate := rfl

/-- Two keys of one line each make the same row. -/
theorem secret_rows_agree_one_line : ∃ w' v' run run',
    createRunFromDeclarativeTemplate {} secretCalls (sampleRunEnv 1) 7
      (some (secretValues "k=1".toList)) secretStart = .ok w' ∧
    createRunFromDeclarativeTemplate {} secretCalls (sampleRunEnv 2) 7
      (some (secretValues "other".toList)) secretStart = .ok v' ∧
    w'.runs.lookup 1 = some run ∧ v'.runs.lookup 2 = some run' ∧ RowsAgree 1 run 2 run' := by
  obtain ⟨w', hw⟩ : ∃ w', createRunFromDeclarativeTemplate {} secretCalls (sampleRunEnv 1) 7
    (some (secretValues "k=1".toList)) secretStart = .ok w' := ⟨_, rfl⟩
  obtain ⟨v', hv⟩ : ∃ v', createRunFromDeclarativeTemplate {} secretCalls (sampleRunEnv 2) 7
    (some (secretValues "other".toList)) secretStart = .ok v' := ⟨_, rfl⟩
  have hdiffer : Declarative.DifferInSecrets secretContract (secretValues "k=1".toList)
      (secretValues "other".toList) := secretValues_differ (by decide) (by decide)
  obtain ⟨run, run', hrun, hrun', hiff⟩ :=
    secret_rows_agree_iff rfl lookup_secretStart lookup_secretStart rfl hdiffer hw hv
  refine ⟨w', v', run, run', hw, hv, hrun, hrun', hiff.mpr ?_⟩
  refine Declarative.Engine.outline_secureVars_of_lines hdiffer ?_ ?_
  · exact secretsAreLines_secretValues (by decide) (by decide)
  · exact secretsAreLines_secretValues (by decide) (by decide)

/-- A key with a second line shows what that line has before its `=`. -/
theorem second_line_is_shown : ∃ w' v' run run',
    (∀ field ∈ secretContract.fields, field.hideCondition = none ∧ field.requiredCondition = none) ∧
    Declarative.DifferInSecrets secretContract (secretValues "a".toList)
      (secretValues "a\nUSER=x".toList) ∧
    createRunFromDeclarativeTemplate {} secretCalls (sampleRunEnv 1) 7
      (some (secretValues "a".toList)) secretStart = .ok w' ∧
    createRunFromDeclarativeTemplate {} secretCalls (sampleRunEnv 2) 7
      (some (secretValues "a\nUSER=x".toList)) secretStart = .ok v' ∧
    w'.runs.lookup 1 = some run ∧ v'.runs.lookup 2 = some run' ∧
    run.pipelineVarsSecure ≠ run'.pipelineVarsSecure := by
  obtain ⟨w', hw⟩ : ∃ w', createRunFromDeclarativeTemplate {} secretCalls (sampleRunEnv 1) 7
    (some (secretValues "a".toList)) secretStart = .ok w' := ⟨_, rfl⟩
  obtain ⟨v', hv⟩ : ∃ v', createRunFromDeclarativeTemplate {} secretCalls (sampleRunEnv 2) 7
    (some (secretValues "a\nUSER=x".toList)) secretStart = .ok v' := ⟨_, rfl⟩
  obtain ⟨payload, profile, hpayload, -, rfl⟩ :=
    createRunFromDeclarativeTemplate_eq_ok lookup_secretStart rfl hw
  obtain ⟨payload', profile', hpayload', -, rfl⟩ :=
    createRunFromDeclarativeTemplate_eq_ok lookup_secretStart rfl hv
  refine ⟨_, _, _, _, by simp [secretContract, dataField, keyField],
    secretValues_differ (by decide) (by decide), hw, hv, AList.lookup_insert _,
    AList.lookup_insert _, ?_⟩
  intro hmask
  have houtline := (Declarative.Engine.maskSecureVars_payload_iff hpayload hpayload').mp hmask
  simp only [Option.getD_some] at houtline
  rw [secureVars_secretValues (by decide), secureVars_secretValues (by decide)] at houtline
  exact absurd houtline (by decide)

end RunStore
end PdeOperator
