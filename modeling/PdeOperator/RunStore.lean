import PdeOperator.ConfigImport
import PdeOperator.DeclarativeEngine

/-! The calls of `RunService` and `ScheduleService` that write a run row or a schedule row together with
a stored payload. The object store keeps the payloads of runs and of schedules under one kind of key,
the id. -/

namespace PdeOperator
open Base

/-- What a server has: profiles, templates, schedules and payloads, and the run rows. -/
structure RunStore where
  store : Store
  runs : Table Uuid Run

/-- The environment of one call that writes a run row. -/
structure RunEnv where
  /-- Whether the database, the object store or Kubernetes makes the call raise. -/
  fails : Bool
  /-- Whether the object store has the state of the parent. -/
  hasState : Bool
  /-- `uuid4()` -/
  newId : Uuid
  /-- The `now()` of the database, and the clock after the Job has been created. -/
  createdAt : Instant
  now : Instant

structure CreateRunFromTemplateRequest where
  profileId : Option Text := none
  pipelineData : Option Text := none
  pipelineVars : Option Text := none
  pipelineVarsSecure : Option Text := none
  isDryRun : Option Bool := none
  logLevel : Option Text := none
  envVars : Option JsonObject := none
  pdeImage : Option Text := none

/-- How a call raises. -/
inductive CallError where
  | run (cause : RunService.Error)
  | templateNotFound (templateId : Uuid)
  | templateKind (templateId : Uuid) (expected actual : Text)
  /-- The contract of a template does not validate. -/
  | invalidContract (templateId : Uuid)
  | contract (cause : Declarative.ContractError)
  | scheduleNotFound (scheduleId : Uuid)
  | inputNotAvailable (id : Uuid)
  | schedule (cause : ScheduleService.Error)
  | validation
  /-- The database, the object store or Kubernetes. -/
  | external

/-- What the calls need of other code: `croniter` and `zoneinfo`, the engine's libraries,
`DeclarativeRunTemplate.model_validate` on the contract of a template, and the adapter as
`create_schedule` uses it. -/
structure CallLibrary where
  cron : CronLibrary
  engine : Declarative.EngineLibrary
  loadContract : JsonObject → Option Declarative.DeclarativeRunTemplate
  adapter : RunTemplate → JsonObject → Except ScheduleService.Error CreateRunRequest

namespace RunStore

variable (settings : Settings) (lib : CallLibrary)

/-! ### `RunService` -/

/-- `_start_run_job_now` -/
def started (env : RunEnv) (run : Run) : Run :=
  if settings.queueEnabled || !settings.k8sJobCreationEnabled then run
  else RunService.startRunJobNow env.now env.newId run

/-- The payload is stored, the row is added, its Job is started, and the session is committed. -/
def insertRun (env : RunEnv) (payload : RunInputPayload) (run : Run) (w : RunStore) : RunStore where
  store := (w.store.storeInput env.newId payload).commit
  runs := w.runs.insert env.newId (started settings env run)

def createRun (env : RunEnv) (request : CreateRunRequest) (triggeredBy : Option Text)
    (w : RunStore) : Except CallError RunStore :=
  match w.store.session.profiles.lookup request.profileId with
  | none => .error (.run (.profileNotFound request.profileId))
  | some profile =>
      if env.fails then .error .external
      else .ok (insertRun settings env (RunInputPayload.fromCreateRequest request)
        (RunService.createRun settings env.newId request profile triggeredBy env.createdAt) w)

def retryVars (parent : Run) (request : Option RetryRunRequest) : Option Text :=
  (request.bind RetryRunRequest.retryVars).or parent.retryVars

def retryRun (env : RunEnv) (runId : Uuid) (request : Option RetryRunRequest) (w : RunStore) :
    Except CallError RunStore :=
  match w.runs.lookup runId with
  | none => .error (.run (.runNotFound runId))
  | some parent => do
      (RunService.checkRetriable parent).mapError CallError.run
      if !env.hasState then
        .error (.run (.runStateNotAvailable
          "Parent run state artifact not found in storage".toList))
      else match w.store.session.profiles.lookup parent.profileId with
        | none => .error (.run (.profileNotFound parent.profileId))
        | some profile =>
            match w.store.inputs.lookup runId with
            | none => .error (.inputNotAvailable runId)
            | some parentInput =>
                if env.fails then .error .external
                else .ok (insertRun settings env
                  { parentInput with retryVars := retryVars parent request }
                  (RunService.retryRun settings env.newId runId parent profile request env.createdAt) w)

/-- The profile of `create_run_from_simple_template`; a missing one is replaced by the default. -/
def templateProfileId (w : RunStore) (template : RunTemplate)
    (overrides : CreateRunFromTemplateRequest) : Text :=
  let named := (overrides.profileId.filter fun id => !id.isEmpty).getD template.profileId
  let profileId := Text.strip (if named.isEmpty then ConfigImport.defaultProfileId else named)
  if (w.store.session.profiles.lookup profileId).isSome then profileId
  else ConfigImport.defaultProfileId

def templateRequest (profileId : Text) (templateId : Uuid) (template : RunTemplate)
    (overrides : CreateRunFromTemplateRequest) : CreateRunRequest where
  profileId := profileId
  pipelineData := overrides.pipelineData.getD template.pipelineData
  pipelineVars := overrides.pipelineVars.or template.pipelineVars
  pipelineVarsSecure := overrides.pipelineVarsSecure.or template.pipelineVarsSecure
  isDryRun := overrides.isDryRun.getD template.isDryRun
  logLevel := overrides.logLevel.getD template.logLevel
  envVars := overrides.envVars.or template.envVars
  pdeImage := overrides.pdeImage.or template.pdeImage
  createdFromTemplateId := some templateId

def createRunFromSimpleTemplate (env : RunEnv) (templateId : Uuid)
    (request : Option CreateRunFromTemplateRequest) (w : RunStore) : Except CallError RunStore :=
  match w.store.session.templates.lookup templateId with
  | none => .error (.templateNotFound templateId)
  | some template =>
      if template.templateKind ≠ "simple".toList then
        .error (.templateKind templateId "simple".toList template.templateKind)
      else
        createRun settings env
          (templateRequest (templateProfileId w template (request.getD {})) templateId template
            (request.getD {})) none w

/-- `DeclarativeRunAdapter.to_create_run_request_from_template` -/
def toCreateRunRequestFromTemplate (templateId : Uuid) (template : RunTemplate) (values : JsonObject) :
    Except CallError CreateRunRequest :=
  match template.declarativeSpec.bind lib.loadContract with
  | none => .error (.invalidContract templateId)
  | some contract => do
      let payload ← (Declarative.Engine.buildRunPayload lib.engine contract values).mapError
        CallError.contract
      .ok (Declarative.toCreateRunRequest payload templateId)

def createRunFromDeclarativeTemplate (env : RunEnv) (templateId : Uuid)
    (values : Option JsonObject) (w : RunStore) : Except CallError RunStore :=
  match w.store.session.templates.lookup templateId with
  | none => .error (.templateNotFound templateId)
  | some template =>
      if template.templateKind ≠ "declarative".toList then
        .error (.templateKind templateId "declarative".toList template.templateKind)
      else do
        let request ← toCreateRunRequestFromTemplate lib templateId template (values.getD [])
        createRun settings env request none w

/-! ### `ScheduleService` and the upserts of the import -/

/-- A call on the store, when it has completed. -/
def onStore (result : Except ScheduleService.Error Unit × Store) (w : RunStore) :
    Except CallError RunStore :=
  match result.1 with
  | .ok () => .ok { w with store := result.2 }
  | .error cause => .error (.schedule cause)

def createSchedule (env : CallEnv) (request : CreateScheduledRunRequest) (w : RunStore) :
    Except CallError RunStore :=
  onStore (ScheduleService.createSchedule settings lib.cron lib.adapter env none request w.store) w

def updateSchedule (env : CallEnv) (scheduleId : Uuid) (request : UpdateScheduledRunRequest)
    (w : RunStore) : Except CallError RunStore :=
  onStore (ScheduleService.updateSchedule settings lib.cron env scheduleId request w.store) w

/-- `fire`, and the `record_fire` of its callers. -/
def fire (env : RunEnv) (scheduleId : Uuid) (w : RunStore) : Except CallError RunStore :=
  match w.store.session.schedules.lookup scheduleId with
  | none => .error (.scheduleNotFound scheduleId)
  | some row =>
      match w.store.inputs.lookup scheduleId with
      | none => .error (.inputNotAvailable scheduleId)
      | some payload => do
          let fired ← createRun settings env (ScheduleService.fireRequest row payload)
            (some (scheduleTriggerRef scheduleId)) w
          .ok { fired with
            store := (fired.store.putSchedule scheduleId (ScheduleService.applyFireResult env.now
              .success (some env.newId) none row)).commit }

/-- `ConfigImportService._upsert_schedule` -/
def upsertSchedule (env : CallEnv) (request : ImportScheduledRunRequest) (w : RunStore) :
    Except CallError RunStore :=
  match ConfigImport.existingId w.store request with
  | some id =>
      match ConfigImport.updateRequest request with
      | .error _ => .error .validation
      | .ok update => updateSchedule settings lib env id update w
  | none =>
      match ConfigImport.createRequest request with
      | .error _ => .error .validation
      | .ok create =>
          onStore (ScheduleService.createSchedule settings lib.cron lib.adapter env request.id create
            w.store) w

/-- The upserts of profiles and templates. -/
def upsertOthers (profiles : Table Text Profile) (templates : Table Uuid RunTemplate) (w : RunStore) :
    RunStore :=
  { w with store := { w.store with session := { w.store.session with profiles, templates } } }

section Completed

variable {settings : Settings} {lib : CallLibrary} {env : RunEnv} {w w' : RunStore}

theorem createRun_eq_ok {request : CreateRunRequest} {triggeredBy : Option Text}
    (h : createRun settings env request triggeredBy w = .ok w') :
    ∃ profile, w.store.session.profiles.lookup request.profileId = some profile ∧
      w' = insertRun settings env (RunInputPayload.fromCreateRequest request)
        (RunService.createRun settings env.newId request profile triggeredBy env.createdAt) w := by
  unfold createRun at h
  split at h
  · cases h
  · next profile hprofile =>
    split at h
    · cases h
    · exact ⟨profile, hprofile, (Except.ok.inj h).symm⟩

theorem createRunFromDeclarativeTemplate_eq_ok {templateId : Uuid} {values : Option JsonObject}
    {template : RunTemplate} {contract : Declarative.DeclarativeRunTemplate}
    (htemplate : w.store.session.templates.lookup templateId = some template)
    (hcontract : template.declarativeSpec.bind lib.loadContract = some contract)
    (h : createRunFromDeclarativeTemplate settings lib env templateId values w = .ok w') :
    ∃ payload profile,
      Declarative.Engine.buildRunPayload lib.engine contract (values.getD []) = .ok payload ∧
      w.store.session.profiles.lookup payload.profileId = some profile ∧
      w' = insertRun settings env
        (RunInputPayload.fromCreateRequest (Declarative.toCreateRunRequest payload templateId))
        (RunService.createRun settings env.newId (Declarative.toCreateRunRequest payload templateId)
          profile none env.createdAt) w := by
  unfold createRunFromDeclarativeTemplate at h
  rw [htemplate] at h
  dsimp only at h
  split at h
  · cases h
  · obtain ⟨request, hrequest, h⟩ := bind_eq_ok.mp h
    unfold toCreateRunRequestFromTemplate at hrequest
    rw [hcontract] at hrequest
    obtain ⟨payload, hpayload, heq⟩ := bind_eq_ok.mp hrequest
    obtain rfl := Except.ok.inj heq
    obtain ⟨profile, hprofile, hw⟩ := createRun_eq_ok h
    exact ⟨payload, profile, mapError_eq_ok.mp hpayload, hprofile, hw⟩

end Completed

/-- A server without templates. -/
def sampleCalls : CallLibrary where
  cron := everyMinute
  engine := { repr := fun _ => [], reMatch := fun _ _ => none }
  loadContract _ := none
  adapter := noAdapter

def sampleStart : RunStore where
  store := sampleStore
  runs := ∅

def sampleRunEnv (newId : Uuid) : RunEnv where
  fails := false
  hasState := true
  newId := newId
  createdAt := 0
  now := 0

end RunStore
end PdeOperator
