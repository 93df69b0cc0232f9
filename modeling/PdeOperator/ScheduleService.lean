import PdeOperator.BaseSystem
import PdeOperator.CronUtils

/-! What `ScheduleService` makes of one schedule row and of one request. The transactions around these
functions are in `ScheduleStore` (one call at a time) and `FiringSystem` (interleaved calls). -/

namespace PdeOperator
open Base

namespace ScheduleService

inductive Error where
  | scheduleNotFound (scheduleId : Uuid)
  /-- A `ScheduleValidationError` with the message of the cause. -/
  | cron (cause : CronUtils.Error)
  | secure (cause : InputCrypto.Error)
  | emptyPipelineData
  | profileNotFound (profileId : Text)
  | invalidProfileId
  | invalidField (field : InvalidField)
  /-- An exception of the template lookup or of the declarative engine. -/
  | template (message : Text)
  /-- `RunInputNotAvailableError` -/
  | inputNotAvailable (scheduleId : Uuid)
  /-- `RunInputStorageError` -/
  | inputStorage (scheduleId : Uuid)
  /-- An exception of the database session. -/
  | database
  deriving DecidableEq

/-- `(value or "").strip() or None` -/
def normalizeImage (image : Option Text) : Option Text :=
  if (Text.strip (image.getD [])).isEmpty then none else some (Text.strip (image.getD []))

def applyRequest (request : ScheduledRunBase) (runRequest : CreateRunRequest) (row : ScheduledRun) :
    ScheduledRun :=
  { row with
    name := request.name
    description := request.description
    cronExpression := request.cronExpression
    timezone := request.timezone
    overlapPolicy := request.overlapPolicy
    profileId := runRequest.profileId
    pdeImage := normalizeImage runRequest.pdeImage
    pipelineData := runRequest.pipelineData
    pipelineVars := runRequest.pipelineVars
    pipelineVarsSecure := InputCrypto.maskSecureVars runRequest.pipelineVarsSecure
    isDryRun := runRequest.isDryRun
    logLevel := runRequest.logLevel
    envVars := runRequest.envVars }

/-- The run request of `update_schedule`, with the merged secure text. -/
def updateRunRequest (request : UpdateScheduledRunRequest) (mergedSecure : Option Text) :
    CreateRunRequest where
  profileId := request.profileId
  pipelineData := request.pipelineData
  pipelineVars := request.pipelineVars
  pipelineVarsSecure := mergedSecure
  isDryRun := request.isDryRun
  logLevel := request.logLevel
  envVars := request.envVars
  pdeImage := request.pdeImage

/-- The run request of a create request without declarative values. -/
def plainRunRequest (request : CreateScheduledRunRequest) : CreateRunRequest where
  profileId := request.profileId
  pipelineData := request.pipelineData.getD []
  pipelineVars := request.pipelineVars
  pipelineVarsSecure := request.pipelineVarsSecure
  isDryRun := request.isDryRun
  logLevel := request.logLevel
  envVars := request.envVars
  pdeImage := request.pdeImage
  createdFromTemplateId := request.createdFromTemplateId

/-- `_resolve_run_request`; `declarative` looks the template up and assembles the payload. -/
def resolveRunRequest (declarative : Uuid → JsonObject → Except Error CreateRunRequest)
    (request : CreateScheduledRunRequest) : Except Error CreateRunRequest := do
  let runRequest ←
    match request.declarativeValues, request.createdFromTemplateId with
    | some values, some templateId => declarative templateId values
    | _, _ => .ok (plainRunRequest request)
  if Text.isBlank runRequest.pipelineData then .error .emptyPipelineData else .ok runRequest

section Cron

variable (settings : Settings) (cron : CronLibrary)

def validateCron (cronExpression timezone : Text) (now : Instant) : Except Error Unit :=
  (do
    CronUtils.validateExpression cron cronExpression settings.schedulesMinIntervalSeconds now
    let _ ← CronUtils.resolveTimezone cron timezone
    .ok ()).mapError Error.cron

def nextFireAt (cronExpression timezone : Text) (now : Instant) : Except Error Instant :=
  (CronUtils.nextFireTime cron cronExpression timezone now).mapError Error.cron

/-- The row of a new schedule; `stamp` is the time of `created_at`, `now` the base of the anchor. -/
def createRow (request : CreateScheduledRunRequest) (runRequest : CreateRunRequest)
    (stamp now : Instant) : Except Error ScheduledRun := do
  let anchor ←
    if request.enabled then
      (nextFireAt cron request.cronExpression request.timezone now).map some
    else .ok none
  .ok (applyRequest request.toScheduledRunBase runRequest
    { name := [], description := none, cronExpression := [], timezone := []
      enabled := request.enabled
      overlapPolicy := [], profileId := [], pdeImage := none, pipelineData := []
      pipelineVars := none, pipelineVarsSecure := none, isDryRun := false, logLevel := []
      envVars := none
      createdFromTemplateId := runRequest.createdFromTemplateId
      nextFireAt := anchor
      lastFireAt := none, lastFireStatus := none, lastFireError := none, lastRunId := none
      createdAt := stamp
      updatedAt := stamp })

/-- `update_schedule` after the new payload has been stored. -/
def updateRow (request : UpdateScheduledRunRequest) (runRequest : CreateRunRequest)
    (stamp now : Instant) (row : ScheduledRun) : Except Error ScheduledRun := do
  let scheduleChanged :=
    row.cronExpression != request.cronExpression || row.timezone != request.timezone
  let applied :=
    { applyRequest request.toScheduledRunBase runRequest row with updatedAt := stamp }
  if !request.enabled then .ok { applied with enabled := false, nextFireAt := none }
  else if !row.enabled || scheduleChanged || row.nextFireAt.isNone then
    let anchor ← nextFireAt cron request.cronExpression request.timezone now
    .ok { applied with enabled := true, nextFireAt := some anchor }
  else .ok { applied with enabled := true }

def setEnabledRow (enabled : Bool) (stamp now : Instant) (row : ScheduledRun) :
    Except Error ScheduledRun :=
  if row.enabled == enabled then .ok row
  else if enabled then do
    let anchor ← nextFireAt cron row.cronExpression row.timezone now
    .ok { row with enabled := true, nextFireAt := some anchor, updatedAt := stamp }
  else .ok { row with enabled := false, nextFireAt := none, updatedAt := stamp }

/-- How a row is saved: `base` has the values of the request, only the switch, the anchor and the time
of the save are still to be set. -/
inductive RowSaved (base : ScheduledRun) (stamp now : Instant) : Bool → ScheduledRun → Prop where
  | off : RowSaved base stamp now false
      { base with enabled := false, nextFireAt := none, updatedAt := stamp }
  | anchored {next} (hnext : nextFireAt cron base.cronExpression base.timezone now = .ok next) :
      RowSaved base stamp now true
        { base with enabled := true, nextFireAt := some next, updatedAt := stamp }
  | kept (hbase : base.enabled = true) (hanchor : base.nextFireAt.isSome = true) :
      RowSaved base stamp now true { base with enabled := true, updatedAt := stamp }

variable {cron} {runRequest : CreateRunRequest} {stamp now : Instant} {enabled : Bool}
  {base row saved : ScheduledRun}

theorem RowSaved.enabled_eq (h : RowSaved cron base stamp now enabled saved) :
    saved.enabled = enabled := by
  cases h <;> rfl

theorem RowSaved.updatedAt_eq (h : RowSaved cron base stamp now enabled saved) :
    saved.updatedAt = stamp := by
  cases h <;> rfl

/-- A row that is saved has an anchor if it is enabled, and only then. -/
theorem RowSaved.isSome_nextFireAt (h : RowSaved cron base stamp now enabled saved) :
    saved.nextFireAt.isSome = enabled := by
  cases h with
  | off => rfl
  | anchored => rfl
  | kept _ hanchor => exact hanchor

/-- The values of the request are laid over a row without an anchor. -/
theorem createRow_saved {request : CreateScheduledRunRequest}
    (h : createRow cron request runRequest stamp now = .ok saved) :
    ∃ blank : ScheduledRun, blank.nextFireAt = none ∧
      RowSaved cron (applyRequest request.toScheduledRunBase runRequest blank) stamp now
        request.enabled saved := by
  refine ⟨{ saved with nextFireAt := none }, rfl, ?_⟩
  unfold createRow at h
  dsimp only at h
  cases henabled : request.enabled with
  | false =>
      rw [henabled] at h
      cases h
      exact .off
  | true =>
      rw [henabled, if_pos rfl] at h
      obtain ⟨anchor, hanchor, hsaved⟩ := bind_eq_ok.mp h
      obtain ⟨next, hnext, rfl⟩ := map_eq_ok.mp hanchor
      cases hsaved
      exact .anchored hnext

theorem updateRow_saved {request : UpdateScheduledRunRequest}
    (h : updateRow cron request runRequest stamp now row = .ok saved) :
    RowSaved cron (applyRequest request.toScheduledRunBase runRequest row) stamp now request.enabled
      saved := by
  unfold updateRow at h
  dsimp only at h
  cases henabled : request.enabled with
  | false =>
      rw [henabled, Bool.not_false, if_pos rfl] at h
      cases h
      exact .off
  | true =>
      rw [henabled, Bool.not_true, if_neg Bool.false_ne_true] at h
      split at h
      · obtain ⟨next, hnext, hsaved⟩ := bind_eq_ok.mp h
        cases hsaved
        refine .anchored ?_
        exact hnext
      · next hkept =>
        simp only [Bool.or_eq_true, not_or, Bool.not_eq_true, Bool.not_eq_false',
          Option.isNone_eq_false_iff] at hkept
        cases h
        refine .kept ?_ ?_
        · exact hkept.1.1
        · exact hkept.2

/-- A switch to the value that the row has leaves it alone. -/
theorem setEnabledRow_saved (h : setEnabledRow cron enabled stamp now row = .ok saved) :
    (saved = row ∧ row.enabled = enabled) ∨ RowSaved cron row stamp now enabled saved := by
  unfold setEnabledRow at h
  split at h
  · next hsame =>
    cases h
    exact Or.inl ⟨rfl, beq_iff_eq.mp hsame⟩
  · right
    cases enabled with
    | false =>
        cases h
        exact .off
    | true =>
        obtain ⟨next, hnext, hsaved⟩ := bind_eq_ok.mp h
        cases hsaved
        exact .anchored hnext

end Cron

def applyFireResult (now : Instant) (status : FireStatus) (runId : Option Uuid)
    (error : Option Text) (row : ScheduledRun) : ScheduledRun :=
  { row with
    lastFireAt := some now
    lastFireStatus := some status
    lastFireError := error
    lastRunId := runId.or row.lastRunId
    updatedAt := now }

/-- The request that `fire` makes of the row and the stored payload. -/
def fireRequest (row : ScheduledRun) (payload : RunInputPayload) : CreateRunRequest where
  profileId := row.profileId
  pipelineData := payload.pipelineData
  pipelineVars := payload.pipelineVars
  pipelineVarsSecure := payload.pipelineVarsSecure
  isDryRun := payload.isDryRun
  logLevel := payload.logLevel
  envVars := row.envVars
  pdeImage := row.pdeImage
  createdFromTemplateId := row.createdFromTemplateId

end ScheduleService

/-- The smallest run request. -/
def sampleRunRequest : CreateRunRequest := { pipelineData := "stages: []".toList }

/-- The row of a schedule that fires every minute. -/
def sampleRow (overlapPolicy : Text) : ScheduledRun where
  name := "nightly".toList
  description := none
  cronExpression := "* * * * *".toList
  timezone := "UTC".toList
  enabled := true
  overlapPolicy := overlapPolicy
  profileId := sampleRunRequest.profileId
  pdeImage := none
  pipelineData := sampleRunRequest.pipelineData
  pipelineVars := none
  pipelineVarsSecure := none
  isDryRun := false
  logLevel := sampleRunRequest.logLevel
  envVars := none
  createdFromTemplateId := none
  nextFireAt := some (seconds 60)
  lastFireAt := none
  lastFireStatus := none
  lastFireError := none
  lastRunId := none
  createdAt := 0
  updatedAt := 0

end PdeOperator
