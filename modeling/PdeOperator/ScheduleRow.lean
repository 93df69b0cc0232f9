import PdeOperator.RunService

/-! The `scheduled_runs` table and the requests that write it, with the field validators of the
request schemas. -/

namespace PdeOperator
open Base

/-- `schedule_trigger_ref` -/
def scheduleTriggerRef (scheduleId : Uuid) : Text := "schedule:".toList ++ Uuid.str scheduleId

theorem scheduleTriggerRef_injective {a b : Uuid} (h : scheduleTriggerRef a = scheduleTriggerRef b) :
    a = b :=
  Uuid.str_injective (List.append_cancel_left h)

namespace OverlapPolicy

def skip : Text := "skip".toList
def allow : Text := "allow".toList

end OverlapPolicy

inductive FireStatus where
  | success | failed | skippedOverlap | skippedMissed
  deriving DecidableEq, Repr

def FireStatus.value : FireStatus → Text
  | .success => "success".toList
  | .failed => "failed".toList
  | .skippedOverlap => "skipped_overlap".toList
  | .skippedMissed => "skipped_missed".toList

structure ScheduledRun where
  name : Text
  description : Option Text
  cronExpression : Text
  timezone : Text
  enabled : Bool
  overlapPolicy : Text
  profileId : Text
  pdeImage : Option Text
  pipelineData : Text
  pipelineVars : Option Text
  pipelineVarsSecure : Option Text
  isDryRun : Bool
  logLevel : Text
  envVars : Option JsonObject
  createdFromTemplateId : Option Uuid
  nextFireAt : Option Instant
  lastFireAt : Option Instant
  lastFireStatus : Option FireStatus
  lastFireError : Option Text
  lastRunId : Option Uuid
  createdAt : Instant
  updatedAt : Instant
  deriving DecidableEq

namespace ScheduledRun

instance : WriteBack ScheduledRun where
  writeBack read work current :=
    { name := column read.name work.name current.name
      description := column read.description work.description current.description
      cronExpression := column read.cronExpression work.cronExpression current.cronExpression
      timezone := column read.timezone work.timezone current.timezone
      enabled := column read.enabled work.enabled current.enabled
      overlapPolicy := column read.overlapPolicy work.overlapPolicy current.overlapPolicy
      profileId := column read.profileId work.profileId current.profileId
      pdeImage := column read.pdeImage work.pdeImage current.pdeImage
      pipelineData := column read.pipelineData work.pipelineData current.pipelineData
      pipelineVars := column read.pipelineVars work.pipelineVars current.pipelineVars
      pipelineVarsSecure :=
        column read.pipelineVarsSecure work.pipelineVarsSecure current.pipelineVarsSecure
      isDryRun := column read.isDryRun work.isDryRun current.isDryRun
      logLevel := column read.logLevel work.logLevel current.logLevel
      envVars := column read.envVars work.envVars current.envVars
      createdFromTemplateId :=
        column read.createdFromTemplateId work.createdFromTemplateId current.createdFromTemplateId
      nextFireAt := column read.nextFireAt work.nextFireAt current.nextFireAt
      lastFireAt := column read.lastFireAt work.lastFireAt current.lastFireAt
      lastFireStatus := column read.lastFireStatus work.lastFireStatus current.lastFireStatus
      lastFireError := column read.lastFireError work.lastFireError current.lastFireError
      lastRunId := column read.lastRunId work.lastRunId current.lastRunId
      createdAt := column read.createdAt work.createdAt current.createdAt
      updatedAt := column read.updatedAt work.updatedAt current.updatedAt }
  writeBack_clean read current := by simp only [column_clean]
  writeBack_fresh read work := by simp only [column_fresh]

@[simp] theorem writeBack_enabled (read work current : ScheduledRun) :
    (writeBack read work current).enabled =
      column read.enabled work.enabled current.enabled := rfl

@[simp] theorem writeBack_overlapPolicy (read work current : ScheduledRun) :
    (writeBack read work current).overlapPolicy =
      column read.overlapPolicy work.overlapPolicy current.overlapPolicy := rfl

@[simp] theorem writeBack_profileId (read work current : ScheduledRun) :
    (writeBack read work current).profileId =
      column read.profileId work.profileId current.profileId := rfl

@[simp] theorem writeBack_pdeImage (read work current : ScheduledRun) :
    (writeBack read work current).pdeImage =
      column read.pdeImage work.pdeImage current.pdeImage := rfl

@[simp] theorem writeBack_envVars (read work current : ScheduledRun) :
    (writeBack read work current).envVars =
      column read.envVars work.envVars current.envVars := rfl

end ScheduledRun

/-- `_ScheduledRunBase` -/
structure ScheduledRunBase where
  name : Text
  description : Option Text := none
  cronExpression : Text
  timezone : Text := "UTC".toList
  enabled : Bool := true
  overlapPolicy : Text := OverlapPolicy.allow
  profileId : Text := "default".toList
  pipelineVars : Option Text := none
  pipelineVarsSecure : Option Text := none
  isDryRun : Bool := false
  logLevel : Text := "INFO".toList
  envVars : Option JsonObject := none
  pdeImage : Option Text := none
  deriving DecidableEq

structure CreateScheduledRunRequest extends ScheduledRunBase where
  pipelineData : Option Text := none
  createdFromTemplateId : Option Uuid := none
  declarativeValues : Option JsonObject := none
  deriving DecidableEq

structure UpdateScheduledRunRequest extends ScheduledRunBase where
  pipelineData : Text
  deriving DecidableEq

structure ImportScheduledRunRequest extends UpdateScheduledRunRequest where
  id : Option Uuid := none
  deriving DecidableEq

/-- The field that a validator rejects. -/
inductive InvalidField where
  | name | cronExpression | timezone | overlapPolicy | pipelineData
  deriving DecidableEq, Repr

def InvalidField.message : InvalidField → Text
  | .name => "name must not be empty".toList
  | .cronExpression => "cron_expression must not be empty".toList
  | .timezone => "timezone must not be empty".toList
  | .overlapPolicy => "overlap_policy must be one of: skip, allow".toList
  | .pipelineData => "pipeline_data must not be empty".toList

/-- A field that is stripped and must not be empty. -/
def strippedField (field : InvalidField) (value : Text) : Except InvalidField Text :=
  if (Text.strip value).isEmpty then .error field else .ok (Text.strip value)

/-- `str.lower` as far as its result is an ASCII letter (the Kelvin sign is lowered to `k`). -/
def lowerChar (c : Char) : Char := if c.toNat = 0x212A then 'k' else c.toLower

def normalizeOverlapPolicy (value : Text) : Except InvalidField Text :=
  let cleaned := (Text.strip value).map lowerChar
  if cleaned = OverlapPolicy.skip ∨ cleaned = OverlapPolicy.allow then .ok cleaned
  else .error .overlapPolicy

/-- The validators of `_ScheduledRunBase`. -/
def ScheduledRunBase.validate (request : ScheduledRunBase) : Except InvalidField ScheduledRunBase := do
  let name ← strippedField .name request.name
  let cronExpression ← strippedField .cronExpression request.cronExpression
  let timezone ← strippedField .timezone request.timezone
  let overlapPolicy ← normalizeOverlapPolicy request.overlapPolicy
  .ok { request with name, cronExpression, timezone, overlapPolicy }

def UpdateScheduledRunRequest.validate (request : UpdateScheduledRunRequest) :
    Except InvalidField UpdateScheduledRunRequest := do
  let base ← request.toScheduledRunBase.validate
  if Text.isBlank request.pipelineData then .error .pipelineData
  else .ok { request with toScheduledRunBase := base }

end PdeOperator
