import PdeOperator.BaseJson
import PdeOperator.BaseTable
import PdeOperator.BaseUuid

/-! The `runs` and `profiles` tables. The primary key is the key of the table and not a column of
the record. -/

namespace PdeOperator
open Base

/-- A `datetime` in UTC, in microseconds since the epoch. -/
abbrev Instant := Int

/-- `timedelta(seconds=n)` -/
def seconds (n : Int) : Int := n * 1000000

/-- `bool(value)` of a nullable text: neither `None` nor empty. -/
def truthy (value : Option Text) : Bool :=
  match value with
  | none => false
  | some text => !text.isEmpty

@[simp] theorem truthy_none : truthy none = false := rfl

inductive RunStatus where
  | queued | notStarted | inProgress | success | failed | cancelled
  deriving DecidableEq, Repr

namespace RunStatus

def value : RunStatus → Text
  | .queued => "QUEUED".toList
  | .notStarted => "NOT_STARTED".toList
  | .inProgress => "IN_PROGRESS".toList
  | .success => "SUCCESS".toList
  | .failed => "FAILED".toList
  | .cancelled => "CANCELLED".toList

/-- `RunStatus(text)`; `none` is the `ValueError`. -/
def ofValue (text : Text) : Option RunStatus :=
  [queued, notStarted, inProgress, success, failed, cancelled].find? fun s => s.value == text

/-- Every status is read back from its own text. -/
theorem ofValue_value (s : RunStatus) : ofValue s.value = some s := by
  cases s <;> decide

end RunStatus

/-- `TERMINAL_STATUSES` -/
def terminalStatuses : List RunStatus := [.success, .failed, .cancelled]

/-- `RETRYABLE_STATUSES` -/
def retryableStatuses : List RunStatus := [.failed, .cancelled]

structure Profile where
  pdeImage : Text
  envVars : JsonObject
  resources : JsonObject
  createdAt : Instant
  updatedAt : Instant
  deriving DecidableEq

structure Run where
  profileId : Text
  pdeImage : Text
  status : RunStatus
  pipelineData : Text
  pipelineVars : Option Text
  pipelineVarsSecure : Option Text
  isDryRun : Bool
  logLevel : Text
  envVars : Option JsonObject
  retryVars : Option Text
  name : Option Text
  k8sJobName : Option Text
  triggeredBy : Option Text
  progressJson : Option JsonObject
  statusUpdatedAt : Option Instant
  reportUpdatedAt : Option Instant
  logUpdatedAt : Option Instant
  stateLocation : Option Text
  retryOfRunId : Option Uuid
  createdFromTemplateId : Option Uuid
  executionUrl : Option Text
  createdAt : Instant
  startedAt : Option Instant
  finishedAt : Option Instant
  cancelRequestedAt : Option Instant
  finishCode : Option Text
  finishMessage : Option Text
  deriving DecidableEq

namespace Run

/-- `run.status in TERMINAL_STATUSES` -/
def isTerminal (run : Run) : Bool := run.status ∈ terminalStatuses

/-- The `WHERE` of the reconciler and of the slot count: a Job name and no terminal status. -/
def isTracked (run : Run) : Bool := run.k8sJobName.isSome && !run.isTerminal

/-- The `WHERE` of the queue worker. -/
def isQueued (run : Run) : Bool := run.status == .queued && run.k8sJobName.isNone

theorem isTracked_iff {run : Run} :
    run.isTracked = true ↔ run.k8sJobName.isSome = true ∧ run.isTerminal = false := by
  simp [isTracked]

theorem isQueued_iff {run : Run} :
    run.isQueued = true ↔ run.status = .queued ∧ run.k8sJobName = none := by
  simp [isQueued]

theorem not_isTerminal_of_isQueued {run : Run} (h : run.isQueued = true) :
    run.isTerminal = false := by
  rw [isTerminal, (isQueued_iff.mp h).1]
  decide

instance : WriteBack Run where
  writeBack read work current :=
    { profileId := column read.profileId work.profileId current.profileId
      pdeImage := column read.pdeImage work.pdeImage current.pdeImage
      status := column read.status work.status current.status
      pipelineData := column read.pipelineData work.pipelineData current.pipelineData
      pipelineVars := column read.pipelineVars work.pipelineVars current.pipelineVars
      pipelineVarsSecure :=
        column read.pipelineVarsSecure work.pipelineVarsSecure current.pipelineVarsSecure
      isDryRun := column read.isDryRun work.isDryRun current.isDryRun
      logLevel := column read.logLevel work.logLevel current.logLevel
      envVars := column read.envVars work.envVars current.envVars
      retryVars := column read.retryVars work.retryVars current.retryVars
      name := column read.name work.name current.name
      k8sJobName := column read.k8sJobName work.k8sJobName current.k8sJobName
      triggeredBy := column read.triggeredBy work.triggeredBy current.triggeredBy
      progressJson := column read.progressJson work.progressJson current.progressJson
      statusUpdatedAt := column read.statusUpdatedAt work.statusUpdatedAt current.statusUpdatedAt
      reportUpdatedAt := column read.reportUpdatedAt work.reportUpdatedAt current.reportUpdatedAt
      logUpdatedAt := column read.logUpdatedAt work.logUpdatedAt current.logUpdatedAt
      stateLocation := column read.stateLocation work.stateLocation current.stateLocation
      retryOfRunId := column read.retryOfRunId work.retryOfRunId current.retryOfRunId
      createdFromTemplateId :=
        column read.createdFromTemplateId work.createdFromTemplateId current.createdFromTemplateId
      executionUrl := column read.executionUrl work.executionUrl current.executionUrl
      createdAt := column read.createdAt work.createdAt current.createdAt
      startedAt := column read.startedAt work.startedAt current.startedAt
      finishedAt := column read.finishedAt work.finishedAt current.finishedAt
      cancelRequestedAt :=
        column read.cancelRequestedAt work.cancelRequestedAt current.cancelRequestedAt
      finishCode := column read.finishCode work.finishCode current.finishCode
      finishMessage := column read.finishMessage work.finishMessage current.finishMessage }
  writeBack_clean read current := by simp only [column_clean]
  writeBack_fresh read work := by simp only [column_fresh]

@[simp] theorem writeBack_status (read work current : Run) :
    (writeBack read work current).status = column read.status work.status current.status := rfl

@[simp] theorem writeBack_finishedAt (read work current : Run) :
    (writeBack read work current).finishedAt =
      column read.finishedAt work.finishedAt current.finishedAt := rfl

@[simp] theorem writeBack_k8sJobName (read work current : Run) :
    (writeBack read work current).k8sJobName =
      column read.k8sJobName work.k8sJobName current.k8sJobName := rfl

end Run
end PdeOperator
