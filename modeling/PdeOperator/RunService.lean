import PdeOperator.InputCrypto
import PdeOperator.RunRow
import PdeOperator.Settings

/-! What `RunService` does to one run row between reading it and committing it, and the rows it
builds for new runs. The transactions around these functions are in `LifecycleSystem`. -/

namespace PdeOperator
open Base

abbrev Bytes := List UInt8

namespace OperatorFinishCodes

def codePrefix : Text := "PDE-OPERATOR-".toList
def runStuckTimeout : Text := "PDE-OPERATOR-JOB-STUCK-TIMEOUT".toList
def runJobFailed : Text := "PDE-OPERATOR-JOB-FAILED".toList
def runJobMissing : Text := "PDE-OPERATOR-JOB-MISSING".toList
def runCancelled : Text := "PDE-OPERATOR-RUN-CANCELLED".toList

end OperatorFinishCodes

namespace FinishUtils

def isOperatorFinishCode (code : Option Text) : Bool :=
  match code with
  | none => false
  | some text => !text.isEmpty && OperatorFinishCodes.codePrefix.isPrefixOf text

def extractFinishCodeFromReport (parsers : Parsers) (data : Bytes) : Option Text :=
  match parsers.jsonLoads data with
  | some (.obj document) =>
      match Json.get document "code".toList with
      | some (.str code) => if (Text.strip code).isEmpty then none else some (Text.strip code)
      | _ => none
  | _ => none

def applyReportFinishCode (parsers : Parsers) (run : Run) (data : Bytes) : Run :=
  if isOperatorFinishCode run.finishCode then run
  else match extractFinishCodeFromReport parsers data with
    | some code => { run with finishCode := some code }
    | none => run

def stuckFinishMessage (diagnostic : Option Text) : Text :=
  let base := "Run exceeded progress timeout; Kubernetes Job deleted.".toList
  match diagnostic with
  | none => base
  | some text => if text.isEmpty then base else base ++ ' ' :: text

end FinishUtils

inductive ArtifactKind where
  | state | log | xDebug | report
  deriving DecidableEq, Repr

def ArtifactKind.filename : ArtifactKind → Text
  | .state => "pipeline_dir.zip".toList
  | .log => "console.log".toList
  | .xDebug => "x_debug.zip".toList
  | .report => "pipeline_report.json".toList

/-- `ArtifactsService._key` -/
def artifactKey (runId : Uuid) (kind : ArtifactKind) : Text :=
  Uuid.str runId ++ '/' :: kind.filename

/-- The parts of an artifact upload. -/
structure Uploads where
  state : Option Bytes := none
  log : Option Bytes := none
  xDebug : Option Bytes := none
  report : Option Bytes := none
  deriving DecidableEq

/-- The parts that are present, in the order in which they are stored. -/
def Uploads.kinds (uploads : Uploads) : List ArtifactKind :=
  [(ArtifactKind.state, uploads.state), (.log, uploads.log), (.xDebug, uploads.xDebug),
    (.report, uploads.report)].filterMap fun part => part.2.map fun _ => part.1

structure CreateRunRequest where
  profileId : Text := "default".toList
  pipelineData : Text
  pipelineVars : Option Text := none
  pipelineVarsSecure : Option Text := none
  isDryRun : Bool := false
  logLevel : Text := "INFO".toList
  envVars : Option JsonObject := none
  pdeImage : Option Text := none
  createdFromTemplateId : Option Uuid := none
  deriving DecidableEq

structure RetryRunRequest where
  envVars : Option JsonObject := none
  retryVars : Option Text := none
  pdeImage : Option Text := none
  deriving DecidableEq

structure RunInputPayload where
  pipelineData : Text
  pipelineVars : Option Text := none
  pipelineVarsSecure : Option Text := none
  isDryRun : Bool
  logLevel : Text
  retryVars : Option Text := none
  deriving DecidableEq

def RunInputPayload.fromCreateRequest (request : CreateRunRequest) : RunInputPayload where
  pipelineData := request.pipelineData
  pipelineVars := request.pipelineVars
  pipelineVarsSecure := request.pipelineVarsSecure
  isDryRun := request.isDryRun
  logLevel := request.logLevel

namespace RunService

inductive Error where
  | runNotFound (runId : Uuid)
  | runNotCancellable (message : Text)
  | runNotRetriable (message : Text)
  | runStateNotAvailable (message : Text)
  | profileNotFound (profileId : Text)
  deriving DecidableEq

def cancelRun (now : Instant) (run : Run) : Except Error Run :=
  if run.isTerminal then
    .error (.runNotCancellable ("Run is already ".toList ++ run.status.value))
  else if run.cancelRequestedAt.isSome then
    .error (.runNotCancellable "Cancel already requested for this run".toList)
  else if !truthy run.k8sJobName then
    .ok { run with cancelRequestedAt := some now, status := .cancelled, finishedAt := some now }
  else .ok { run with cancelRequestedAt := some now }

def parseStatusValue (statusValue : Option Json) : Option RunStatus :=
  match statusValue with
  | some (.str text) => RunStatus.ofValue (Text.strip text)
  | _ => none

def parseTimestamp (parsers : Parsers) (value : Option Json) : Option Instant :=
  match value with
  | some (.str text) =>
      parsers.fromIsoFormat (text.flatMap fun c => if c = 'Z' then "+00:00".toList else [c])
  | _ => none

/-- The name a delivery gives a run that has none yet. -/
def reportName (run : Run) (status : JsonObject) : Option Text :=
  match run.name, Json.get status "name".toList with
  | none, some (.str name) => if (Text.strip name).isEmpty then none else some (Text.strip name)
  | name, _ => name

def applyStatusFields (parsers : Parsers) (run : Run) (status : JsonObject) (now : Instant) : Run :=
  let mapped := (parseStatusValue (Json.get status "status".toList)).getD run.status
  { run with
    name := reportName run status
    status := mapped
    startedAt := run.startedAt.or (parseTimestamp parsers (Json.get status "startedAt".toList))
    finishedAt :=
      if mapped ∈ terminalStatuses then
        some ((parseTimestamp parsers (Json.get status "finishedAt".toList)).getD now)
      else run.finishedAt }

def deliverStatus (parsers : Parsers) (now : Instant) (status : JsonObject) (run : Run) : Run :=
  { applyStatusFields parsers { run with statusUpdatedAt := some now } status now with
    progressJson :=
      match Json.get status "progress".toList with
      | some (.obj progress) => some progress
      | _ => none }

def deliverReport (parsers : Parsers) (now : Instant) (data : Bytes) (run : Run) : Run :=
  FinishUtils.applyReportFinishCode parsers { run with reportUpdatedAt := some now } data

def deliverLog (now : Instant) (run : Run) : Run := { run with logUpdatedAt := some now }

def uploadArtifacts (parsers : Parsers) (now : Instant) (runId : Uuid) (uploads : Uploads)
    (run : Run) : Run :=
  let run := if uploads.state.isSome then
    { run with stateLocation := some (artifactKey runId .state) } else run
  let run := match uploads.report with
    | some report =>
        FinishUtils.applyReportFinishCode parsers { run with reportUpdatedAt := some now } report
    | none => run
  if uploads.log.isSome then { run with logUpdatedAt := some now } else run

/-- `text.rstrip("/")` -/
def rstripSlash (text : Text) : Text := text.rdropWhile (· == '/')

def executionUrl (settings : Settings) (runId : Uuid) : Text :=
  rstripSlash settings.executionUrlBase ++ rstripSlash settings.apiPrefix ++ "/runs/".toList ++
    Uuid.str runId

/-- `(override or "").strip() or fallback` -/
def imageOr (override : Option Text) (fallback : Text) : Text :=
  if (Text.strip (override.getD [])).isEmpty then fallback else Text.strip (override.getD [])

def createRun (settings : Settings) (runId : Uuid) (request : CreateRunRequest) (profile : Profile)
    (triggeredBy : Option Text) (createdAt : Instant) : Run where
  profileId := request.profileId
  pdeImage := imageOr request.pdeImage profile.pdeImage
  status := .queued
  pipelineData := request.pipelineData
  pipelineVars := request.pipelineVars
  pipelineVarsSecure := InputCrypto.maskSecureVars request.pipelineVarsSecure
  isDryRun := request.isDryRun
  logLevel := request.logLevel
  envVars := request.envVars
  retryVars := none
  name := none
  k8sJobName := none
  triggeredBy := triggeredBy
  progressJson := none
  statusUpdatedAt := none
  reportUpdatedAt := none
  logUpdatedAt := none
  stateLocation := none
  retryOfRunId := none
  createdFromTemplateId := request.createdFromTemplateId
  executionUrl := some (executionUrl settings runId)
  createdAt := createdAt
  startedAt := none
  finishedAt := none
  cancelRequestedAt := none
  finishCode := none
  finishMessage := none

/-- The checks of `retry_run` on the parent row. -/
def checkRetriable (parent : Run) : Except Error Unit :=
  if parent.status ∉ retryableStatuses then
    .error (.runNotRetriable ("Run status ".toList ++ parent.status.value ++
      " is not retriable".toList))
  else if !truthy parent.stateLocation then
    .error (.runStateNotAvailable "Parent run has no uploaded state".toList)
  else .ok ()

def retryRun (settings : Settings) (runId parentId : Uuid) (parent : Run) (profile : Profile)
    (request : Option RetryRunRequest) (createdAt : Instant) : Run where
  profileId := parent.profileId
  pdeImage :=
    imageOr (request.bind RetryRunRequest.pdeImage)
      (if parent.pdeImage.isEmpty then profile.pdeImage else parent.pdeImage)
  status := .queued
  pipelineData := parent.pipelineData
  pipelineVars := parent.pipelineVars
  pipelineVarsSecure := parent.pipelineVarsSecure
  isDryRun := parent.isDryRun
  logLevel := parent.logLevel
  envVars := (request.bind RetryRunRequest.envVars).or parent.envVars
  retryVars := (request.bind RetryRunRequest.retryVars).or parent.retryVars
  name := none
  k8sJobName := none
  triggeredBy := none
  progressJson := none
  statusUpdatedAt := none
  reportUpdatedAt := none
  logUpdatedAt := none
  stateLocation := none
  retryOfRunId := some parentId
  createdFromTemplateId := parent.createdFromTemplateId
  executionUrl := some (executionUrl settings runId)
  createdAt := createdAt
  startedAt := none
  finishedAt := none
  cancelRequestedAt := none
  finishCode := none
  finishMessage := none

/-- `JobService._job_name` -/
def jobName (runId : Uuid) : Text := "pde-run-".toList ++ Uuid.str runId

theorem jobName_injective {a b : Uuid} (h : jobName a = jobName b) : a = b :=
  Uuid.str_injective (List.append_cancel_left h)

/-- `_start_run_job_now` after the Job has been created. -/
def startRunJobNow (now : Instant) (runId : Uuid) (run : Run) : Run :=
  { run with
    k8sJobName := some (jobName runId)
    status := .notStarted
    statusUpdatedAt := some now }

/-! ### What the row functions leave alone -/

variable {parsers : Parsers} {now : Instant} {run work : Run}

/-- A cancelled run is either finished in the queue or marked for the reconciler. -/
theorem cancelRun_ok (h : cancelRun now run = .ok work) :
    run.isTerminal = false ∧
      ((truthy run.k8sJobName = false ∧
        work = { run with cancelRequestedAt := some now, status := .cancelled
                          finishedAt := some now }) ∨
       (truthy run.k8sJobName = true ∧ work = { run with cancelRequestedAt := some now })) := by
  unfold cancelRun at h
  split at h
  · cases h
  · next hterminal =>
    refine ⟨by simpa using hterminal, ?_⟩
    split at h
    · cases h
    · split at h
      · next hjob =>
        cases h
        exact Or.inl ⟨by simpa using hjob, rfl⟩
      · next hjob =>
        cases h
        exact Or.inr ⟨by simpa using hjob, rfl⟩

/-- Two versions of a row that agree on where the run stands. -/
structure SameLifecycle (run run' : Run) : Prop where
  status : run'.status = run.status
  finishedAt : run'.finishedAt = run.finishedAt
  k8sJobName : run'.k8sJobName = run.k8sJobName

theorem SameLifecycle.rfl : SameLifecycle run run := ⟨Eq.refl _, Eq.refl _, Eq.refl _⟩

theorem SameLifecycle.trans {run run' run'' : Run} (h : SameLifecycle run run')
    (h' : SameLifecycle run' run'') : SameLifecycle run run'' :=
  ⟨h'.status.trans h.status, h'.finishedAt.trans h.finishedAt, h'.k8sJobName.trans h.k8sJobName⟩

theorem applyReportFinishCode_columns (run : Run) (data : Bytes) :
    ∃ finishCode, FinishUtils.applyReportFinishCode parsers run data = { run with finishCode } := by
  unfold FinishUtils.applyReportFinishCode
  split
  · exact ⟨run.finishCode, rfl⟩
  · split
    · next code _ => exact ⟨some code, rfl⟩
    · exact ⟨run.finishCode, rfl⟩

theorem applyReportFinishCode_same (data : Bytes) :
    SameLifecycle run (FinishUtils.applyReportFinishCode parsers run data) := by
  obtain ⟨finishCode, happlied⟩ := applyReportFinishCode_columns run data
  rw [happlied]
  exact ⟨rfl, rfl, rfl⟩

theorem deliverReport_same (data : Bytes) :
    SameLifecycle run (deliverReport parsers now data run) := by
  have hstamp : SameLifecycle run { run with reportUpdatedAt := some now } := ⟨rfl, rfl, rfl⟩
  exact hstamp.trans (applyReportFinishCode_same data)

theorem deliverLog_same : SameLifecycle run (deliverLog now run) := ⟨rfl, rfl, rfl⟩

/-- An upload writes four columns. -/
theorem uploadArtifacts_columns (runId : Uuid) (uploads : Uploads) :
    ∃ stateLocation reportUpdatedAt finishCode logUpdatedAt,
      uploadArtifacts parsers now runId uploads run =
        { run with stateLocation, reportUpdatedAt, finishCode, logUpdatedAt } := by
  have hstate : ∃ stateLocation, (if uploads.state.isSome then
      { run with stateLocation := some (artifactKey runId .state) } else run) =
        { run with stateLocation } := by
    split
    · exact ⟨_, rfl⟩
    · exact ⟨run.stateLocation, rfl⟩
  have hreport : ∀ base : Run, ∃ reportUpdatedAt finishCode, (match uploads.report with
      | some report =>
          FinishUtils.applyReportFinishCode parsers { base with reportUpdatedAt := some now } report
      | none => base) = { base with reportUpdatedAt, finishCode } := by
    intro base
    cases uploads.report with
    | none => exact ⟨base.reportUpdatedAt, base.finishCode, rfl⟩
    | some report =>
        obtain ⟨finishCode, happlied⟩ := applyReportFinishCode_columns
          { base with reportUpdatedAt := some now } report
        exact ⟨some now, finishCode, happlied⟩
  obtain ⟨stateLocation, hstate⟩ := hstate
  obtain ⟨reportUpdatedAt, finishCode, hreport⟩ := hreport { run with stateLocation }
  unfold uploadArtifacts
  rw [hstate]
  dsimp only at hreport ⊢
  rw [hreport]
  split
  · exact ⟨_, _, _, _, rfl⟩
  · exact ⟨_, _, _, run.logUpdatedAt, rfl⟩

theorem uploadArtifacts_same (runId : Uuid) (uploads : Uploads) :
    SameLifecycle run (uploadArtifacts parsers now runId uploads run) := by
  obtain ⟨_, _, _, _, huploaded⟩ := uploadArtifacts_columns runId uploads
  rw [huploaded]
  exact ⟨rfl, rfl, rfl⟩

end RunService
end PdeOperator
