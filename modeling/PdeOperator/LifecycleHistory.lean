import PdeOperator.LifecycleJobs

/-! The history of one row. Whatever calls run side by side, a row keeps the columns it was inserted
with, no column of its progress is cleared once it is set, and a terminal status never stands in the
table without the time at which the run has finished. -/

namespace PdeOperator.Lifecycle
open Base

variable {settings : Settings} {parsers : Parsers} {w w' : World} {id : Uuid}

/-- Two versions of a row agree on what was asked for when the run was created. -/
structure SameRequest (run run' : Run) : Prop where
  profileId : run'.profileId = run.profileId
  pdeImage : run'.pdeImage = run.pdeImage
  pipelineData : run'.pipelineData = run.pipelineData
  pipelineVars : run'.pipelineVars = run.pipelineVars
  pipelineVarsSecure : run'.pipelineVarsSecure = run.pipelineVarsSecure
  isDryRun : run'.isDryRun = run.isDryRun
  logLevel : run'.logLevel = run.logLevel
  envVars : run'.envVars = run.envVars
  retryVars : run'.retryVars = run.retryVars
  triggeredBy : run'.triggeredBy = run.triggeredBy
  retryOfRunId : run'.retryOfRunId = run.retryOfRunId
  createdFromTemplateId : run'.createdFromTemplateId = run.createdFromTemplateId
  executionUrl : run'.executionUrl = run.executionUrl
  createdAt : run'.createdAt = run.createdAt

/-- What is known about the progress of the run in one version is known in the other. -/
structure Progressed (run run' : Run) : Prop where
  name : Grows run.name run'.name
  k8sJobName : Grows run.k8sJobName run'.k8sJobName
  statusUpdatedAt : Grows run.statusUpdatedAt run'.statusUpdatedAt
  reportUpdatedAt : Grows run.reportUpdatedAt run'.reportUpdatedAt
  logUpdatedAt : Grows run.logUpdatedAt run'.logUpdatedAt
  stateLocation : Grows run.stateLocation run'.stateLocation
  startedAt : Grows run.startedAt run'.startedAt
  finishedAt : Grows run.finishedAt run'.finishedAt
  cancelRequestedAt : Grows run.cancelRequestedAt run'.cancelRequestedAt
  finishCode : Grows run.finishCode run'.finishCode
  finishMessage : Grows run.finishMessage run'.finishMessage

/-- A row and a later version of it. -/
structure Evolves (run run' : Run) : Prop where
  request : SameRequest run run'
  progress : Progressed run run'

theorem SameRequest.refl (run : Run) : SameRequest run run := by
  constructor <;> rfl

theorem Progressed.refl (run : Run) : Progressed run run := by
  constructor <;> exact Grows.refl _

theorem Evolves.refl (run : Run) : Evolves run run := ⟨.refl run, .refl run⟩

theorem SameRequest.trans {run run' run'' : Run} (h : SameRequest run run')
    (h' : SameRequest run' run'') : SameRequest run run'' where
  profileId := h'.profileId.trans h.profileId
  pdeImage := h'.pdeImage.trans h.pdeImage
  pipelineData := h'.pipelineData.trans h.pipelineData
  pipelineVars := h'.pipelineVars.trans h.pipelineVars
  pipelineVarsSecure := h'.pipelineVarsSecure.trans h.pipelineVarsSecure
  isDryRun := h'.isDryRun.trans h.isDryRun
  logLevel := h'.logLevel.trans h.logLevel
  envVars := h'.envVars.trans h.envVars
  retryVars := h'.retryVars.trans h.retryVars
  triggeredBy := h'.triggeredBy.trans h.triggeredBy
  retryOfRunId := h'.retryOfRunId.trans h.retryOfRunId
  createdFromTemplateId := h'.createdFromTemplateId.trans h.createdFromTemplateId
  executionUrl := h'.executionUrl.trans h.executionUrl
  createdAt := h'.createdAt.trans h.createdAt

theorem Progressed.trans {run run' run'' : Run} (h : Progressed run run')
    (h' : Progressed run' run'') : Progressed run run'' where
  name := h.name.trans h'.name
  k8sJobName := h.k8sJobName.trans h'.k8sJobName
  statusUpdatedAt := h.statusUpdatedAt.trans h'.statusUpdatedAt
  reportUpdatedAt := h.reportUpdatedAt.trans h'.reportUpdatedAt
  logUpdatedAt := h.logUpdatedAt.trans h'.logUpdatedAt
  stateLocation := h.stateLocation.trans h'.stateLocation
  startedAt := h.startedAt.trans h'.startedAt
  finishedAt := h.finishedAt.trans h'.finishedAt
  cancelRequestedAt := h.cancelRequestedAt.trans h'.cancelRequestedAt
  finishCode := h.finishCode.trans h'.finishCode
  finishMessage := h.finishMessage.trans h'.finishMessage

theorem Evolves.trans {run run' run'' : Run} (h : Evolves run run') (h' : Evolves run' run'') :
    Evolves run run'' := ⟨h.request.trans h'.request, h.progress.trans h'.progress⟩

/-- A session that only adds to the version it has read only adds to the version it meets when it
writes back. -/
theorem Evolves.writeBack {read work : Run} (h : Evolves read work) (current : Run) :
    Evolves current (writeBack read work current) where
  request :=
    { profileId := column_kept h.request.profileId _
      pdeImage := column_kept h.request.pdeImage _
      pipelineData := column_kept h.request.pipelineData _
      pipelineVars := column_kept h.request.pipelineVars _
      pipelineVarsSecure := column_kept h.request.pipelineVarsSecure _
      isDryRun := column_kept h.request.isDryRun _
      logLevel := column_kept h.request.logLevel _
      envVars := column_kept h.request.envVars _
      retryVars := column_kept h.request.retryVars _
      triggeredBy := column_kept h.request.triggeredBy _
      retryOfRunId := column_kept h.request.retryOfRunId _
      createdFromTemplateId := column_kept h.request.createdFromTemplateId _
      executionUrl := column_kept h.request.executionUrl _
      createdAt := column_kept h.request.createdAt _ }
  progress :=
    { name := h.progress.name.column _
      k8sJobName := h.progress.k8sJobName.column _
      statusUpdatedAt := h.progress.statusUpdatedAt.column _
      reportUpdatedAt := h.progress.reportUpdatedAt.column _
      logUpdatedAt := h.progress.logUpdatedAt.column _
      stateLocation := h.progress.stateLocation.column _
      startedAt := h.progress.startedAt.column _
      finishedAt := h.progress.finishedAt.column _
      cancelRequestedAt := h.progress.cancelRequestedAt.column _
      finishCode := h.progress.finishCode.column _
      finishMessage := h.progress.finishMessage.column _ }

/-- What one call makes of a row: a later version, and with a terminal status of its own the time at
which the run has finished. -/
structure Finishes (run work : Run) : Prop where
  evolves : Evolves run work
  finished : work.isTerminal = true → work.status = run.status ∨ work.finishedAt.isSome = true

theorem Finishes.of_status {run work : Run} (h : Evolves run work) (hstatus : work.status = run.status) :
    Finishes run work := ⟨h, fun _ => Or.inl hstatus⟩

theorem Finishes.of_finishedAt {run work : Run} (h : Evolves run work)
    (hfinished : work.finishedAt.isSome = true) : Finishes run work := ⟨h, fun _ => Or.inr hfinished⟩

theorem grows_reportName (run : Run) (status : JsonObject) :
    Grows run.name (RunService.reportName run status) := by
  intro hset
  obtain ⟨name, hname⟩ := Option.isSome_iff_exists.mp hset
  rw [RunService.reportName, hname]
  rfl

theorem deliverStatus_finishes {now : Instant} (run : Run) (status : JsonObject) :
    Finishes run (RunService.deliverStatus parsers now status run) where
  evolves :=
    { request := by constructor <;> rfl
      progress :=
        { name := grows_reportName { run with statusUpdatedAt := some now } status
          k8sJobName := .refl _
          statusUpdatedAt := .of_some _ now
          reportUpdatedAt := .refl _
          logUpdatedAt := .refl _
          stateLocation := .refl _
          startedAt := .or _ _
          finishedAt := by
            intro hset
            simp only [RunService.deliverStatus, RunService.applyStatusFields]
            split
            · rfl
            · exact hset
          cancelRequestedAt := .refl _
          finishCode := .refl _
          finishMessage := .refl _ } }
  finished := by
    intro hterminal
    refine Or.inr ?_
    have hmapped := of_decide_eq_true hterminal
    simp only [RunService.deliverStatus, RunService.applyStatusFields] at hmapped ⊢
    rw [if_pos hmapped]
    rfl

variable (parsers) in
theorem applyReportFinishCode_evolves (run : Run) (data : Bytes) :
    Evolves run (FinishUtils.applyReportFinishCode parsers run data) ∧
      (FinishUtils.applyReportFinishCode parsers run data).status = run.status := by
  unfold FinishUtils.applyReportFinishCode
  split
  · exact ⟨.refl run, rfl⟩
  · split
    · next code _ =>
      refine ⟨⟨by constructor <;> rfl, { Progressed.refl run with finishCode := ?_ }⟩, rfl⟩
      exact .of_some _ code
    · exact ⟨.refl run, rfl⟩

theorem stamped_evolves (run : Run) (now : Instant) :
    Evolves run { run with reportUpdatedAt := some now } :=
  ⟨by constructor <;> rfl, { Progressed.refl run with reportUpdatedAt := .of_some _ now }⟩

theorem uploadArtifacts_finishes {now : Instant} {runId : Uuid} (run : Run) (uploads : Uploads) :
    Finishes run (RunService.uploadArtifacts parsers now runId uploads run) := by
  have hstate : ∀ base : Run, Evolves base (if uploads.state.isSome then
      { base with stateLocation := some (artifactKey runId .state) } else base) ∧
      (if uploads.state.isSome then
        { base with stateLocation := some (artifactKey runId .state) } else base).status =
          base.status := by
    intro base
    split
    · refine ⟨⟨by constructor <;> rfl, { Progressed.refl base with stateLocation := ?_ }⟩, rfl⟩
      exact .of_some _ _
    · exact ⟨.refl base, rfl⟩
  have hreport : ∀ (base : Run) (report : Bytes),
      Evolves base (FinishUtils.applyReportFinishCode parsers { base with reportUpdatedAt := some now } report) ∧
        (FinishUtils.applyReportFinishCode parsers { base with reportUpdatedAt := some now } report).status =
          base.status := by
    intro base report
    obtain ⟨hcode, hstatus⟩ := applyReportFinishCode_evolves parsers
      { base with reportUpdatedAt := some now } report
    exact ⟨(stamped_evolves base now).trans hcode, hstatus⟩
  have hlog : ∀ base : Run, Evolves base (if uploads.log.isSome then
      { base with logUpdatedAt := some now } else base) ∧ (if uploads.log.isSome then
        { base with logUpdatedAt := some now } else base).status = base.status := by
    intro base
    split
    · refine ⟨⟨by constructor <;> rfl, { Progressed.refl base with logUpdatedAt := ?_ }⟩, rfl⟩
      exact .of_some _ _
    · exact ⟨.refl base, rfl⟩
  unfold RunService.uploadArtifacts
  cases uploads.report with
  | none => exact .of_status ((hstate run).1.trans (hlog _).1) ((hlog _).2.trans (hstate run).2)
  | some report =>
      exact .of_status (((hstate run).1.trans (hreport _ report).1).trans (hlog _).1)
        ((hlog _).2.trans ((hreport _ report).2.trans (hstate run).2))

/-- Every change that a call makes of a row finishes it when it ends it. -/
theorem RunChange.apply_finishes {now : Instant} {runId : Uuid} {run work : Run} {change : RunChange}
    (h : change.apply parsers now runId run = .ok work) : Finishes run work := by
  cases change with
  | cancelRun =>
      have hrequest : Grows run.cancelRequestedAt (some now) := .of_some _ now
      obtain ⟨-, ⟨-, rfl⟩ | ⟨-, rfl⟩⟩ := RunService.cancelRun_ok h
      · refine .of_finishedAt ⟨by constructor <;> rfl, ?_⟩ rfl
        exact { Progressed.refl run with
          cancelRequestedAt := hrequest, finishedAt := .of_some _ now }
      · refine .of_status ⟨by constructor <;> rfl, ?_⟩ rfl
        exact { Progressed.refl run with cancelRequestedAt := hrequest }
  | deliverStatus status =>
      cases h
      exact deliverStatus_finishes run status
  | deliverReport data =>
      cases h
      obtain ⟨hcode, hstatus⟩ := applyReportFinishCode_evolves parsers
        { run with reportUpdatedAt := some now } data
      exact .of_status ((stamped_evolves run now).trans hcode) hstatus
  | deliverLog =>
      cases h
      refine .of_status ⟨by constructor <;> rfl, ?_⟩ rfl
      exact { Progressed.refl run with logUpdatedAt := .of_some _ now }
  | uploadArtifacts uploads =>
      cases h
      exact uploadArtifacts_finishes run uploads

theorem isSome_or_some {α : Type} (value : Option α) (other : α) :
    (value.or (some other)).isSome = true := by
  rw [Option.isSome_or, Option.isSome_some, Bool.or_true]

/-- A tick leaves a run as it is or finishes it. -/
theorem reconcileRun_finishes {now : Instant} {observed : JobObservation} {run : Run}
    {result : Reconciled} (h : JobReconciler.reconcileRun settings now observed run = some result) :
    Finishes run result.run := by
  have hfinished : Grows run.finishedAt (run.finishedAt.or (some now)) := .or _ _
  have hset : ∀ finishCode finishMessage : Text, Progressed run
      { run with finishedAt := some now, finishCode := some finishCode
                 finishMessage := some finishMessage } := fun finishCode finishMessage =>
    { Progressed.refl run with
      finishedAt := .of_some _ _, finishCode := .of_some _ _, finishMessage := .of_some _ _ }
  have hended : ∀ finishCode finishMessage : Text, Progressed run
      { run with finishedAt := run.finishedAt.or (some now), finishCode := some finishCode
                 finishMessage := some finishMessage } := fun finishCode finishMessage =>
    { Progressed.refl run with
      finishedAt := hfinished, finishCode := .of_some _ _, finishMessage := .of_some _ _ }
  have hkept : Progressed run { run with finishedAt := run.finishedAt.or (some now) } :=
    { Progressed.refl run with finishedAt := hfinished }
  unfold JobReconciler.reconcileRun at h
  obtain ⟨phase, -, h⟩ := Option.bind_eq_some_iff.mp h
  cases phase with
  | succeeded =>
      cases h
      exact .of_finishedAt ⟨by constructor <;> rfl, { hkept with }⟩ (isSome_or_some _ _)
  | failed =>
      dsimp only at h
      split at h
      · cases h
        exact .of_finishedAt ⟨by constructor <;> rfl, { hkept with }⟩ (isSome_or_some _ _)
      · obtain ⟨diagnostic, -, h⟩ := Option.bind_eq_some_iff.mp h
        cases h
        exact .of_finishedAt ⟨by constructor <;> rfl, { hended _ _ with }⟩ (isSome_or_some _ _)
  | missing =>
      dsimp only at h
      split at h
      · cases h
        exact .of_finishedAt ⟨by constructor <;> rfl, { hkept with }⟩ (isSome_or_some _ _)
      · cases h
        exact .of_finishedAt ⟨by constructor <;> rfl, { hended _ _ with }⟩ (isSome_or_some _ _)
  | active =>
      dsimp only at h
      split at h
      · split at h
        · cases h
          exact .of_finishedAt ⟨by constructor <;> rfl, { hset _ _ with }⟩ rfl
        · cases h
          exact .of_status (.refl run) rfl
      · split at h
        · obtain ⟨diagnostic, -, h⟩ := Option.bind_eq_some_iff.mp h
          cases h
          exact .of_finishedAt ⟨by constructor <;> rfl, { hset _ _ with }⟩ rfl
        · cases h
          exact .of_status (.refl run) rfl

theorem admitRun_finishes {now : Instant} {runId : Uuid} {profile : Option Profile}
    {outcome : JobOutcome} (run : Run) :
    Finishes run (QueueService.admitRun now runId profile outcome run) := by
  cases profile with
  | none =>
      refine .of_finishedAt ⟨by constructor <;> rfl, ?_⟩ rfl
      exact { Progressed.refl run with finishedAt := .of_some _ now }
  | some profile =>
      cases outcome with
      | created =>
          refine ⟨⟨by constructor <;> rfl, ?_⟩, fun hterminal => ?_⟩
          · exact { Progressed.refl run with
              k8sJobName := .of_some _ _, statusUpdatedAt := .of_some _ now }
          · have hactive : RunStatus.notStarted ∉ terminalStatuses := by decide
            exact absurd (of_decide_eq_true hterminal) hactive
      | refused => exact .of_status (.refl run) rfl
      | lost => exact .of_status (.refl run) rfl

/-- A step takes a row that has been there before to a later version of it. -/
theorem evolves_step {a : Act} {next : Run} (hsound : Sound settings parsers w)
    (htaken : Taken w id) (h : step settings parsers w a = some w')
    (hnext : w'.runs.lookup id = some next) :
    ∃ current, w.runs.lookup id = some current ∧ Evolves current next := by
  have hwrite : ∀ {read work : Run}, Evolves read work →
      w'.runs.lookup id = (w.runs.lookup id).map (writeBack read work) →
      ∃ current, w.runs.lookup id = some current ∧ Evolves current next := by
    intro read work hchange hrow
    rw [hnext] at hrow
    obtain ⟨current, hcurrent, rfl⟩ := Option.map_eq_some_iff.mp hrow.symm
    exact ⟨current, hcurrent, hchange.writeBack current⟩
  cases rowStep_of_step hsound h id with
  | same hrow => exact ⟨next, hrow ▸ hnext, .refl next⟩
  | change hcall happly hfree hrow => exact hwrite (RunChange.apply_finishes happly).evolves hrow
  | reconcile hcall hmem htracked hresult hwork hdirty hfree hrow =>
      exact hwrite (hwork ▸ (reconcileRun_finishes hresult).evolves) hrow
  | start hcall hmem hqueued hwork hlock hold hrow =>
      obtain rfl := Option.some.inj (hrow.symm.trans hnext)
      exact ⟨_, hold, hwork ▸ (admitRun_finishes _).evolves⟩
  | insert hcall hvalid hold hrow => exact absurd (newIdIn_of_some hcall) (htaken.2 _)
  | erase hfree hrow =>
      rw [hrow] at hnext
      cases hnext

/-- A row that appears is the one that a call has prepared. -/
theorem inserted_of_step {a : Act} {next : Run} (hsound : Sound settings parsers w)
    (h : step settings parsers w a = some w') (hnone : w.runs.lookup id = none)
    (hnext : w'.runs.lookup id = some next) :
    ∃ c, w.calls c = some (.creating id next .insert) := by
  cases rowStep_of_step hsound h id with
  | same hrow | change _ _ _ hrow | reconcile _ _ _ _ _ _ _ hrow =>
      rw [hrow, hnone] at hnext
      cases hnext
  | start hcall hmem hqueued hwork hlock hold hrow =>
      rw [hnone] at hold
      cases hold
  | @insert c run hcall hvalid hold hrow =>
      obtain rfl := Option.some.inj (hrow.symm.trans hnext)
      exact ⟨c, hcall⟩
  | erase hfree hrow =>
      rw [hrow] at hnext
      cases hnext

variable (settings) in
/-- Where the row that a call is going to insert comes from. -/
inductive Prepares (w : World) (c : Nat) (id : Uuid) (run : Run) : Prop
  | prepared {stage : CreateStage} (hcall : w.calls c = some (.creating id run stage))
  | started {now : Instant} {queued : Run} (hcall : w.calls c = some (.creating id queued .job))
      (hrun : run = RunService.startRunJobNow now id queued)
  | creates {request : CreateRunRequest} {profile : Profile} {triggeredBy : Option Text}
      {now : Instant}
      (hrun : run = RunService.createRun settings id request profile triggeredBy now)
  | retries {parentId : Uuid} {parent : Run} {profile : Profile}
      {request : Option RetryRunRequest} {now : Instant}
      (hcall : w.calls c = some (.retrying id parentId parent request now))
      (hrun : run = RunService.retryRun settings id parentId parent profile request now)

theorem prepares_of_step {a : Act} {c : Nat} {run : Run} {stage : CreateStage}
    (h : step settings parsers w a = some w') (hcall : w'.calls c = some (.creating id run stage)) :
    Prepares settings w c id run := by
  cases step_cases h with
  | commitRow | reconcileNothing | reconcileCommit | admitNone | admitCommit | startRefused
  | startLost | insertCommit | deleteCommit | crash => exact .prepared (calls_finish hcall).2
  | readRow | putNext | reconcileRead | reconcileNext | reconcileDelete | admitCount | admitSelect
  | admitStart | admitPass | retryRead | deleteRead | deleteObjects =>
      obtain ⟨-, hnew⟩ | ⟨-, hold⟩ := calls_spawn hcall
      · cases hnew
      · exact .prepared hold
  | createRead =>
      obtain ⟨-, hnew⟩ | ⟨-, hold⟩ := calls_spawn hcall
      · cases hnew
        exact .creates rfl
      · exact .prepared hold
  | retryLoad hretrying =>
      obtain ⟨hc, hnew⟩ | ⟨-, hold⟩ := calls_spawn hcall
      · cases hnew
        exact .retries (hc ▸ hretrying) rfl
      · exact .prepared hold
  | storeInput hcreating | startLater hcreating =>
      obtain ⟨hc, hnew⟩ | ⟨-, hold⟩ := calls_spawn hcall
      · cases hnew
        exact .prepared (hc ▸ hcreating)
      · exact .prepared hold
  | startNow hcreating =>
      obtain ⟨hc, hnew⟩ | ⟨-, hold⟩ := calls_spawn hcall
      · cases hnew
        exact .started (hc ▸ hcreating) rfl
      · exact .prepared hold
  | jobEnds | editProfiles => exact .prepared hcall

/-- The row has come from an earlier version of it, or it is gone. -/
structure Descended (id : Uuid) (run : Run) (w : World) : Prop where
  taken : Taken w id
  evolves : ∀ current, w.runs.lookup id = some current → Evolves run current

theorem descended_step {a : Act} {run : Run} (hsound : Sound settings parsers w)
    (hinv : Descended id run w) (h : step settings parsers w a = some w') : Descended id run w' := by
  refine ⟨taken_step hsound.valid hinv.taken h, fun next hnext => ?_⟩
  obtain ⟨current, hcurrent, hevolves⟩ := evolves_step hsound hinv.taken h hnext
  exact (hinv.evolves current hcurrent).trans hevolves

theorem descended_of_row {run : Run} (hsound : Sound settings parsers w)
    (hrow : w.runs.lookup id = some run) : Descended id run w := by
  refine ⟨hsound.consistent.taken hrow, fun current hcurrent => ?_⟩
  obtain rfl := Option.some.inj (hrow.symm.trans hcurrent)
  exact .refl run

/-- Whatever happens between two sights of a row, the later one shows the same request and no less
progress. -/
theorem row_evolves {before between : List Act} {u v : World} {run run' : Run} (hidle : Idle w)
    (hbefore : (system settings parsers).exec w before = some u)
    (hrow : u.runs.lookup id = some run)
    (hbetween : (system settings parsers).exec u between = some v)
    (hrow' : v.runs.lookup id = some run') : Evolves run run' := by
  have hsound : Sound settings parsers u := sound_exec hidle.sound hbefore
  have hinv := System.exec_invariant_of_forall
    (I := fun u => Sound settings parsers u ∧ Descended id run u)
    (fun hi hs => ⟨sound_step hi.1 hs, descended_step hi.1 hi.2 hs⟩)
    ⟨hsound, descended_of_row hsound hrow⟩ hbetween
  exact hinv.2.evolves run' hrow'

/-- A run that is created and started. -/
def startedRun : List Act := createAlone 0 1 sampleRequest 0 ++ admitAlone 1 1

/-- The run fails, and a report arrives after that. -/
def reportAfterEnd : List Act :=
  changeAlone 3 1 (.deliverStatus [("status".toList, .str "FAILED".toList)]) 3 ++
    [.readRow 4 1 (.deliverReport [123, 125]) 4, .putNext 4, .commitRow 4]

/-- What the table keeps of a run between its start and a report that arrives after its end. -/
theorem row_evolves_reportAfterEnd : ∃ run run', rowAfter sampleWorld startedRun 1 = some run ∧
    rowAfter sampleWorld (startedRun ++ reportAfterEnd) 1 = some run' ∧ Evolves run run' := by
  have hbefore : (rowAfter sampleWorld startedRun 1).isSome = true := by decide
  have hafter : (rowAfter sampleWorld (startedRun ++ reportAfterEnd) 1).isSome = true := by decide
  obtain ⟨run, hrow⟩ := Option.isSome_iff_exists.mp hbefore
  obtain ⟨run', hrow'⟩ := Option.isSome_iff_exists.mp hafter
  obtain ⟨u, v, hu, hrun, hbetween, hrun'⟩ := System.exists_between hrow hrow'
  exact ⟨run, run', hrow, hrow', row_evolves (World.initial_idle _) hu hrun hbetween hrun'⟩

/-! ### Terminal statuses and finish times -/

/-- Every copy of the row that a call works on has become what the table shows. -/
def CopiesDescended (w : World) (id : Uuid) : Prop :=
  ∀ c read, (id, read) ∈ copiesIn w.calls c → Descended id read w

theorem copiesDescended_step {a : Act} (hsound : Sound settings parsers w)
    (hinv : CopiesDescended w id) (h : step settings parsers w a = some w') :
    CopiesDescended w' id := by
  intro c read hx
  rcases copiesIn_step hsound.valid h hx with hold | hrow
  · exact descended_step hsound (hinv c read hold) h
  · exact descended_step hsound (descended_of_row hsound hrow) h

/-- A run that has ended has a finish time. -/
def Timed (run : Run) : Prop := run.isTerminal = true → run.finishedAt.isSome = true

/-- A session that finishes the version it has read finishes the later version that it meets. -/
theorem timed_writeBack {read work current : Run} (hwork : Finishes read work)
    (hread : Evolves read current) (hcurrent : Timed current) :
    Timed (writeBack read work current) := by
  intro hterminal
  have hgrows := (hwork.evolves.writeBack current).progress.finishedAt
  by_cases hstatus : work.status = read.status
  · rw [Run.isTerminal, Run.writeBack_status, column_kept hstatus] at hterminal
    exact hgrows (hcurrent hterminal)
  · have hwritten : (writeBack read work current).status = work.status := by
      rw [Run.writeBack_status, column, if_neg hstatus]
    rw [Run.isTerminal, hwritten] at hterminal
    have hfinished := (hwork.finished hterminal).resolve_left hstatus
    rw [Run.writeBack_finishedAt, column]
    split
    · next hsame => exact hread.progress.finishedAt (hsame ▸ hfinished)
    · exact hfinished

structure AllTimed (w : World) : Prop where
  row : ∀ id run, w.runs.lookup id = some run → Timed run
  copies : ∀ id, CopiesDescended w id
  prepared : ∀ c id run stage, w.calls c = some (.creating id run stage) → run.isTerminal = false

theorem prepared_active {a : Act} (hinv : AllTimed w) (h : step settings parsers w a = some w')
    {c : Nat} {run : Run} {stage : CreateStage} (hcall : w'.calls c = some (.creating id run stage)) :
    run.isTerminal = false := by
  cases prepares_of_step h hcall with
  | prepared hold => exact hinv.prepared c id run _ hold
  | started hold hrun | creates hrun | retries hold hrun =>
      rw [hrun]
      rfl

theorem row_timed {a : Act} (hsound : Sound settings parsers w) (hinv : AllTimed w)
    (h : step settings parsers w a = some w') {next : Run} (hnext : w'.runs.lookup id = some next) :
    Timed next := by
  have hwrite : ∀ {c : Nat} {call : Call} {read work : Run}, w.calls c = some call →
      (id, read) ∈ call.copies → Finishes read work →
      w'.runs.lookup id = (w.runs.lookup id).map (writeBack read work) → Timed next := by
    intro c call read work hcall hcopy hwork hrow
    rw [hnext] at hrow
    obtain ⟨current, hcurrent, rfl⟩ := Option.map_eq_some_iff.mp hrow.symm
    have hdescended := hinv.copies id c read (mem_copiesIn hcall hcopy)
    exact timed_writeBack hwork (hdescended.evolves current hcurrent) (hinv.row id current hcurrent)
  cases rowStep_of_step hsound h id with
  | same hrow => exact hinv.row id next (hrow ▸ hnext)
  | change hcall happly hfree hrow =>
      exact hwrite hcall List.mem_cons_self (RunChange.apply_finishes happly) hrow
  | reconcile hcall hmem htracked hresult hwork hdirty hfree hrow =>
      exact hwrite hcall (mem_readRows hmem) (hwork ▸ reconcileRun_finishes hresult) hrow
  | @start c now done started read work profile outcome hcall hmem hqueued hwork hlock hold hrow =>
      obtain rfl := Option.some.inj (hrow.symm.trans hnext)
      have hfinishes : Finishes read work := hwork ▸ admitRun_finishes read
      intro hterminal
      rcases hfinishes.finished hterminal with hsame | hfinished
      · rw [Run.isTerminal, hsame] at hterminal
        exact hfinishes.evolves.progress.finishedAt (hinv.row id read hold hterminal)
      · exact hfinished
  | insert hcall hvalid hold hrow =>
      obtain rfl := Option.some.inj (hrow.symm.trans hnext)
      intro hterminal
      rw [hinv.prepared _ id _ _ hcall] at hterminal
      cases hterminal
  | erase hfree hrow =>
      rw [hrow] at hnext
      cases hnext

theorem allTimed_step {a : Act} (hsound : Sound settings parsers w) (hinv : AllTimed w)
    (h : step settings parsers w a = some w') : AllTimed w' where
  row _ _ hnext := row_timed hsound hinv h hnext
  copies id := copiesDescended_step hsound (hinv.copies id) h
  prepared _ _ _ _ hcall := prepared_active hinv h hcall

/-- In whatever order the calls take their steps, a row never shows a terminal status without the
time at which the run has finished. -/
theorem finishedAt_of_terminal {acts : List Act} {run : Run} (hidle : Idle w)
    (hrows : ∀ id run, w.runs.lookup id = some run → Timed run)
    (hexec : (system settings parsers).exec w acts = some w')
    (hrow : w'.runs.lookup id = some run) (hterminal : run.isTerminal = true) :
    run.finishedAt.isSome = true := by
  have hstart : AllTimed w :=
    { row := hrows
      copies := fun id c read hx => by
        rw [copiesIn, hidle.quiet c] at hx
        exact absurd hx List.not_mem_nil
      prepared := fun c id run stage hcall => by
        rw [hidle.quiet c] at hcall
        cases hcall }
  have hinv := System.exec_invariant_of_forall
    (I := fun u => Sound settings parsers u ∧ AllTimed u)
    (fun hi hs => ⟨sound_step hi.1 hs, allTimed_step hi.1 hi.2 hs⟩) ⟨hidle.sound, hstart⟩ hexec
  exact hinv.2.row id run hrow hterminal

/-- The run that a late report finds failed has its finish time. -/
theorem finishedAt_of_terminal_reportAfterEnd : ∃ run,
    rowAfter sampleWorld (startedRun ++ reportAfterEnd) 1 = some run ∧ run.isTerminal = true ∧
      run.finishedAt.isSome = true := by
  have hended : (rowAfter sampleWorld (startedRun ++ reportAfterEnd) 1).map Run.isTerminal =
      some true := by
    decide
  obtain ⟨run, hrow, hterminal⟩ := Option.map_eq_some_iff.mp hended
  obtain ⟨u, hexec, hrun⟩ := Option.bind_eq_some_iff.mp hrow
  refine ⟨run, hrow, hterminal,
    finishedAt_of_terminal (World.initial_idle _) (fun id run hrun => ?_) hexec hrun hterminal⟩
  cases hrun

end PdeOperator.Lifecycle
