import PdeOperator.RunStore

/-! Rows and stored payloads over whole histories of calls: each row shows what its payload holds, and a
retry holds what its root run holds. -/

namespace PdeOperator
open Base

/-- The inputs of a run as a row shows them. -/
structure Inputs where
  pipelineData : Text
  pipelineVars : Option Text
  pipelineVarsSecure : Option Text
  isDryRun : Bool
  logLevel : Text
  deriving DecidableEq

def Run.inputs (run : Run) : Inputs where
  pipelineData := run.pipelineData
  pipelineVars := run.pipelineVars
  pipelineVarsSecure := run.pipelineVarsSecure
  isDryRun := run.isDryRun
  logLevel := run.logLevel

def ScheduledRun.inputs (row : ScheduledRun) : Inputs where
  pipelineData := row.pipelineData
  pipelineVars := row.pipelineVars
  pipelineVarsSecure := row.pipelineVarsSecure
  isDryRun := row.isDryRun
  logLevel := row.logLevel

/-- The inputs of a payload, with the secure values masked. -/
def RunInputPayload.masked (payload : RunInputPayload) : Inputs where
  pipelineData := payload.pipelineData
  pipelineVars := payload.pipelineVars
  pipelineVarsSecure := InputCrypto.maskSecureVars payload.pipelineVarsSecure
  isDryRun := payload.isDryRun
  logLevel := payload.logLevel

/-- The inputs of a payload with the real secure values: everything but the retry variables. -/
def RunInputPayload.real (payload : RunInputPayload) : Inputs where
  pipelineData := payload.pipelineData
  pipelineVars := payload.pipelineVars
  pipelineVarsSecure := payload.pipelineVarsSecure
  isDryRun := payload.isDryRun
  logLevel := payload.logLevel

/-- The calls; `trackRun` and `trackSchedule` are the calls that change nothing of the inputs of a row
(deliveries, cancellation, the reconciler, the dispatcher's bookkeeping, switching a schedule). -/
inductive Call where
  | createRun (env : RunEnv) (request : CreateRunRequest)
  | retryRun (env : RunEnv) (runId : Uuid) (request : Option RetryRunRequest)
  | createRunFromSimpleTemplate (env : RunEnv) (templateId : Uuid)
      (request : Option CreateRunFromTemplateRequest)
  | createRunFromDeclarativeTemplate (env : RunEnv) (templateId : Uuid) (values : Option JsonObject)
  | createSchedule (env : CallEnv) (request : CreateScheduledRunRequest)
  | updateSchedule (env : CallEnv) (scheduleId : Uuid) (request : UpdateScheduledRunRequest)
  | fire (env : RunEnv) (scheduleId : Uuid)
  | upsertSchedule (env : CallEnv) (request : ImportScheduledRunRequest)
  | upsertOthers (profiles : Table Text Profile) (templates : Table Uuid RunTemplate)
  | trackRun (runId : Uuid) (run : Run)
  | trackSchedule (scheduleId : Uuid) (row : ScheduledRun)

namespace RunStore

/-- A change of a run row that keeps its inputs. -/
def trackRun (runId : Uuid) (run : Run) (w : RunStore) : Option RunStore := do
  let current ← w.runs.lookup runId
  guard (run.inputs = current.inputs ∧ run.retryVars = current.retryVars ∧
    run.retryOfRunId = current.retryOfRunId)
  some { w with runs := w.runs.insert runId run }

/-- A change of a schedule row that keeps its inputs. -/
def trackSchedule (scheduleId : Uuid) (row : ScheduledRun) (w : RunStore) : Option RunStore := do
  let current ← w.store.session.schedules.lookup scheduleId
  guard (row.inputs = current.inputs)
  some { w with store := (w.store.putSchedule scheduleId row).commit }

/-- The calls that complete, one at a time. -/
def serve (settings : Settings) (lib : CallLibrary) (w : RunStore) : Call → Option RunStore
  | .createRun env request => (createRun settings env request none w).toOption
  | .retryRun env runId request => (retryRun settings env runId request w).toOption
  | .createRunFromSimpleTemplate env templateId request =>
      (createRunFromSimpleTemplate settings env templateId request w).toOption
  | .createRunFromDeclarativeTemplate env templateId values =>
      (createRunFromDeclarativeTemplate settings lib env templateId values w).toOption
  | .createSchedule env request => (createSchedule settings lib env request w).toOption
  | .updateSchedule env scheduleId request =>
      (updateSchedule settings lib env scheduleId request w).toOption
  | .fire env scheduleId => (fire settings env scheduleId w).toOption
  | .upsertSchedule env request => (upsertSchedule settings lib env request w).toOption
  | .upsertOthers profiles templates => some (upsertOthers profiles templates w)
  | .trackRun runId run => trackRun runId run w
  | .trackSchedule scheduleId row => trackSchedule scheduleId row w

def system (settings : Settings) (lib : CallLibrary) : System RunStore Call where
  step := serve settings lib

/-- Every row has a payload that it shows, no id is that of a run and of a schedule, and a retry has
the inputs of its parent, the real secure values included. -/
structure Agrees (w : RunStore) : Prop where
  run : ∀ id run, w.runs.lookup id = some run → ∃ payload, w.store.inputs.lookup id = some payload ∧
    run.inputs = payload.masked ∧ run.retryVars = payload.retryVars
  schedule : ∀ id row, w.store.session.schedules.lookup id = some row →
    ∃ payload, w.store.inputs.lookup id = some payload ∧ row.inputs = payload.masked
  apart : ∀ id run, w.runs.lookup id = some run → w.store.session.schedules.lookup id = none
  parent : ∀ id run parentId, w.runs.lookup id = some run → run.retryOfRunId = some parentId →
    ∃ parent payload parentPayload, w.runs.lookup parentId = some parent ∧
      w.store.inputs.lookup id = some payload ∧ w.store.inputs.lookup parentId = some parentPayload ∧
      payload.real = parentPayload.real

/-- An id that no row has. -/
def Fresh (w : RunStore) (id : Uuid) : Prop :=
  w.runs.lookup id = none ∧ w.store.session.schedules.lookup id = none

/-- The id that `uuid4()` returns in a call. -/
def newId : Call → Option Uuid
  | .createRun env _ | .retryRun env _ _ | .createRunFromSimpleTemplate env _ _
  | .createRunFromDeclarativeTemplate env _ _ | .fire env _ => some env.newId
  | .createSchedule env _ => some env.newId
  | .upsertSchedule env request => if request.id.isSome then none else some env.newId
  | _ => none

/-- New ids are new. -/
def NewIdFresh (w : RunStore) (call : Call) : Prop := ∀ id, newId call = some id → Fresh w id

/-- No schedule is imported under the id of a run. -/
def SparesRuns (w : RunStore) : Call → Prop
  | .upsertSchedule _ request => ∀ id, request.id = some id → w.runs.lookup id = none
  | _ => True

section Changes

variable {settings : Settings} {lib : CallLibrary} {w w' : RunStore}

/-- A new run row with its payload. -/
theorem Agrees.insertRun (hagrees : Agrees w) {env : RunEnv} {payload : RunInputPayload} {run : Run}
    (hfresh : Fresh w env.newId) (hinputs : run.inputs = payload.masked)
    (hretry : run.retryVars = payload.retryVars)
    (hparent : ∀ parentId, run.retryOfRunId = some parentId → ∃ parent parentPayload,
      w.runs.lookup parentId = some parent ∧ w.store.inputs.lookup parentId = some parentPayload ∧
      payload.real = parentPayload.real) :
    Agrees (insertRun settings env payload run w) := by
  have hstarted : (started settings env run).inputs = run.inputs ∧
      (started settings env run).retryVars = run.retryVars ∧
      (started settings env run).retryOfRunId = run.retryOfRunId := by
    unfold started
    split <;> exact ⟨rfl, rfl, rfl⟩
  have hruns : ∀ id, id ≠ env.newId → (RunStore.insertRun settings env payload run w).runs.lookup id =
      w.runs.lookup id := fun id hid => AList.lookup_insert_ne hid
  have hinputsOther : ∀ id, id ≠ env.newId →
      (RunStore.insertRun settings env payload run w).store.inputs.lookup id =
        w.store.inputs.lookup id := fun id hid => AList.lookup_insert_ne hid
  have hnewRun : (RunStore.insertRun settings env payload run w).runs.lookup env.newId =
      some (started settings env run) := AList.lookup_insert _
  have hnewInput : (RunStore.insertRun settings env payload run w).store.inputs.lookup env.newId =
      some payload := AList.lookup_insert _
  constructor
  · intro id found hfound
    by_cases hid : id = env.newId
    · subst hid
      obtain rfl := Option.some.inj (hnewRun.symm.trans hfound)
      exact ⟨payload, hnewInput, hstarted.1.trans hinputs, hstarted.2.1.trans hretry⟩
    · rw [hruns id hid] at hfound
      rw [hinputsOther id hid]
      exact hagrees.run id found hfound
  · intro id row hrow
    have hid : id ≠ env.newId := by
      rintro rfl
      exact absurd (hfresh.2.symm.trans hrow) nofun
    rw [hinputsOther id hid]
    exact hagrees.schedule id row hrow
  · intro id found hfound
    by_cases hid : id = env.newId
    · exact hid ▸ hfresh.2
    · rw [hruns id hid] at hfound
      exact hagrees.apart id found hfound
  · intro id found parentId hfound hof
    have hne : ∀ {otherId other}, w.runs.lookup otherId = some other → otherId ≠ env.newId := by
      rintro otherId other hother rfl
      exact absurd (hfresh.1.symm.trans hother) nofun
    by_cases hid : id = env.newId
    · subst hid
      obtain rfl := Option.some.inj (hnewRun.symm.trans hfound)
      rw [hstarted.2.2] at hof
      obtain ⟨parent, parentPayload, hlookup, hpayload, hreal⟩ := hparent parentId hof
      have hold := hne hlookup
      exact ⟨parent, payload, parentPayload, (hruns _ hold).trans hlookup, hnewInput,
        (hinputsOther _ hold).trans hpayload, hreal⟩
    · rw [hruns id hid] at hfound
      obtain ⟨parent, own, parentPayload, hlookup, hown, hpayload, hreal⟩ :=
        hagrees.parent id found parentId hfound hof
      have hold := hne hlookup
      exact ⟨parent, own, parentPayload, (hruns _ hold).trans hlookup,
        (hinputsOther id hid).trans hown, (hinputsOther _ hold).trans hpayload, hreal⟩

theorem Agrees.not_run (hagrees : Agrees w) {id : Uuid} {row : ScheduledRun}
    (hrow : w.store.session.schedules.lookup id = some row) : w.runs.lookup id = none := by
  rw [Option.eq_none_iff_forall_ne_some]
  intro run hrun
  exact absurd ((hagrees.apart id run hrun).symm.trans hrow) nofun

/-- A schedule row under an id that is no run's, with the payload that it shows; the other payloads
stay. -/
theorem Agrees.saveRow (hagrees : Agrees w) {id : Uuid} {row : ScheduledRun}
    {inputs : Table Uuid RunInputPayload} (hrun : w.runs.lookup id = none)
    (hothers : ∀ other, other ≠ id → inputs.lookup other = w.store.inputs.lookup other)
    (hpayload : ∃ payload, inputs.lookup id = some payload ∧ row.inputs = payload.masked) :
    Agrees { w with store := (({ w.store with inputs } : Store).putSchedule id row).commit } := by
  have hrow : ∀ other, other ≠ id →
      (w.store.session.schedules.insert id row).lookup other =
        w.store.session.schedules.lookup other := fun other hother => AList.lookup_insert_ne hother
  have hne : ∀ {other found}, w.runs.lookup other = some found → other ≠ id := by
    rintro other found hfound rfl
    exact absurd (hrun.symm.trans hfound) nofun
  constructor
  · intro other found hfound
    have hother := hothers other (hne hfound)
    exact hother ▸ hagrees.run other found hfound
  · intro other found hfound
    by_cases hid : other = id
    · subst hid
      have hnew : (w.store.session.schedules.insert other row).lookup other = some row :=
        AList.lookup_insert _
      obtain rfl := Option.some.inj (hnew.symm.trans hfound)
      exact hpayload
    · have hold := hagrees.schedule other found ((hrow other hid).symm.trans hfound)
      exact (hothers other hid) ▸ hold
  · intro other found hfound
    exact (hrow other (hne hfound)).trans (hagrees.apart other found hfound)
  · intro other found parentId hfound hof
    obtain ⟨parent, own, parentPayload, hlookup, hown, hpayload, hreal⟩ :=
      hagrees.parent other found parentId hfound hof
    exact ⟨parent, own, parentPayload, hlookup, (hothers other (hne hfound)).trans hown,
      (hothers parentId (hne hlookup)).trans hpayload, hreal⟩

/-- A new payload, and the schedule row that shows it. -/
theorem Agrees.saveSchedule (hagrees : Agrees w) {id : Uuid} {payload : RunInputPayload}
    {row : ScheduledRun} (hrun : w.runs.lookup id = none) (hinputs : row.inputs = payload.masked) :
    Agrees { w with store := ((w.store.storeInput id payload).putSchedule id row).commit } := by
  apply hagrees.saveRow hrun
  · intro other hother
    exact AList.lookup_insert_ne hother
  · exact ⟨payload, AList.lookup_insert _, hinputs⟩

/-- A schedule row that keeps its inputs. -/
theorem Agrees.putSchedule (hagrees : Agrees w) {id : Uuid} {row current : ScheduledRun}
    (hcurrent : w.store.session.schedules.lookup id = some current)
    (hinputs : row.inputs = current.inputs) :
    Agrees { w with store := (w.store.putSchedule id row).commit } := by
  apply hagrees.saveRow (hagrees.not_run hcurrent)
  · intro other _
    rfl
  · obtain ⟨payload, hpayload, hmasked⟩ := hagrees.schedule id current hcurrent
    exact ⟨payload, hpayload, hinputs.trans hmasked⟩

/-- A run row that keeps its inputs and its parent. -/
theorem Agrees.trackRun (hagrees : Agrees w) {runId : Uuid} {run : Run}
    (h : RunStore.trackRun runId run w = some w') : Agrees w' := by
  obtain ⟨current, hcurrent, h⟩ := Option.bind_eq_some_iff.mp h
  obtain ⟨_, hsame, h⟩ := Option.bind_eq_some_iff.mp h
  obtain ⟨hinputs, hretry, hof⟩ := (Option.guard_eq_some' _).mp hsame
  obtain rfl := Option.some.inj h
  have hrow : ∀ {other found}, (w.runs.insert runId run).lookup other = some found →
      ∃ old, w.runs.lookup other = some old ∧ found.inputs = old.inputs ∧
        found.retryVars = old.retryVars ∧ found.retryOfRunId = old.retryOfRunId := by
    intro other found hfound
    by_cases hid : other = runId
    · subst hid
      rw [AList.lookup_insert] at hfound
      obtain rfl := Option.some.inj hfound
      exact ⟨current, hcurrent, hinputs, hretry, hof⟩
    · rw [AList.lookup_insert_ne hid] at hfound
      exact ⟨found, hfound, rfl, rfl, rfl⟩
  have hkept : ∀ {other old}, w.runs.lookup other = some old →
      ∃ found, (w.runs.insert runId run).lookup other = some found := by
    intro other old hold
    by_cases hid : other = runId
    · exact ⟨run, by rw [hid, AList.lookup_insert]⟩
    · exact ⟨old, by rw [AList.lookup_insert_ne hid, hold]⟩
  constructor
  · intro other found hfound
    obtain ⟨old, hold, hi, hr, -⟩ := hrow hfound
    rw [hi, hr]
    exact hagrees.run other old hold
  · exact hagrees.schedule
  · intro other found hfound
    obtain ⟨old, hold, -⟩ := hrow hfound
    exact hagrees.apart other old hold
  · intro other found parentId hfound hparent
    obtain ⟨old, hold, -, -, ho⟩ := hrow hfound
    obtain ⟨parent, own, parentPayload, hlookup, hpayloads⟩ :=
      hagrees.parent other old parentId hold (ho.symm.trans hparent)
    obtain ⟨parent', hlookup'⟩ := hkept hlookup
    exact ⟨parent', own, parentPayload, hlookup', hpayloads⟩

theorem Agrees.upsertOthers (hagrees : Agrees w) (profiles : Table Text Profile)
    (templates : Table Uuid RunTemplate) : Agrees (RunStore.upsertOthers profiles templates w) :=
  ⟨hagrees.run, hagrees.schedule, hagrees.apart, hagrees.parent⟩

theorem Agrees.trackSchedule (hagrees : Agrees w) {scheduleId : Uuid} {row : ScheduledRun}
    (h : RunStore.trackSchedule scheduleId row w = some w') : Agrees w' := by
  obtain ⟨current, hcurrent, h⟩ := Option.bind_eq_some_iff.mp h
  obtain ⟨_, hsame, h⟩ := Option.bind_eq_some_iff.mp h
  obtain rfl := Option.some.inj h
  exact hagrees.putSchedule hcurrent ((Option.guard_eq_some' _).mp hsame)

theorem Agrees.createRun (hagrees : Agrees w) {env : RunEnv} {request : CreateRunRequest}
    {triggeredBy : Option Text} (hfresh : Fresh w env.newId)
    (h : RunStore.createRun settings env request triggeredBy w = .ok w') : Agrees w' := by
  obtain ⟨profile, -, rfl⟩ := createRun_eq_ok h
  exact hagrees.insertRun hfresh rfl rfl nofun

/-- The row is copied from the row of the parent, the payload from its payload. -/
theorem Agrees.retryRun (hagrees : Agrees w) {env : RunEnv} {runId : Uuid}
    {request : Option RetryRunRequest} (hfresh : Fresh w env.newId)
    (h : RunStore.retryRun settings env runId request w = .ok w') : Agrees w' := by
  unfold RunStore.retryRun at h
  split at h
  · cases h
  · next parent hparent =>
    obtain ⟨_, -, h⟩ := bind_eq_ok.mp h
    split at h
    · cases h
    · split at h
      · cases h
      · next profile _ =>
        split at h
        · cases h
        · next parentInput hinput =>
          split at h
          · cases h
          · obtain rfl := Except.ok.inj h
            obtain ⟨payload, hpayload, hinputs, -⟩ := hagrees.run runId parent hparent
            obtain rfl := Option.some.inj (hinput.symm.trans hpayload)
            have hcopied : (RunService.retryRun settings env.newId runId parent profile request
                env.createdAt).inputs = parent.inputs := rfl
            refine hagrees.insertRun hfresh (hcopied.trans hinputs) rfl ?_
            rintro parentId ⟨⟩
            exact ⟨parent, parentInput, hparent, hinput, rfl⟩

theorem Agrees.createRunFromSimpleTemplate (hagrees : Agrees w) {env : RunEnv} {templateId : Uuid}
    {request : Option CreateRunFromTemplateRequest} (hfresh : Fresh w env.newId)
    (h : RunStore.createRunFromSimpleTemplate settings env templateId request w = .ok w') :
    Agrees w' := by
  unfold RunStore.createRunFromSimpleTemplate at h
  split at h
  · cases h
  · split at h
    · cases h
    · exact hagrees.createRun hfresh h

theorem Agrees.createRunFromDeclarativeTemplate (hagrees : Agrees w) {env : RunEnv}
    {templateId : Uuid} {values : Option JsonObject} (hfresh : Fresh w env.newId)
    (h : RunStore.createRunFromDeclarativeTemplate settings lib env templateId values w = .ok w') :
    Agrees w' := by
  unfold RunStore.createRunFromDeclarativeTemplate at h
  split at h
  · cases h
  · split at h
    · cases h
    · obtain ⟨request, -, h⟩ := bind_eq_ok.mp h
      exact hagrees.createRun hfresh h

theorem onStore_eq_ok {result : Except ScheduleService.Error Unit × Store}
    (h : onStore result w = .ok w') : ∃ store, result = (.ok (), store) ∧
      w' = { w with store := store } := by
  obtain ⟨outcome, store⟩ := result
  cases outcome with
  | error cause => cases h
  | ok _ => exact ⟨store, rfl, (Except.ok.inj h).symm⟩

/-- A saved row shows the request it was saved from. -/
theorem inputs_of_rowSaved {cron : CronLibrary} {base : ScheduledRunBase}
    {runRequest : CreateRunRequest} {row saved : ScheduledRun} {stamp now : Instant} {enabled : Bool}
    (h : ScheduleService.RowSaved cron (ScheduleService.applyRequest base runRequest row) stamp now
      enabled saved) : saved.inputs = (RunInputPayload.fromCreateRequest runRequest).masked := by
  cases h <;> rfl

theorem Agrees.createSchedule (hagrees : Agrees w) {env : CallEnv} {scheduleId : Option Uuid}
    {request : CreateScheduledRunRequest} (hrun : w.runs.lookup (scheduleId.getD env.newId) = none)
    (h : onStore (ScheduleService.createSchedule settings lib.cron lib.adapter env scheduleId request
      w.store) w = .ok w') : Agrees w' := by
  obtain ⟨store, hcall, rfl⟩ := onStore_eq_ok h
  unfold ScheduleService.createSchedule at hcall
  split at hcall
  · cases hcall
  · obtain ⟨-, -, -, saved, hsaved, rfl⟩ := ScheduleService.storeThenSave_eq_ok.mp hcall
    obtain ⟨blank, -, hrow⟩ := ScheduleService.createRow_saved hsaved
    exact hagrees.saveSchedule hrun (inputs_of_rowSaved hrow)

theorem Agrees.updateSchedule (hagrees : Agrees w) {env : CallEnv} {scheduleId : Uuid}
    {request : UpdateScheduledRunRequest}
    (h : RunStore.updateSchedule settings lib env scheduleId request w = .ok w') : Agrees w' := by
  obtain ⟨store, hcall, rfl⟩ := onStore_eq_ok h
  unfold ScheduleService.updateSchedule at hcall
  split at hcall
  · cases hcall
  · next row runRequest hprepared =>
    obtain ⟨-, hrow, -⟩ := ScheduleService.prepareUpdate_eq_ok.mp hprepared
    obtain ⟨-, -, -, saved, hsaved, rfl⟩ := ScheduleService.storeThenSave_eq_ok.mp hcall
    exact hagrees.saveSchedule (hagrees.not_run hrow)
      (inputs_of_rowSaved (ScheduleService.updateRow_saved hsaved))

/-- The fired run has the inputs of the payload; the row of the schedule keeps its own. -/
theorem Agrees.fire (hagrees : Agrees w) {env : RunEnv} {scheduleId : Uuid}
    (hfresh : Fresh w env.newId) (h : RunStore.fire settings env scheduleId w = .ok w') :
    Agrees w' := by
  unfold RunStore.fire at h
  split at h
  · cases h
  · next row hrow =>
    split at h
    · cases h
    · obtain ⟨fired, hfired, h⟩ := bind_eq_ok.mp h
      obtain rfl := Except.ok.inj h
      have hcurrent : fired.store.session.schedules.lookup scheduleId = some row := by
        obtain ⟨profile, -, rfl⟩ := createRun_eq_ok hfired
        exact hrow
      exact (hagrees.createRun hfresh hfired).putSchedule hcurrent rfl

theorem Agrees.upsertSchedule (hagrees : Agrees w) {env : CallEnv}
    {request : ImportScheduledRunRequest} (hfresh : NewIdFresh w (.upsertSchedule env request))
    (hspares : SparesRuns w (.upsertSchedule env request))
    (h : RunStore.upsertSchedule settings lib env request w = .ok w') : Agrees w' := by
  unfold RunStore.upsertSchedule at h
  split at h
  · split at h
    · cases h
    · exact hagrees.updateSchedule h
  · split at h
    · cases h
    · refine hagrees.createSchedule ?_ h
      cases hid : request.id with
      | none => exact (hfresh env.newId (by simp [newId, hid])).1
      | some id => exact hspares id hid

/-- What one call keeps. -/
theorem Agrees.serve (hagrees : Agrees w) {call : Call} (hfresh : NewIdFresh w call)
    (hspares : SparesRuns w call) (h : RunStore.serve settings lib w call = some w') :
    Agrees w' := by
  cases call with
  | createRun env request => exact hagrees.createRun (hfresh _ rfl) (toOption_eq_some.mp h)
  | retryRun env runId request => exact hagrees.retryRun (hfresh _ rfl) (toOption_eq_some.mp h)
  | createRunFromSimpleTemplate env templateId request =>
      exact hagrees.createRunFromSimpleTemplate (hfresh _ rfl) (toOption_eq_some.mp h)
  | createRunFromDeclarativeTemplate env templateId values =>
      exact hagrees.createRunFromDeclarativeTemplate (hfresh _ rfl) (toOption_eq_some.mp h)
  | createSchedule env request =>
      have hrun : w.runs.lookup ((none : Option Uuid).getD env.newId) = none := (hfresh _ rfl).1
      exact hagrees.createSchedule hrun (toOption_eq_some.mp h)
  | updateSchedule env scheduleId request => exact hagrees.updateSchedule (toOption_eq_some.mp h)
  | fire env scheduleId => exact hagrees.fire (hfresh _ rfl) (toOption_eq_some.mp h)
  | upsertSchedule env request =>
      exact hagrees.upsertSchedule hfresh hspares (toOption_eq_some.mp h)
  | upsertOthers profiles templates =>
      obtain rfl := Option.some.inj h
      exact hagrees.upsertOthers profiles templates
  | trackRun runId run => exact hagrees.trackRun h
  | trackSchedule scheduleId row => exact hagrees.trackSchedule h

end Changes

/-! ### Retry chains -/

/-- `id` is a retry of a retry … of `root`, which is no retry itself. -/
inductive RetryChain (w : RunStore) (root : Uuid) : Uuid → Prop where
  | root {run} (hrun : w.runs.lookup root = some run) (hroot : run.retryOfRunId = none) :
      RetryChain w root root
  | retry {parentId id run} (hparent : RetryChain w root parentId)
      (hrun : w.runs.lookup id = some run) (hretry : run.retryOfRunId = some parentId) :
      RetryChain w root id

/-- The runs of a chain show and hold what the root run shows and holds, the real secure values
included. -/
def ChainAgrees (w : RunStore) (root id : Uuid) : Prop :=
  ∃ rootRun run rootPayload payload, w.runs.lookup root = some rootRun ∧
    w.runs.lookup id = some run ∧ w.store.inputs.lookup root = some rootPayload ∧
    w.store.inputs.lookup id = some payload ∧ run.inputs = rootRun.inputs ∧
    payload.real = rootPayload.real

theorem masked_congr {payload payload' : RunInputPayload} (h : payload.real = payload'.real) :
    payload.masked = payload'.masked := by
  have hfields := Inputs.mk.inj h
  simp [RunInputPayload.masked, hfields]

/-- By induction on the chain: a retry has what its parent has. -/
theorem Agrees.chain {w : RunStore} (hagrees : Agrees w) {root id : Uuid}
    (hchain : RetryChain w root id) : ChainAgrees w root id := by
  induction hchain with
  | root hrun hroot =>
      obtain ⟨payload, hpayload, -⟩ := hagrees.run _ _ hrun
      exact ⟨_, _, payload, payload, hrun, hrun, hpayload, hpayload, rfl, rfl⟩
  | retry hparent hrun hretry ih =>
      obtain ⟨rootRun, parentRun, rootPayload, parentPayload, hroot, hparentRun, hrootPayload,
        hparentPayload, hinputs, hreal⟩ := ih
      obtain ⟨_, payload, _, -, hpayload, hof, hsame⟩ := hagrees.parent _ _ _ hrun hretry
      obtain rfl := Option.some.inj (hparentPayload.symm.trans hof)
      obtain ⟨own, hown, hshown, -⟩ := hagrees.run _ _ hrun
      obtain rfl := Option.some.inj (hpayload.symm.trans hown)
      obtain ⟨held, hheld, hrootShown, -⟩ := hagrees.run _ _ hroot
      obtain rfl := Option.some.inj (hrootPayload.symm.trans hheld)
      have hsecret : payload.real = rootPayload.real := hsame.trans hreal
      refine ⟨rootRun, _, rootPayload, payload, hroot, hrun, hrootPayload, hpayload, ?_, hsecret⟩
      calc _ = payload.masked := hshown
        _ = rootPayload.masked := masked_congr hsecret
        _ = rootRun.inputs := hrootShown.symm

/-- A server on which nothing has run yet. -/
structure Start (w : RunStore) : Prop where
  runs : w.runs = ∅
  schedules : w.store.session.schedules = ∅

theorem Start.agrees {w : RunStore} (h : Start w) : Agrees w := by
  have hno : ∀ id run, w.runs.lookup id ≠ some run := by
    intro id run hrun
    rw [h.runs] at hrun
    cases hrun
  refine ⟨fun id run hrun => absurd hrun (hno id run), ?_, fun id run hrun => absurd hrun (hno id run),
    fun id run _ hrun => absurd hrun (hno id run)⟩
  intro id row hrow
  rw [h.schedules] at hrow
  cases hrow

variable (settings : Settings) (lib : CallLibrary)

/-- In every history whose calls import no schedule under the id of a run, every row agrees with its
stored payload, and every retry with the root of its chain. -/
theorem rows_agree {start w : RunStore} {calls : List Call} (hstart : Start start)
    (hcalls : (system settings lib).Meets
      (fun w call => NewIdFresh w call ∧ SparesRuns w call) start calls)
    (hexec : (system settings lib).exec start calls = some w) :
    (∀ id run, w.runs.lookup id = some run → ∃ payload, w.store.inputs.lookup id = some payload ∧
      run.inputs = payload.masked ∧ run.retryVars = payload.retryVars) ∧
    (∀ id row, w.store.session.schedules.lookup id = some row →
      ∃ payload, w.store.inputs.lookup id = some payload ∧ row.inputs = payload.masked) ∧
    ∀ root id, RetryChain w root id → ChainAgrees w root id := by
  have hagrees : Agrees w := System.exec_invariant
    (fun hagrees hok hstep => hagrees.serve hok.1 hok.2 hstep) hstart.agrees hcalls hexec
  exact ⟨hagrees.run, hagrees.schedule, fun root id hchain => hagrees.chain hchain⟩

instance decidableFresh (w : RunStore) (id : Uuid) : Decidable (Fresh w id) :=
  inferInstanceAs (Decidable (_ ∧ _))

instance decidableForallNew {p : Uuid → Prop} [DecidablePred p] (id : Option Uuid) :
    Decidable (∀ i, id = some i → p i) :=
  match id with
  | none => isTrue nofun
  | some i => decidable_of_iff (p i) ⟨fun h _ heq => Option.some.inj heq ▸ h, fun h => h i rfl⟩

instance decidableNewIdFresh (w : RunStore) (call : Call) : Decidable (NewIdFresh w call) :=
  inferInstanceAs (Decidable (∀ id, newId call = some id → Fresh w id))

instance decidableSparesRuns (w : RunStore) : (call : Call) → Decidable (SparesRuns w call)
  | .upsertSchedule _ request =>
      inferInstanceAs (Decidable (∀ id, request.id = some id → w.runs.lookup id = none))
  | .createRun .. | .retryRun .. | .createRunFromSimpleTemplate ..
  | .createRunFromDeclarativeTemplate .. | .createSchedule .. | .updateSchedule .. | .fire ..
  | .upsertOthers .. | .trackRun .. | .trackSchedule .. => isTrue trivial

def secretRequest : CreateRunRequest :=
  { pipelineData := "stages: []".toList, pipelineVarsSecure := some "TOKEN=s".toList }

/-- The row of run 1 after its Job has failed and the state has been uploaded. -/
def failedRun : Run :=
  { RunService.createRun {} 1 secretRequest
      { pdeImage := "pde:1".toList, envVars := [], resources := [], createdAt := 0, updatedAt := 0 }
      none 0 with
    status := .failed
    stateLocation := some (RunService.jobName 1) }

def retriedHistory : List Call :=
  [.createRun (sampleRunEnv 1) secretRequest, .trackRun 1 failedRun,
    .retryRun (sampleRunEnv 2) 1 (some { retryVars := some "STAGE=deploy".toList })]

theorem rows_agree_retried :
    ∃ w, (system {} sampleCalls).exec sampleStart retriedHistory = some w ∧
      RetryChain w 1 2 ∧ ChainAgrees w 1 2 := by
  obtain ⟨w, hexec⟩ : ∃ w, (system {} sampleCalls).exec sampleStart retriedHistory = some w :=
    Option.isSome_iff_exists.mp (by decide)
  have hcalls : (system {} sampleCalls).Meets (fun w call => NewIdFresh w call ∧ SparesRuns w call)
      sampleStart retriedHistory := by decide
  have hof : ((system {} sampleCalls).exec sampleStart retriedHistory).map (fun w =>
      ((w.runs.lookup 1).map Run.retryOfRunId, (w.runs.lookup 2).map Run.retryOfRunId)) =
      some (some none, some (some 1)) := by decide
  rw [hexec, Option.map_some, Option.some.injEq, Prod.mk.injEq, Option.map_eq_some_iff,
    Option.map_eq_some_iff] at hof
  obtain ⟨⟨root, hroot, hrootOf⟩, retried, hretried, hretriedOf⟩ := hof
  have hchain : RetryChain w 1 2 := .retry (.root hroot hrootOf) hretried hretriedOf
  exact ⟨w, hexec, hchain, (rows_agree {} sampleCalls ⟨rfl, rfl⟩ hcalls hexec).2.2 1 2 hchain⟩

/-- A schedule document under the id of run 1, with other inputs. -/
def importedUnderRun : ImportScheduledRunRequest where
  name := "nightly".toList
  cronExpression := "* * * * *".toList
  pipelineData := "stages: [deploy]".toList
  id := some 1

/-- The import replaces the payload of the run, and its row keeps the old inputs. -/
theorem import_replaces_payload :
    Start sampleStart ∧
    (system {} sampleCalls).Meets NewIdFresh sampleStart
      [.createRun (sampleRunEnv 1) secretRequest, .upsertSchedule quietEnv importedUnderRun] ∧
    ∃ w run payload, (system {} sampleCalls).exec sampleStart
      [.createRun (sampleRunEnv 1) secretRequest, .upsertSchedule quietEnv importedUnderRun] = some w ∧
      w.runs.lookup 1 = some run ∧ w.store.inputs.lookup 1 = some payload ∧
      run.inputs.pipelineData ≠ payload.pipelineData ∧
      run.inputs.pipelineVarsSecure ≠ payload.masked.pipelineVarsSecure := by
  refine ⟨⟨rfl, rfl⟩, by decide, ?_⟩
  refine ⟨_, _, _, rfl, rfl, rfl, by decide, by decide⟩

end RunStore
end PdeOperator
