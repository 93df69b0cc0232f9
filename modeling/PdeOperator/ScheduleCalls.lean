import PdeOperator.ConfigImportAtomic
import PdeOperator.ScheduleClaim
import PdeOperator.ScheduleSecrets
import PdeOperator.ScheduleTick

/-! The calls that write schedule rows, one at a time, each in a session of its own: an exception
drops what the call has not committed. Between them a row is enabled exactly if it has an anchor, and
the anchor belongs to its own cron expression and time zone. -/

namespace PdeOperator
open Base

namespace ScheduleService

section Calls

variable (settings : Settings) (cron : CronLibrary) (env : CallEnv) (scheduleId : Uuid) (s : Store)

/-- The switch is set in the session before the anchor is computed; if that raises, nothing has been
committed. -/
def setEnabled (enabled : Bool) : Except Error Unit × Store :=
  if env.fails .getSchedule then (.error .database, s)
  else
    match s.session.schedules.lookup scheduleId with
    | none => (.error (.scheduleNotFound scheduleId), s)
    | some row =>
        if row.enabled == enabled then (.ok (), s)
        else saveRow env scheduleId (setEnabledRow cron enabled env.stampedAt env.anchoredAt row) s

def deleteSchedule : Except Error Unit × Store :=
  if env.fails .getSchedule then (.error .database, s)
  else if (s.session.schedules.lookup scheduleId).isNone then
    (.error (.scheduleNotFound scheduleId), s)
  else if env.fails (.deleteInput scheduleId) then (.error (.inputStorage scheduleId), s)
  else
    let deleted : Store :=
      { s with
        session := { s.session with schedules := s.session.schedules.erase scheduleId }
        inputs := s.inputs.erase scheduleId }
    if env.fails .commit then (.error .database, deleted) else (.ok (), deleted.commit)

/-- What `trigger_now` records on the row; `none` when it raises. -/
def recordedByTrigger (now : Instant) (calls : ScheduleDispatcher.FireCalls) (row : ScheduledRun) :
    Option ScheduledRun :=
  match ScheduleDispatcher.fire settings scheduleId row calls with
  | (.error _, _) => none
  | (.ok (runId, _), session) =>
      (ScheduleDispatcher.recordFire session calls
        (applyFireResult now .success (some runId) none row)).1

end Calls

end ScheduleService

namespace Store

variable (s : Store)

/-- A row that is written and committed, if there is one. -/
def recordRow (scheduleId : Uuid) : Option ScheduledRun → Store
  | none => s
  | some row => (s.putSchedule scheduleId row).commit

end Store

/-- The calls that write schedule rows. A claim sees the runs of its moment. -/
inductive RowCall where
  | createSchedule (env : CallEnv) (request : CreateScheduledRunRequest)
  | updateSchedule (env : CallEnv) (scheduleId : Uuid) (request : UpdateScheduledRunRequest)
  | setEnabled (env : CallEnv) (scheduleId : Uuid) (enabled : Bool)
  | deleteSchedule (env : CallEnv) (scheduleId : Uuid)
  | triggerNow (now : Instant) (scheduleId : Uuid) (calls : ScheduleDispatcher.FireCalls)
  | claimDue (now : Instant) (runs : Table Uuid Run)
  | fireSchedule (now : Instant) (scheduleId : Uuid) (calls : ScheduleDispatcher.FireCalls)
  | importConfig (env : ConfigImport.Env) (yamlText : Text) (mode : ConfigImport.Mode)

/-- The code around the calls. -/
structure ScheduleLibrary where
  cron : CronLibrary
  adapter : RunTemplate → JsonObject → Except ScheduleService.Error CreateRunRequest
  config : ConfigImport.Library
  /-- `str(exc)` of an exception of `fire` -/
  messageOf : ScheduleDispatcher.FireError → Text

namespace RowCall

variable (settings : Settings) (lib : ScheduleLibrary)

/-- What a call leaves behind, whether it raises or not, in its own session. -/
def run (s : Store) : RowCall → Store
  | .createSchedule env request =>
      (ScheduleService.createSchedule settings lib.cron lib.adapter env none request s).2
  | .updateSchedule env scheduleId request =>
      (ScheduleService.updateSchedule settings lib.cron env scheduleId request s).2
  | .setEnabled env scheduleId enabled =>
      (ScheduleService.setEnabled lib.cron env scheduleId s enabled).2
  | .deleteSchedule env scheduleId => (ScheduleService.deleteSchedule env scheduleId s).2
  | .triggerNow now scheduleId calls =>
      s.recordRow scheduleId ((s.session.schedules.lookup scheduleId).bind
        (ScheduleService.recordedByTrigger settings scheduleId now calls))
  | .claimDue now runs =>
      { s with session := { s.session with
          schedules := (ScheduleDispatcher.claimDue settings lib.cron now runs
            s.session.schedules).schedules } }.commit
  | .fireSchedule now scheduleId calls =>
      s.recordRow scheduleId (ScheduleDispatcher.fireSchedule settings lib.messageOf now scheduleId
        { calls with getSchedule := some (s.session.schedules.lookup scheduleId) }).recorded
  | .importConfig env yamlText mode =>
      (ConfigImport.importConfigFromYaml lib.config settings lib.cron lib.adapter env yamlText mode s).2

end RowCall

/-- The calls one after the other. -/
def scheduleSystem (settings : Settings) (lib : ScheduleLibrary) : System Store RowCall where
  step s call := some (call.run settings lib s.reopen)

/-- A server without schedules. -/
def Store.withoutSchedules (profiles : Table Text Profile) (templates : Table Uuid RunTemplate)
    (inputs : Table Uuid RunInputPayload) : Store where
  committed := { profiles, templates, schedules := ∅ }
  session := { profiles, templates, schedules := ∅ }
  inputs := inputs

/-- The row is enabled exactly if it has an anchor, and the anchor of an enabled row is the next
occurrence of its cron expression in its time zone after some instant. -/
structure RowAnchored (cron : CronLibrary) (row : ScheduledRun) : Prop where
  enabled_iff : row.enabled = true ↔ row.nextFireAt.isSome = true
  anchor : row.enabled = true → ∃ base next, row.nextFireAt = some next ∧
    CronUtils.nextFireTime cron row.cronExpression row.timezone base = .ok next

namespace RowAnchored

variable {settings : Settings} {cron : CronLibrary} {row row' : ScheduledRun} {now stamp : Instant}

theorem of_disabled (henabled : row.enabled = false) (hanchor : row.nextFireAt = none) :
    RowAnchored cron row := by
  constructor
  · simp [henabled, hanchor]
  · simp [henabled]

theorem of_anchored {base next : Instant} (henabled : row.enabled = true)
    (hanchor : row.nextFireAt = some next)
    (hnext : CronUtils.nextFireTime cron row.cronExpression row.timezone base = .ok next) :
    RowAnchored cron row := by
  constructor
  · simp [henabled, hanchor]
  · exact fun _ => ⟨base, next, hanchor, hnext⟩

/-- The invariant is about four columns. -/
theorem congr (h : RowAnchored cron row) (henabled : row'.enabled = row.enabled)
    (hanchor : row'.nextFireAt = row.nextFireAt) (hcron : row'.cronExpression = row.cronExpression)
    (hzone : row'.timezone = row.timezone) : RowAnchored cron row' := by
  constructor
  · rw [henabled, hanchor]
    exact h.enabled_iff
  · rw [henabled, hanchor, hcron, hzone]
    exact h.anchor

theorem nextFireAt_eq_ok {expression timezone : Text} {next : Instant}
    (h : ScheduleService.nextFireAt cron expression timezone now = .ok next) :
    CronUtils.nextFireTime cron expression timezone now = .ok next := mapError_eq_ok.mp h

theorem createRow {request : CreateScheduledRunRequest} {runRequest : CreateRunRequest}
    (h : ScheduleService.createRow cron request runRequest stamp now = .ok row) :
    RowAnchored cron row := by
  unfold ScheduleService.createRow at h
  dsimp only at h
  cases henabled : request.enabled with
  | false =>
      rw [henabled] at h
      cases h
      exact of_disabled rfl rfl
  | true =>
      rw [henabled, if_pos rfl] at h
      obtain ⟨anchor, hanchor, hrow⟩ := bind_eq_ok.mp h
      obtain ⟨next, hnext, rfl⟩ := map_eq_ok.mp hanchor
      cases hrow
      exact of_anchored rfl rfl (nextFireAt_eq_ok hnext)

/-- An update computes the anchor anew unless the row is enabled and keeps its expression and zone. -/
theorem updateRow {request : UpdateScheduledRunRequest} {runRequest : CreateRunRequest}
    (hrow : RowAnchored cron row)
    (h : ScheduleService.updateRow cron request runRequest stamp now row = .ok row') :
    RowAnchored cron row' := by
  unfold ScheduleService.updateRow at h
  dsimp only at h
  split at h
  · cases h
    exact of_disabled rfl rfl
  · split at h
    · obtain ⟨next, hnext, hsaved⟩ := bind_eq_ok.mp h
      cases hsaved
      exact of_anchored rfl rfl (nextFireAt_eq_ok hnext)
    · next hkept =>
      simp only [Bool.or_eq_true, not_or, Bool.not_eq_true, Bool.not_eq_false',
        bne_eq_false_iff_eq] at hkept
      obtain ⟨⟨henabled, hcron, hzone⟩, -⟩ := hkept
      cases h
      exact hrow.congr henabled.symm rfl hcron.symm hzone.symm

theorem setEnabledRow {enabled : Bool} (hrow : RowAnchored cron row)
    (h : ScheduleService.setEnabledRow cron enabled stamp now row = .ok row') :
    RowAnchored cron row' := by
  unfold ScheduleService.setEnabledRow at h
  split at h
  · cases h
    exact hrow
  · split at h
    · obtain ⟨next, hnext, hsaved⟩ := bind_eq_ok.mp h
      cases hsaved
      exact of_anchored rfl rfl (nextFireAt_eq_ok hnext)
    · cases h
      exact of_disabled rfl rfl

theorem applyFireResult {status : FireStatus} {runId : Option Uuid} {error : Option Text}
    (hrow : RowAnchored cron row) :
    RowAnchored cron (ScheduleService.applyFireResult now status runId error row) :=
  hrow.congr rfl rfl rfl rfl

/-- A claim disables the row or anchors it anew; a claimed row is enabled. -/
theorem claimRow {active : Bool} (henabled : row.enabled = true) :
    RowAnchored cron (ScheduleDispatcher.claimRow settings cron now active row).1 := by
  unfold ScheduleDispatcher.claimRow
  cases hnext : CronUtils.nextFireTime cron row.cronExpression row.timezone now with
  | error cause => exact of_disabled rfl rfl
  | ok next =>
      have hanchored : RowAnchored cron { row with nextFireAt := some next } :=
        of_anchored henabled rfl hnext
      cases row.nextFireAt with
      | none => exact hanchored
      | some planned =>
          dsimp only
          split
          · exact hanchored.applyFireResult
          · split
            · exact hanchored.applyFireResult
            · exact hanchored

end RowAnchored

variable {settings : Settings} {lib : ScheduleLibrary} {cron : CronLibrary}

variable (cron) in
def TableAnchored (schedules : Table Uuid ScheduledRun) : Prop :=
  ∀ id row, schedules.lookup id = some row → RowAnchored cron row

namespace TableAnchored

variable {schedules : Table Uuid ScheduledRun} {id : Uuid} {row : ScheduledRun}

theorem empty : TableAnchored cron ∅ := by
  intro id row hrow
  rw [AList.lookup_empty] at hrow
  cases hrow

theorem insert (h : TableAnchored cron schedules) (hrow : RowAnchored cron row) :
    TableAnchored cron (schedules.insert id row) := by
  intro key current hcurrent
  by_cases hkey : key = id
  · rw [hkey, AList.lookup_insert, Option.some.injEq] at hcurrent
    exact hcurrent ▸ hrow
  · rw [AList.lookup_insert_ne hkey] at hcurrent
    exact h key current hcurrent

theorem erase (h : TableAnchored cron schedules) : TableAnchored cron (schedules.erase id) := by
  intro key current hcurrent
  by_cases hkey : key = id
  · rw [hkey, AList.lookup_erase] at hcurrent
    cases hcurrent
  · rw [AList.lookup_erase_ne hkey] at hcurrent
    exact h key current hcurrent

theorem claimDue {now : Instant} {runs : Table Uuid Run} (h : TableAnchored cron schedules) :
    TableAnchored cron (ScheduleDispatcher.claimDue settings cron now runs schedules).schedules := by
  intro id row hrow
  rcases ScheduleDispatcher.lookup_claimedTable_cases
    (ScheduleDispatcher.nodup_selectDue settings schedules (fun _ => false) now) id with
    ⟨-, hsame⟩ | ⟨old, hmem, hclaimed⟩
  · exact h id row (hsame.symm.trans hrow)
  · obtain rfl := Option.some.inj (hclaimed.symm.trans hrow)
    have hdue := (ScheduleDispatcher.mem_selectDue hmem).2.1
    rw [ScheduleDispatcher.isDue, Bool.and_eq_true] at hdue
    exact RowAnchored.claimRow hdue.1

end TableAnchored

variable (cron) in
/-- What is committed and what the session sees. -/
structure StoreAnchored (s : Store) : Prop where
  committed : TableAnchored cron s.committed.schedules
  session : TableAnchored cron s.session.schedules

namespace StoreAnchored

variable {s : Store} {id : Uuid} {row : ScheduledRun}

theorem reopen (h : StoreAnchored cron s) : StoreAnchored cron s.reopen := ⟨h.committed, h.committed⟩

theorem commit (h : StoreAnchored cron s) : StoreAnchored cron s.commit := ⟨h.session, h.session⟩

theorem putSchedule (h : StoreAnchored cron s) (hrow : RowAnchored cron row) :
    StoreAnchored cron (s.putSchedule id row) := ⟨h.committed, h.session.insert hrow⟩

theorem storeInput {payload : RunInputPayload} (h : StoreAnchored cron s) :
    StoreAnchored cron (s.storeInput id payload) := ⟨h.committed, h.session⟩

theorem recordRow {recorded : Option ScheduledRun} (h : StoreAnchored cron s)
    (hrow : ∀ row, recorded = some row → RowAnchored cron row) :
    StoreAnchored cron (s.recordRow id recorded) := by
  cases recorded with
  | none => exact h
  | some row => exact (h.putSchedule (hrow row rfl)).commit

theorem storeThenSave {env : CallEnv} {runRequest : CreateRunRequest}
    {saved : Except ScheduleService.Error ScheduledRun} (h : StoreAnchored cron s)
    (hrow : ∀ row, saved = .ok row → RowAnchored cron row) :
    StoreAnchored cron (ScheduleService.storeThenSave env id runRequest saved s).2 := by
  generalize hresult : ScheduleService.storeThenSave env id runRequest saved s = result
  cases ScheduleService.saveOutcome hresult with
  | notStored => exact h
  | noRow => exact h.storeInput
  | notCommitted _ hsaved _ => exact h.storeInput.putSchedule (hrow _ hsaved)
  | committed _ _ hsaved _ => exact (h.storeInput.putSchedule (hrow _ hsaved)).commit

theorem createSchedule {env : CallEnv} {scheduleId : Option Uuid} {request : CreateScheduledRunRequest}
    {adapter : RunTemplate → JsonObject → Except ScheduleService.Error CreateRunRequest}
    (h : StoreAnchored cron s) : StoreAnchored cron
      (ScheduleService.createSchedule settings cron adapter env scheduleId request s).2 := by
  unfold ScheduleService.createSchedule
  split
  · exact h
  · exact h.storeThenSave fun row hrow => RowAnchored.createRow hrow

theorem updateSchedule {env : CallEnv} {request : UpdateScheduledRunRequest}
    (h : StoreAnchored cron s) :
    StoreAnchored cron (ScheduleService.updateSchedule settings cron env id request s).2 := by
  unfold ScheduleService.updateSchedule
  split
  · exact h
  · next old runRequest hprepare =>
    obtain ⟨-, hold, -⟩ := ScheduleService.prepareUpdate_eq_ok.mp hprepare
    exact h.storeThenSave fun row hrow => (h.session id old hold).updateRow hrow

theorem setEnabled {env : CallEnv} {enabled : Bool} (h : StoreAnchored cron s) :
    StoreAnchored cron (ScheduleService.setEnabled cron env id s enabled).2 := by
  unfold ScheduleService.setEnabled
  split
  · exact h
  · split
    · exact h
    · next old hold =>
      split
      · exact h
      · unfold ScheduleService.saveRow
        split
        · exact h
        · next row hrow =>
          have hput := @putSchedule _ _ id _ h ((h.session id old hold).setEnabledRow hrow)
          split
          · exact hput
          · split
            · exact hput.commit
            · exact hput.commit

theorem deleteSchedule {env : CallEnv} (h : StoreAnchored cron s) :
    StoreAnchored cron (ScheduleService.deleteSchedule env id s).2 := by
  unfold ScheduleService.deleteSchedule
  split
  · exact h
  · split
    · exact h
    · split
      · exact h
      · have hdeleted : StoreAnchored cron { s with
            session := { s.session with schedules := s.session.schedules.erase id }
            inputs := s.inputs.erase id } := ⟨h.committed, h.session.erase⟩
        dsimp only
        split
        · exact hdeleted
        · exact hdeleted.commit

/-- Whatever a fire records, it records with `apply_fire_result`. -/
theorem recordFire {session : ScheduleDispatcher.SessionState} {calls : ScheduleDispatcher.FireCalls}
    {work : ScheduledRun} (hwork : RowAnchored cron work)
    (h : (ScheduleDispatcher.recordFire session calls work).1 = some row) : RowAnchored cron row := by
  unfold ScheduleDispatcher.recordFire at h
  split at h
  · cases h
  · exact Option.some.inj h ▸ hwork

theorem triggerNow {now : Instant} {calls : ScheduleDispatcher.FireCalls} (h : StoreAnchored cron s) :
    StoreAnchored cron (s.recordRow id ((s.session.schedules.lookup id).bind
      (ScheduleService.recordedByTrigger settings id now calls))) := by
  apply h.recordRow
  intro row hrow
  obtain ⟨old, hold, hrecorded⟩ := Option.bind_eq_some_iff.mp hrow
  unfold ScheduleService.recordedByTrigger at hrecorded
  split at hrecorded
  · cases hrecorded
  · exact recordFire (h.session id old hold).applyFireResult hrecorded

theorem fireSchedule {now : Instant} {calls : ScheduleDispatcher.FireCalls}
    {messageOf : ScheduleDispatcher.FireError → Text} (h : StoreAnchored cron s) :
    StoreAnchored cron (s.recordRow id (ScheduleDispatcher.fireSchedule settings messageOf now id
      { calls with getSchedule := some (s.session.schedules.lookup id) }).recorded) := by
  apply h.recordRow
  intro row hrow
  unfold ScheduleDispatcher.fireSchedule at hrow
  dsimp only at hrow
  cases hold : s.session.schedules.lookup id with
  | none =>
      rw [hold] at hrow
      cases hrow
  | some old =>
      rw [hold] at hrow
      dsimp only at hrow
      split at hrow
      · exact recordFire (h.session id old hold).applyFireResult hrow
      · exact recordFire (h.session id old hold).applyFireResult hrow

theorem upsertSchedule {env : ConfigImport.Env} {position : Nat} {request : ImportScheduledRunRequest}
    {adapter : RunTemplate → JsonObject → Except ScheduleService.Error CreateRunRequest} :
    Program.Keeps (ConfigImport.upsertSchedule settings cron adapter env position request)
      (StoreAnchored cron) := by
  refine Program.Keeps.bind (Program.keeps_check _ _) fun _ => ?_
  intro s h
  rw [Program.read_bind]
  cases ConfigImport.existingId s request with
  | some id =>
      dsimp only
      rw [Program.ofExcept_bind]
      split
      · exact h
      · exact h.updateSchedule
  | none =>
      dsimp only
      rw [Program.ofExcept_bind]
      split
      · exact h
      · exact h.createSchedule

theorem deleteAllSchedules {env : CallEnv} (h : StoreAnchored cron s) :
    StoreAnchored cron (ScheduleService.deleteAllSchedules env s).2 := by
  unfold ScheduleService.deleteAllSchedules
  split
  · exact h
  · split
    · exact h
    · split
      · exact h
      · dsimp only
        split
        · exact ⟨h.committed, .empty⟩
        · exact ⟨.empty, .empty⟩

/-- A change of the session that leaves the schedules alone. -/
theorem inSession {f : Database → Database} (hf : ∀ db, (f db).schedules = db.schedules) :
    Program.Keeps (ConfigImport.inSession f) (StoreAnchored cron) :=
  fun s h => ⟨h.committed, (hf s.session).symm ▸ h.session⟩

theorem importConfig {library : ConfigImport.Library} {env : ConfigImport.Env}
    {adapter : RunTemplate → JsonObject → Except ScheduleService.Error CreateRunRequest}
    {yamlText : Text} {mode : ConfigImport.Mode} :
    Program.Keeps (ConfigImport.importConfigFromYaml library settings cron adapter env yamlText mode)
      (StoreAnchored cron) := by
  have hpurge : Program.Keeps (ConfigImport.purge env) (StoreAnchored cron) := by
    refine Program.Keeps.bind (Program.keeps_check _ _) fun _ => ?_
    refine Program.Keeps.bind (inSession fun _ => rfl) fun _ => ?_
    refine Program.Keeps.bind (Program.keeps_check _ _) fun _ => ?_
    refine Program.Keeps.bind (inSession fun _ => rfl) fun _ => ?_
    exact fun s h => h.deleteAllSchedules
  have hrest : ∀ docs, Program.Keeps (do
      ConfigImport.stageDocuments env docs
      Program.forEach (ConfigImport.upsertSchedule settings cron adapter env) 0 docs.scheduledRuns
      ConfigImport.commit env) (StoreAnchored cron) := by
    intro docs
    have hstage : Program.Keeps (ConfigImport.stageDocuments env docs) (StoreAnchored cron) :=
      ConfigImport.keeps_stageDocuments (fun f hf => @inSession cron f hf) docs
    refine Program.Keeps.bind hstage fun _ => ?_
    refine Program.Keeps.bind (Program.keeps_forEach (fun _ _ => upsertSchedule) 0 _) fun _ => ?_
    exact Program.Keeps.bind (Program.keeps_check _ _) fun _ => Program.keeps_update fun _ h => h.commit
  intro s h
  rw [ConfigImport.importConfigFromYaml, Program.ofExcept_bind]
  split
  · exact h
  · next docs _ =>
    split
    · exact Program.Keeps.bind hpurge (fun _ => hrest docs) s h
    · exact hrest docs s h

theorem run (h : StoreAnchored lib.cron s) (call : RowCall) :
    StoreAnchored lib.cron (call.run settings lib s) := by
  cases call with
  | createSchedule env request => exact h.createSchedule
  | updateSchedule env scheduleId request => exact h.updateSchedule
  | setEnabled env scheduleId enabled => exact h.setEnabled
  | deleteSchedule env scheduleId => exact h.deleteSchedule
  | triggerNow now scheduleId calls => exact h.triggerNow
  | claimDue now runs =>
      have hsession : StoreAnchored lib.cron { s with session := { s.session with
          schedules := (ScheduleDispatcher.claimDue settings lib.cron now runs
            s.session.schedules).schedules } } := ⟨h.committed, h.session.claimDue⟩
      exact hsession.commit
  | fireSchedule now scheduleId calls => exact h.fireSchedule
  | importConfig env yamlText mode => exact importConfig s h

end StoreAnchored

/-- Every committed row is enabled exactly if it has an anchor of its own cron expression. -/
theorem rows_anchored {profiles : Table Text Profile} {templates : Table Uuid RunTemplate}
    {inputs : Table Uuid RunInputPayload} {calls : List RowCall} {s : Store}
    (hexec : (scheduleSystem settings lib).exec (.withoutSchedules profiles templates inputs) calls =
      some s) {id : Uuid} {row : ScheduledRun} (hrow : s.committed.schedules.lookup id = some row) :
    RowAnchored lib.cron row := by
  have hstart : StoreAnchored lib.cron (.withoutSchedules profiles templates inputs) :=
    ⟨.empty, .empty⟩
  have hstep : ∀ {s call s'}, StoreAnchored lib.cron s →
      (scheduleSystem settings lib).step s call = some s' → StoreAnchored lib.cron s' := by
    intro s call s' hinv hstep
    obtain rfl : call.run settings lib s.reopen = s' := Option.some.inj hstep
    exact hinv.reopen.run call
  exact (System.exec_invariant_of_forall hstep hstart hexec).committed id row hrow

/-- Libraries for one schedule document that is due every minute. -/
def minuteLibrary : ScheduleLibrary where
  cron := everyMinute
  adapter := noAdapter
  config := ConfigImport.scheduleLibrary [ConfigImport.goodDocument]
  messageOf _ := []

/-- The schedule is imported, claimed after its minute and renamed. -/
def minuteCalls : List RowCall :=
  [.importConfig ConfigImport.sampleEnv (ConfigImport.importText [ConfigImport.goodDocument]) .merge,
    .claimDue (seconds 61) ∅,
    .updateSchedule quietEnv 1
      { name := "minutely".toList, cronExpression := "* * * * *".toList
        pipelineData := "stages: []".toList }]

set_option maxRecDepth 4000 in
theorem rows_anchored_minute :
    ∃ s row, (scheduleSystem {} minuteLibrary).exec
        (.withoutSchedules sampleDatabase.profiles ∅ ∅) minuteCalls = some s ∧
      s.committed.schedules.lookup 1 = some row ∧ row.nextFireAt = some (seconds 120) ∧
      RowAnchored everyMinute row := by
  have hanchor : ((scheduleSystem {} minuteLibrary).exec
      (.withoutSchedules sampleDatabase.profiles ∅ ∅) minuteCalls).bind
        (fun s => (s.committed.schedules.lookup 1).map ScheduledRun.nextFireAt) =
      some (some (seconds 120)) := by
    decide
  obtain ⟨s, hexec, hanchor⟩ := Option.bind_eq_some_iff.mp hanchor
  obtain ⟨row, hrow, hanchor⟩ := Option.map_eq_some_iff.mp hanchor
  exact ⟨s, row, hexec, hrow, hanchor, rows_anchored hexec hrow⟩

end PdeOperator
