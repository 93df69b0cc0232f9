import PdeOperator.ScheduleService

/-! `ScheduleService.create_schedule`, `update_schedule` and `delete_all_schedules`, one call at a time:
the session with its open transaction, the committed database and the object store with the payloads.
Storage failures, clock readings and new ids come from the environment of the call. -/

namespace PdeOperator
open Base

structure RunTemplate where
  name : Text
  description : Option Text
  tags : List Text
  templateKind : Text
  profileId : Text
  pipelineData : Text
  pipelineVars : Option Text
  pipelineVarsSecure : Option Text
  isDryRun : Bool
  logLevel : Text
  envVars : Option JsonObject
  pdeImage : Option Text
  declarativeSpec : Option JsonObject
  createdAt : Instant
  updatedAt : Instant

structure Database where
  profiles : Table Text Profile
  templates : Table Uuid RunTemplate
  schedules : Table Uuid ScheduledRun

structure Store where
  committed : Database
  /-- What the session sees: the committed database with the changes of the open transaction. -/
  session : Database
  /-- The stored payloads of the schedules. -/
  inputs : Table Uuid RunInputPayload

/-- The session has no open changes. -/
def Store.AtRest (s : Store) : Prop := s.session = s.committed

/-- The calls to the database and to the object store that may fail. -/
inductive Access where
  | getSchedule | getTemplate | getProfile | loadInput | storeInput | commit | refresh
  | listSchedules | deleteRows | deleteInput (scheduleId : Uuid)
  deriving DecidableEq

/-- The environment of one call. -/
structure CallEnv where
  fails : Access → Bool
  /-- The clock at `_validate_cron`, at `updated_at` and at `_next_fire_at`. -/
  checkedAt : Instant
  stampedAt : Instant
  anchoredAt : Instant
  /-- `uuid4()` -/
  newId : Uuid

namespace ScheduleService

variable (settings : Settings) (cron : CronLibrary)
  (adapter : RunTemplate → JsonObject → Except Error CreateRunRequest)

/-- An access that raises when the environment makes it fail. -/
def attempt (env : CallEnv) (access : Access) (error : Error) : Except Error Unit :=
  if env.fails access then .error error else .ok ()

def ensureProfile (env : CallEnv) (db : Database) (profileId : Text) : Except Error Unit := do
  attempt env .getProfile .database
  if (db.profiles.lookup profileId).isSome then .ok () else .error (.profileNotFound profileId)

/-- The branch of `_resolve_run_request` for declarative values. -/
def declarativeRunRequest (env : CallEnv) (db : Database) (templateId : Uuid) (values : JsonObject) :
    Except Error CreateRunRequest := do
  attempt env .getTemplate .database
  match db.templates.lookup templateId with
  | none => .error (.template ("Run template '".toList ++ Uuid.str templateId ++ "' not found".toList))
  | some template =>
      if template.templateKind = "declarative".toList then adapter template values
      else .error (.template ("Run template '".toList ++ Uuid.str templateId ++ "' is kind '".toList ++
        template.templateKind ++ "', expected 'declarative' for this operation".toList))

/-- `create_schedule` up to the storing of the payload. -/
def prepareCreate (env : CallEnv) (db : Database) (request : CreateScheduledRunRequest) :
    Except Error CreateRunRequest := do
  validateCron settings cron request.cronExpression request.timezone env.checkedAt
  let runRequest ← resolveRunRequest (declarativeRunRequest adapter env db) request
  ensureProfile env db runRequest.profileId
  let secure ← (InputCrypto.mergeMaskedSecure runRequest.pipelineVarsSecure none).mapError Error.secure
  .ok { runRequest with pipelineVarsSecure := secure }

/-- `update_schedule` up to the storing of the payload. -/
def prepareUpdate (env : CallEnv) (s : Store) (scheduleId : Uuid)
    (request : UpdateScheduledRunRequest) : Except Error (ScheduledRun × CreateRunRequest) := do
  attempt env .getSchedule .database
  match s.session.schedules.lookup scheduleId with
  | none => .error (.scheduleNotFound scheduleId)
  | some row => do
      validateCron settings cron request.cronExpression request.timezone env.checkedAt
      ensureProfile env s.session request.profileId
      attempt env .loadInput (.inputStorage scheduleId)
      match s.inputs.lookup scheduleId with
      | none => .error (.inputNotAvailable scheduleId)
      | some current => do
          let merged ← (InputCrypto.mergeMaskedSecure request.pipelineVarsSecure
            current.pipelineVarsSecure).mapError Error.secure
          .ok (row, updateRunRequest request merged)

end ScheduleService

namespace Store

variable (s : Store)

/-- `RunInputStorage.store` -/
def storeInput (scheduleId : Uuid) (payload : RunInputPayload) : Store :=
  { s with inputs := s.inputs.insert scheduleId payload }

/-- A row added to the session or changed in it. -/
def putSchedule (scheduleId : Uuid) (row : ScheduledRun) : Store :=
  { s with session := { s.session with schedules := s.session.schedules.insert scheduleId row } }

def commit : Store := { s with committed := s.session }

@[simp] theorem storeInput_committed (id : Uuid) (payload : RunInputPayload) :
    (s.storeInput id payload).committed = s.committed := rfl
@[simp] theorem storeInput_session (id : Uuid) (payload : RunInputPayload) :
    (s.storeInput id payload).session = s.session := rfl
@[simp] theorem storeInput_inputs (id : Uuid) (payload : RunInputPayload) :
    (s.storeInput id payload).inputs = s.inputs.insert id payload := rfl
@[simp] theorem putSchedule_committed (id : Uuid) (row : ScheduledRun) :
    (s.putSchedule id row).committed = s.committed := rfl
@[simp] theorem putSchedule_inputs (id : Uuid) (row : ScheduledRun) :
    (s.putSchedule id row).inputs = s.inputs := rfl
@[simp] theorem putSchedule_schedules (id : Uuid) (row : ScheduledRun) :
    (s.putSchedule id row).session.schedules = s.session.schedules.insert id row := rfl
@[simp] theorem commit_committed : s.commit.committed = s.session := rfl
@[simp] theorem commit_session : s.commit.session = s.session := rfl
@[simp] theorem commit_inputs : s.commit.inputs = s.inputs := rfl

end Store

namespace ScheduleService

variable (settings : Settings) (cron : CronLibrary)
  (adapter : RunTemplate → JsonObject → Except Error CreateRunRequest)

/-- The end of both calls: the row is put into the session, committed and refreshed. -/
def saveRow (env : CallEnv) (scheduleId : Uuid) (row : Except Error ScheduledRun) (s : Store) :
    Except Error Unit × Store :=
  match row with
  | .error error => (.error error, s)
  | .ok row =>
      if env.fails .commit then (.error .database, s.putSchedule scheduleId row)
      else if env.fails .refresh then (.error .database, (s.putSchedule scheduleId row).commit)
      else (.ok (), (s.putSchedule scheduleId row).commit)

/-- The payload is stored before the row is saved. -/
def storeThenSave (env : CallEnv) (scheduleId : Uuid) (runRequest : CreateRunRequest)
    (row : Except Error ScheduledRun) (s : Store) : Except Error Unit × Store :=
  if env.fails .storeInput then (.error (.inputStorage scheduleId), s)
  else saveRow env scheduleId row
    (s.storeInput scheduleId (RunInputPayload.fromCreateRequest runRequest))

def createSchedule (env : CallEnv) (scheduleId : Option Uuid) (request : CreateScheduledRunRequest)
    (s : Store) : Except Error Unit × Store :=
  match prepareCreate settings cron adapter env s.session request with
  | .error error => (.error error, s)
  | .ok runRequest =>
      storeThenSave env (scheduleId.getD env.newId) runRequest
        (createRow cron request runRequest env.stampedAt env.anchoredAt) s

def updateSchedule (env : CallEnv) (scheduleId : Uuid) (request : UpdateScheduledRunRequest)
    (s : Store) : Except Error Unit × Store :=
  match prepareUpdate settings cron env s scheduleId request with
  | .error error => (.error error, s)
  | .ok (row, runRequest) =>
      storeThenSave env scheduleId runRequest
        (updateRow cron request runRequest env.stampedAt env.anchoredAt row) s

/-- The loop of `delete_all_schedules` over the stored payloads; a failure is only logged. -/
def deleteInputs (env : CallEnv) : List Uuid → Table Uuid RunInputPayload →
    Table Uuid RunInputPayload
  | [], inputs => inputs
  | id :: ids, inputs =>
      deleteInputs env ids (if env.fails (.deleteInput id) then inputs else inputs.erase id)

def deleteAllSchedules (env : CallEnv) (s : Store) : Except Error Unit × Store :=
  if env.fails .listSchedules then (.error .database, s)
  else if s.session.schedules.keys.isEmpty then (.ok (), s)
  else if env.fails .deleteRows then (.error .database, s)
  else
    let deleted : Store := { s with session := { s.session with schedules := ∅ } }
    if env.fails .commit then (.error .database, deleted)
    else
      (.ok (), { deleted.commit with
        inputs := deleteInputs env s.session.schedules.keys s.inputs })

variable {settings : Settings} {cron : CronLibrary}
  {adapter : RunTemplate → JsonObject → Except Error CreateRunRequest} {env : CallEnv} {s s' : Store}

theorem attempt_eq_ok {access : Access} {error : Error} :
    attempt env access error = .ok () ↔ env.fails access = false := by
  unfold attempt
  split
  · next h => simp [h]
  · next h => simpa using h

theorem ensureProfile_eq_ok {db : Database} {profileId : Text} :
    ensureProfile env db profileId = .ok () ↔
      env.fails .getProfile = false ∧ (db.profiles.lookup profileId).isSome = true := by
  rw [ensureProfile, bind_eq_ok]
  constructor
  · rintro ⟨_, hget, hfound⟩
    refine ⟨attempt_eq_ok.mp hget, ?_⟩
    split at hfound
    · next h => exact h
    · cases hfound
  · rintro ⟨hget, hfound⟩
    exact ⟨(), attempt_eq_ok.mpr hget, if_pos hfound⟩

theorem prepareUpdate_eq_ok {id : Uuid} {request : UpdateScheduledRunRequest} {row : ScheduledRun}
    {runRequest : CreateRunRequest} :
    prepareUpdate settings cron env s id request = .ok (row, runRequest) ↔
      env.fails .getSchedule = false ∧ s.session.schedules.lookup id = some row ∧
      validateCron settings cron request.cronExpression request.timezone env.checkedAt = .ok () ∧
      ensureProfile env s.session request.profileId = .ok () ∧ env.fails .loadInput = false ∧
      ∃ current merged, s.inputs.lookup id = some current ∧
        InputCrypto.mergeMaskedSecure request.pipelineVarsSecure current.pipelineVarsSecure =
          .ok merged ∧
        runRequest = updateRunRequest request merged := by
  rw [prepareUpdate, bind_eq_ok]
  constructor
  · rintro ⟨_, hget, h⟩
    split at h
    · cases h
    · next row' hrow =>
      obtain ⟨_, hcron, h⟩ := bind_eq_ok.mp h
      obtain ⟨_, hprofile, h⟩ := bind_eq_ok.mp h
      obtain ⟨_, hload, h⟩ := bind_eq_ok.mp h
      split at h
      · cases h
      · next current hcurrent =>
        obtain ⟨merged, hmerged, h⟩ := bind_eq_ok.mp h
        cases h
        exact ⟨attempt_eq_ok.mp hget, hrow, hcron, hprofile, attempt_eq_ok.mp hload, current,
          merged, hcurrent, mapError_eq_ok.mp hmerged, rfl⟩
  · rintro ⟨hget, hrow, hcron, hprofile, hload, current, merged, hcurrent, hmerged, rfl⟩
    refine ⟨(), attempt_eq_ok.mpr hget, ?_⟩
    simp only [hrow, hcurrent]
    refine bind_eq_ok.mpr ⟨(), hcron, bind_eq_ok.mpr ⟨(), hprofile, bind_eq_ok.mpr ⟨(), ?_, ?_⟩⟩⟩
    · exact attempt_eq_ok.mpr hload
    · exact bind_eq_ok.mpr ⟨merged, mapError_eq_ok.mpr hmerged, rfl⟩

theorem storeThenSave_eq_ok {id : Uuid} {runRequest : CreateRunRequest}
    {row : Except Error ScheduledRun} :
    storeThenSave env id runRequest row s = (.ok (), s') ↔
      env.fails .storeInput = false ∧ env.fails .commit = false ∧ env.fails .refresh = false ∧
      ∃ saved, row = .ok saved ∧
        s' = ((s.storeInput id (RunInputPayload.fromCreateRequest runRequest)).putSchedule id
          saved).commit := by
  unfold storeThenSave saveRow
  cases hstore : env.fails .storeInput with
  | true => simp
  | false =>
      cases row with
      | error error => simp
      | ok saved =>
          cases hcommit : env.fails .commit with
          | true => simp
          | false =>
              cases hrefresh : env.fails .refresh with
              | true => simp
              | false =>
                  simp only [Bool.false_eq_true, if_false, Prod.mk.injEq, true_and]
                  constructor
                  · rintro rfl
                    exact ⟨saved, rfl, rfl⟩
                  · rintro ⟨saved', hsaved, rfl⟩
                    cases hsaved
                    rfl

/-- How far `storeThenSave` gets. -/
inductive SaveOutcome (env : CallEnv) (id : Uuid) (runRequest : CreateRunRequest)
    (row : Except Error ScheduledRun) (s : Store) : Except Error Unit × Store → Prop where
  | notStored (hstore : env.fails .storeInput = true) :
      SaveOutcome env id runRequest row s (.error (.inputStorage id), s)
  | noRow {error} (hstore : env.fails .storeInput = false) (hrow : row = .error error) :
      SaveOutcome env id runRequest row s
        (.error error, s.storeInput id (RunInputPayload.fromCreateRequest runRequest))
  | notCommitted {saved} (hstore : env.fails .storeInput = false) (hrow : row = .ok saved)
      (hcommit : env.fails .commit = true) :
      SaveOutcome env id runRequest row s (.error .database,
        (s.storeInput id (RunInputPayload.fromCreateRequest runRequest)).putSchedule id saved)
  | committed {saved} (result) (hstore : env.fails .storeInput = false) (hrow : row = .ok saved)
      (hcommit : env.fails .commit = false) :
      SaveOutcome env id runRequest row s (result,
        ((s.storeInput id (RunInputPayload.fromCreateRequest runRequest)).putSchedule id
          saved).commit)

theorem saveOutcome {id : Uuid} {runRequest : CreateRunRequest} {row : Except Error ScheduledRun}
    {result : Except Error Unit × Store} (h : storeThenSave env id runRequest row s = result) :
    SaveOutcome env id runRequest row s result := by
  rw [← h]
  unfold storeThenSave saveRow
  cases hstore : env.fails .storeInput with
  | true => exact .notStored hstore
  | false =>
      cases row with
      | error error => exact .noRow hstore rfl
      | ok saved =>
          cases hcommit : env.fails .commit with
          | true => exact .notCommitted hstore rfl hcommit
          | false =>
              cases env.fails .refresh with
              | true => exact .committed _ hstore rfl hcommit
              | false => exact .committed _ hstore rfl hcommit

end ScheduleService

/-- A database with the profile `default`. -/
def sampleDatabase : Database where
  profiles := AList.singleton "default".toList
    { pdeImage := "pde:1".toList, envVars := [], resources := [], createdAt := 0, updatedAt := 0 }
  templates := ∅
  schedules := ∅

def sampleStore : Store where
  committed := sampleDatabase
  session := sampleDatabase
  inputs := ∅

/-- No failures, and a clock that stands still. -/
def quietEnv : CallEnv where
  fails _ := false
  checkedAt := 0
  stampedAt := 0
  anchoredAt := 0
  newId := 1

/-- Adapters for no templates at all. -/
def noAdapter (_ : RunTemplate) (_ : JsonObject) : Except ScheduleService.Error CreateRunRequest :=
  .error (.template [])

end PdeOperator
