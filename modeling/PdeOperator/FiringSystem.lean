import Mathlib.Logic.Function.Basic
import PdeOperator.BaseSystem
import PdeOperator.ScheduleDispatcher

/-! Firing schedules as one transition system: any number of dispatcher ticks and manual triggers
interleaved with the calls that create, edit, switch and delete schedules, at the granularity of the
database and storage calls.

A claim is one transaction that holds the locks of the rows it changes; a fire is a later session of
its own. The object store keeps the payloads of schedules and of runs under their own ids; the ids
of runs are fresh, so the two are kept apart. -/

namespace PdeOperator.Firing
open Base

/-- Where a fire comes from. -/
inductive Origin where
  /-- A dispatcher tick, with the claimed ids that it has still to fire. -/
  | tick (now : Instant) (todo : List Uuid)
  /-- `trigger_now` -/
  | manual (now : Instant)
  deriving DecidableEq

def Origin.now : Origin → Instant
  | .tick now _ => now
  | .manual now => now

/-- A run that `create_run` has added to its session. -/
structure NewRun where
  runId : Uuid
  request : CreateRunRequest
  run : Run

inductive FireStage where
  | read
  | loaded (request : CreateRunRequest)
  | added (new : NewRun)
  /-- `record_fire`; a session that was rolled back has forgotten the row it read, one that was not
  may still hold a run. -/
  | recording (rolledBack : Bool) (status : FireStatus) (runId : Option Uuid) (error : Option Text)
      (pending : Option NewRun)

inductive UpdateStage where
  | read
  | loaded (runRequest : CreateRunRequest)
  | stored (runRequest : CreateRunRequest)

inductive Call where
  /-- `fire_due_once` between two fires. -/
  | firing (now : Instant) (todo : List Uuid)
  | fire (origin : Origin) (scheduleId : Uuid) (row : ScheduledRun) (stage : FireStage)
  | updating (scheduleId : Uuid) (request : UpdateScheduledRunRequest) (row : ScheduledRun)
      (stage : UpdateStage)
  /-- `create_schedule`, before and after the payload is stored. -/
  | creating (scheduleId : Uuid) (request : CreateScheduledRunRequest)
      (runRequest : CreateRunRequest) (stored : Bool)
  | enabling (scheduleId : Uuid) (enabled : Bool) (row : ScheduledRun)
  /-- `delete_schedule`, before and after the payload is deleted. -/
  | deleting (scheduleId : Uuid) (inputGone : Bool)

structure World where
  schedules : Table Uuid ScheduledRun
  /-- The stored payloads of the schedules. -/
  inputs : Table Uuid RunInputPayload
  runs : Table Uuid Run
  /-- The stored payloads of the runs. -/
  runInputs : Table Uuid RunInputPayload
  profiles : Table Text Profile
  /-- The ids that `uuid4` has returned for runs. -/
  issued : List Uuid
  calls : Nat → Option Call
  /-- The runs of `trigger_now`. -/
  manual : List Uuid
  /-- The run requests of all accepted `create_schedule` and `update_schedule` calls. -/
  accepted : List (Uuid × CreateRunRequest)

namespace World

def spawn (w : World) (c : Nat) (call : Call) : World :=
  { w with calls := Function.update w.calls c (some call) }

def finish (w : World) (c : Nat) : World := { w with calls := Function.update w.calls c none }

/-- A schedule has a run that has not ended (`_active_run_refs`). -/
def active (w : World) (scheduleId : Uuid) : Bool :=
  !(w.runs.select fun _ run =>
    run.triggeredBy == some (scheduleTriggerRef scheduleId) && !run.isTerminal).isEmpty

/-- The commit of a session that holds a new run. -/
def insertRun (w : World) (origin : Origin) (new : NewRun) : World :=
  { w with
    runs := w.runs.insert new.runId new.run
    manual := match origin with
      | .tick _ _ => w.manual
      | .manual _ => new.runId :: w.manual }

/-- The tick goes on with the next id; a manual trigger has ended. -/
def next (w : World) (c : Nat) : Origin → World
  | .tick now todo => w.spawn c (.firing now todo)
  | .manual _ => w.finish c

end World

inductive Act where
  | claim (c : Nat) (now : Instant) (locked : Uuid → Bool)
  | fireRead (c : Nat)
  | triggerRead (c : Nat) (scheduleId : Uuid) (now : Instant)
  | fireLoad (c : Nat)
  | fireStore (c : Nat) (runId : Uuid) (createdAt : Instant)
  | fireCommit (c : Nat) (started : Instant)
  /-- `fire` raises in a tick; `keepsRun` when it is the Job manifest that cannot be built. -/
  | fireFail (c : Nat) (error : Text) (keepsRun : Bool)
  | recordCommit (c : Nat)
  | updateRead (c : Nat) (scheduleId : Uuid) (request : UpdateScheduledRunRequest) (now : Instant)
  | updateLoad (c : Nat)
  | updateStore (c : Nat)
  | updateCommit (c : Nat) (stamp now : Instant)
  | createRead (c : Nat) (scheduleId : Uuid) (request : CreateScheduledRunRequest) (now : Instant)
  | createStore (c : Nat)
  | createCommit (c : Nat) (stamp now : Instant)
  | enableRead (c : Nat) (scheduleId : Uuid) (enabled : Bool)
  | enableCommit (c : Nat) (stamp now : Instant)
  | deleteRead (c : Nat) (scheduleId : Uuid)
  | deleteInput (c : Nat)
  | deleteCommit (c : Nat)
  /-- The call raises or its process dies; nothing it has not committed is written. -/
  | crash (c : Nat)
  /-- A delivery, the reconciler, the queue or a cancellation moves a run. -/
  | setStatus (runId : Uuid) (status : RunStatus)
  | deleteRun (runId : Uuid)
  | editProfiles (profiles : Table Text Profile)

/-! ### Steps -/

section Steps

variable (settings : Settings) (cron : CronLibrary)
  (declarative : Uuid → JsonObject → Except ScheduleService.Error CreateRunRequest) (w : World)

/-- The due rows of a claim. -/
def due (now : Instant) (locked : Uuid → Bool) : List (Uuid × ScheduledRun) :=
  ScheduleDispatcher.selectDue settings w.schedules locked now

def claim (c : Nat) (now : Instant) (locked : Uuid → Bool) : Option World := do
  guard (w.calls c).isNone
  some ({ w with
    schedules := ScheduleDispatcher.claimedTable settings cron now w.active
      (due settings w now locked) w.schedules }.spawn c
    (.firing now
      ((ScheduleDispatcher.toFire settings cron now w.active (due settings w now locked)).map
        Prod.fst)))

def fireRead (c : Nat) : Option World :=
  match w.calls c with
  | some (.firing now (id :: todo)) =>
      match w.schedules.lookup id with
      | some row => some (w.spawn c (.fire (.tick now todo) id row .read))
      | none => some (w.spawn c (.firing now todo))
  | _ => none

def triggerRead (c : Nat) (scheduleId : Uuid) (now : Instant) : Option World := do
  guard (w.calls c).isNone
  let row ← w.schedules.lookup scheduleId
  some (w.spawn c (.fire (.manual now) scheduleId row .read))

def fireLoad (c : Nat) : Option World :=
  match w.calls c with
  | some (.fire origin id row .read) => do
      let payload ← w.inputs.lookup id
      some (w.spawn c (.fire origin id row (.loaded (ScheduleService.fireRequest row payload))))
  | _ => none

def fireStore (c : Nat) (runId : Uuid) (createdAt : Instant) : Option World :=
  match w.calls c with
  | some (.fire origin id row (.loaded request)) => do
      guard !w.issued.contains runId
      let profile ← w.profiles.lookup request.profileId
      some { w.spawn c (.fire origin id row (.added ⟨runId, request,
          RunService.createRun settings runId request profile (some (scheduleTriggerRef id))
            createdAt⟩)) with
        runInputs := w.runInputs.insert runId (RunInputPayload.fromCreateRequest request)
        issued := runId :: w.issued }
  | _ => none

/-- Whether `create_run` starts the Job itself. -/
def startsJob : Bool := !settings.queueEnabled && settings.k8sJobCreationEnabled

def NewRun.start (new : NewRun) (started : Instant) : NewRun :=
  if startsJob settings then
    { new with run := RunService.startRunJobNow started new.runId new.run }
  else new

def fireCommit (c : Nat) (started : Instant) : Option World :=
  match w.calls c with
  | some (.fire origin id row (.added new)) => do
      guard (w.runs.lookup new.runId).isNone
      some ((w.insertRun origin (new.start settings started)).spawn c
        (.fire origin id row (.recording false .success (some new.runId) none none)))
  | _ => none

/-- The stage in which `fire` leaves the session when it raises. -/
def failedStage (error : Text) (keepsRun : Bool) : FireStage → Option FireStage
  | .read => some (.recording false .failed none (some (error.take 500)) none)
  | .loaded _ => some (.recording false .failed none (some (error.take 500)) none)
  | .added new =>
      if startsJob settings then
        if keepsRun then some (.recording false .failed none (some (error.take 500)) (some new))
        else some (.recording true .failed none (some (error.take 500)) none)
      else none
  | .recording _ .success _ _ _ =>
      some (.recording false .failed none (some (error.take 500)) none)
  | .recording .. => none

def fireFail (c : Nat) (error : Text) (keepsRun : Bool) : Option World :=
  match w.calls c with
  | some (.fire (.tick now todo) id row stage) =>
      (failedStage settings error keepsRun stage).map fun stage' =>
        w.spawn c (.fire (.tick now todo) id row stage')
  | _ => none

def recordCommit (c : Nat) : Option World :=
  match w.calls c with
  | some (.fire origin id row (.recording rolledBack status runId error pending)) => do
      let read := if rolledBack then (w.schedules.lookup id).getD row else row
      let schedules ← w.schedules.flush
        ⟨id, read, ScheduleService.applyFireResult origin.now status runId error read⟩
      match pending with
      | none => some ({ w with schedules }.next c origin)
      | some new =>
          guard (w.runs.lookup new.runId).isNone
          some (({ w with schedules }.insertRun origin new).next c origin)
  | _ => none

def updateRead (c : Nat) (scheduleId : Uuid) (request : UpdateScheduledRunRequest)
    (now : Instant) : Option World := do
  guard (w.calls c).isNone
  let row ← w.schedules.lookup scheduleId
  let _ ← (ScheduleService.validateCron settings cron request.cronExpression request.timezone
    now).toOption
  guard (w.profiles.lookup request.profileId).isSome
  some (w.spawn c (.updating scheduleId request row .read))

def updateLoad (c : Nat) : Option World :=
  match w.calls c with
  | some (.updating id request row .read) => do
      let current ← w.inputs.lookup id
      let merged ← (InputCrypto.mergeMaskedSecure request.pipelineVarsSecure
        current.pipelineVarsSecure).toOption
      some (w.spawn c (.updating id request row
        (.loaded (ScheduleService.updateRunRequest request merged))))
  | _ => none

def updateStore (c : Nat) : Option World :=
  match w.calls c with
  | some (.updating id request row (.loaded runRequest)) =>
      some { w.spawn c (.updating id request row (.stored runRequest)) with
        inputs := w.inputs.insert id (RunInputPayload.fromCreateRequest runRequest) }
  | _ => none

def updateCommit (c : Nat) (stamp now : Instant) : Option World :=
  match w.calls c with
  | some (.updating id request row (.stored runRequest)) => do
      let work ← (ScheduleService.updateRow cron request runRequest stamp now row).toOption
      let schedules ← w.schedules.flush ⟨id, row, work⟩
      some ({ w with schedules, accepted := (id, runRequest) :: w.accepted }.finish c)
  | _ => none

def createRead (c : Nat) (scheduleId : Uuid) (request : CreateScheduledRunRequest)
    (now : Instant) : Option World := do
  guard (w.calls c).isNone
  let _ ← (ScheduleService.validateCron settings cron request.cronExpression request.timezone
    now).toOption
  let runRequest ← (ScheduleService.resolveRunRequest declarative request).toOption
  guard (w.profiles.lookup runRequest.profileId).isSome
  let secure ← (InputCrypto.mergeMaskedSecure runRequest.pipelineVarsSecure none).toOption
  some (w.spawn c (.creating scheduleId request { runRequest with pipelineVarsSecure := secure }
    false))

def createStore (c : Nat) : Option World :=
  match w.calls c with
  | some (.creating id request runRequest false) =>
      some { w.spawn c (.creating id request runRequest true) with
        inputs := w.inputs.insert id (RunInputPayload.fromCreateRequest runRequest) }
  | _ => none

def createCommit (c : Nat) (stamp now : Instant) : Option World :=
  match w.calls c with
  | some (.creating id request runRequest true) => do
      let row ← (ScheduleService.createRow cron request runRequest stamp now).toOption
      guard (w.schedules.lookup id).isNone
      some ({ w with
        schedules := w.schedules.insert id row
        accepted := (id, runRequest) :: w.accepted }.finish c)
  | _ => none

def enableRead (c : Nat) (scheduleId : Uuid) (enabled : Bool) : Option World := do
  guard (w.calls c).isNone
  let row ← w.schedules.lookup scheduleId
  some (w.spawn c (.enabling scheduleId enabled row))

def enableCommit (c : Nat) (stamp now : Instant) : Option World :=
  match w.calls c with
  | some (.enabling id enabled row) => do
      let work ← (ScheduleService.setEnabledRow cron enabled stamp now row).toOption
      let schedules ← w.schedules.flush ⟨id, row, work⟩
      some ({ w with schedules }.finish c)
  | _ => none

def deleteRead (c : Nat) (scheduleId : Uuid) : Option World := do
  guard ((w.calls c).isNone && (w.schedules.lookup scheduleId).isSome)
  some (w.spawn c (.deleting scheduleId false))

def deleteInput (c : Nat) : Option World :=
  match w.calls c with
  | some (.deleting id false) =>
      some { w.spawn c (.deleting id true) with inputs := w.inputs.erase id }
  | _ => none

def deleteCommit (c : Nat) : Option World :=
  match w.calls c with
  | some (.deleting id true) => some ({ w with schedules := w.schedules.erase id }.finish c)
  | _ => none

def crash (c : Nat) : Option World := do
  guard (w.calls c).isSome
  some (w.finish c)

def setStatus (runId : Uuid) (status : RunStatus) : Option World := do
  let run ← w.runs.lookup runId
  some { w with runs := w.runs.insert runId { run with status } }

def step : Act → Option World
  | .claim c now locked => claim settings cron w c now locked
  | .fireRead c => fireRead w c
  | .triggerRead c scheduleId now => triggerRead w c scheduleId now
  | .fireLoad c => fireLoad w c
  | .fireStore c runId createdAt => fireStore settings w c runId createdAt
  | .fireCommit c started => fireCommit settings w c started
  | .fireFail c error keepsRun => fireFail settings w c error keepsRun
  | .recordCommit c => recordCommit w c
  | .updateRead c scheduleId request now => updateRead settings cron w c scheduleId request now
  | .updateLoad c => updateLoad w c
  | .updateStore c => updateStore w c
  | .updateCommit c stamp now => updateCommit cron w c stamp now
  | .createRead c scheduleId request now =>
      createRead settings cron declarative w c scheduleId request now
  | .createStore c => createStore w c
  | .createCommit c stamp now => createCommit cron w c stamp now
  | .enableRead c scheduleId enabled => enableRead w c scheduleId enabled
  | .enableCommit c stamp now => enableCommit cron w c stamp now
  | .deleteRead c scheduleId => deleteRead w c scheduleId
  | .deleteInput c => deleteInput w c
  | .deleteCommit c => deleteCommit w c
  | .crash c => crash w c
  | .setStatus runId status => setStatus w runId status
  | .deleteRun runId => some { w with runs := w.runs.erase runId }
  | .editProfiles profiles => some { w with profiles }

end Steps

/-- Schedules and their fires under given settings; `declarative` looks a template up and assembles
the payload of a declarative schedule. -/
def system (settings : Settings) (cron : CronLibrary)
    (declarative : Uuid → JsonObject → Except ScheduleService.Error CreateRunRequest) :
    System World Act where
  step := step settings cron declarative

namespace World

/-- No call is in flight. -/
def Quiet (w : World) : Prop := ∀ c, w.calls c = none

end World

/-- The run that a step commits for a fire. -/
def inserts (w : World) : Act → Option (Origin × Uuid × NewRun)
  | .fireCommit c _ =>
      match w.calls c with
      | some (.fire origin id _ (.added new)) => some (origin, id, new)
      | _ => none
  | .recordCommit c =>
      match w.calls c with
      | some (.fire origin id _ (.recording _ _ _ _ (some new))) => some (origin, id, new)
      | _ => none
  | _ => none

/-- An operator with one schedule and one profile, at rest. -/
def sampleWorld (overlapPolicy : Text) : World where
  schedules := AList.singleton 1 (sampleRow overlapPolicy)
  inputs := AList.singleton 1 (RunInputPayload.fromCreateRequest sampleRunRequest)
  runs := ∅
  runInputs := ∅
  profiles := AList.singleton "default".toList
    { pdeImage := "pde:1".toList, envVars := [], resources := [], createdAt := 0, updatedAt := 0 }
  issued := []
  calls := fun _ => none
  manual := []
  accepted := [(1, sampleRunRequest)]

theorem sampleWorld_quiet (overlapPolicy : Text) : (sampleWorld overlapPolicy).Quiet := fun _ => rfl

/-- No templates. -/
def noTemplates (_ : Uuid) (_ : JsonObject) : Except ScheduleService.Error CreateRunRequest :=
  .error (.template [])

abbrev sampleSystem : System World Act := system {} everyMinute noTemplates

/-- A tick claims what is due at a time. -/
def claimAt (c : Nat) (now : Instant) : Act := .claim c now fun _ => false

/-- The fire of a claimed schedule up to the commit of its run. -/
def prepareFire (c : Nat) (runId : Uuid) (now : Instant) : List Act :=
  [.fireRead c, .fireLoad c, .fireStore c runId now]

end PdeOperator.Firing
