import PdeOperator.LifecycleSteps
import PdeOperator.ScheduleStore

/-! The stored objects, with every call that writes or deletes them: the run lifecycle and beside it the
calls of `ScheduleService`, at the granularity of their storage and database accesses. The database and
the object store share no transaction, and a deletion of objects may leave some of them.

An import is the schedule calls of its documents one after the other (each of them commits), and a
schedule fires through `create_run`. Claims, switches and the bookkeeping of a fire only change columns
of a schedule row (`editSchedule`). A call that raises ends as if its process died (`crash`). -/

namespace PdeOperator.Storage
open Base

/-- The calls of `ScheduleService` that write objects or rows, in flight. -/
inductive ScheduleTask where
  /-- `create_schedule` with the new row at hand, before and after the payload is stored. -/
  | creating (scheduleId : Uuid) (row : Except ScheduleService.Error ScheduledRun) (stored : Bool)
  /-- `update_schedule` with the row as read and the changed row. -/
  | updating (scheduleId : Uuid) (read : ScheduledRun)
      (work : Except ScheduleService.Error ScheduledRun) (stored : Bool)
  /-- `delete_schedule`, before and after the stored objects are deleted. -/
  | deleting (scheduleId : Uuid) (objectsGone : Bool)
  /-- `delete_all_schedules` after the select. -/
  | listed (scheduleIds : List Uuid)
  /-- After the `DELETE`: the rows that it has found are gone with the commit. -/
  | purging (scheduleIds rows : List Uuid)
  /-- After the commit: the ids under which objects are still to be deleted. -/
  | cleaning (scheduleIds : List Uuid)

structure World where
  life : Lifecycle.World
  templates : Table Uuid RunTemplate
  schedules : Table Uuid ScheduledRun
  tasks : Nat → Option ScheduleTask

namespace World

variable (w : World)

def database : Database where
  profiles := w.life.profiles
  templates := w.templates
  schedules := w.schedules

/-- The database and what `load` finds under one id; `current` is what the stored object decrypts to. -/
def storeFor (scheduleId : Uuid) (current : RunInputPayload) : Store where
  committed := w.database
  session := w.database
  inputs :=
    if Lifecycle.inputKey scheduleId ∈ w.life.objects then AList.singleton scheduleId current else ∅

def setTask (c : Nat) (task : Option ScheduleTask) : World :=
  { w with tasks := Function.update w.tasks c task }

def put (key : Text) : World := { w with life := { w.life with objects := key :: w.life.objects } }

/-- `delete_run_artifacts`; the keys that the storage could not delete are `kept`. -/
def deleteObjects (id : Uuid) (kept : List Text) : World :=
  { w with life := { w.life with objects := Lifecycle.deleteUnder id kept w.life.objects } }

def eraseSchedules (ids : List Uuid) : World :=
  { w with schedules := ids.foldl (fun schedules id => schedules.erase id) w.schedules }

/-- No call is in flight. -/
def Quiet : Prop := w.life.Quiet ∧ ∀ c, w.tasks c = none

end World

inductive Act where
  | run (a : Lifecycle.Act)
  | createSchedule (c : Nat) (scheduleId : Uuid) (env : CallEnv) (request : CreateScheduledRunRequest)
  | updateSchedule (c : Nat) (scheduleId : Uuid) (env : CallEnv) (request : UpdateScheduledRunRequest)
      (current : RunInputPayload)
  | storePayload (c : Nat)
  | saveSchedule (c : Nat)
  | readSchedule (c : Nat) (scheduleId : Uuid)
  | deleteInput (c : Nat) (kept : List Text)
  | deleteSchedule (c : Nat)
  | listSchedules (c : Nat)
  | deleteRows (c : Nat)
  | commitDelete (c : Nat)
  /-- The next deletion of `delete_all_schedules`; a failure is only logged. -/
  | cleanNext (c : Nat) (kept : List Text)
  | cleanDone (c : Nat)
  | crash (c : Nat)
  | editSchedule (scheduleId : Uuid) (row : ScheduledRun)
  | editTemplates (templates : Table Uuid RunTemplate)

section Steps

variable (settings : Settings) (parsers : Parsers) (cron : CronLibrary)
  (adapter : RunTemplate → JsonObject → Except ScheduleService.Error CreateRunRequest) (w : World)

def createSchedule (c : Nat) (scheduleId : Uuid) (env : CallEnv)
    (request : CreateScheduledRunRequest) : Option World := do
  guard (w.tasks c).isNone
  let runRequest ← (ScheduleService.prepareCreate settings cron adapter env w.database request).toOption
  some (w.setTask c (some (.creating scheduleId
    (ScheduleService.createRow cron request runRequest env.stampedAt env.anchoredAt) false)))

def updateSchedule (c : Nat) (scheduleId : Uuid) (env : CallEnv)
    (request : UpdateScheduledRunRequest) (current : RunInputPayload) : Option World := do
  guard (w.tasks c).isNone
  let (read, runRequest) ← (ScheduleService.prepareUpdate settings cron env
    (w.storeFor scheduleId current) scheduleId request).toOption
  some (w.setTask c (some (.updating scheduleId read
    (ScheduleService.updateRow cron request runRequest env.stampedAt env.anchoredAt read) false)))

def storePayload (c : Nat) : Option World :=
  match w.tasks c with
  | some (.creating scheduleId row false) =>
      some ((w.setTask c (some (.creating scheduleId row true))).put (Lifecycle.inputKey scheduleId))
  | some (.updating scheduleId read work false) =>
      some ((w.setTask c (some (.updating scheduleId read work true))).put
        (Lifecycle.inputKey scheduleId))
  | _ => none

def saveSchedule (c : Nat) : Option World :=
  match w.tasks c with
  | some (.creating scheduleId (.ok row) true) => do
      guard (w.schedules.lookup scheduleId).isNone
      some ({ w with schedules := w.schedules.insert scheduleId row }.setTask c none)
  | some (.updating scheduleId read (.ok work) true) => do
      let schedules ← w.schedules.flush ⟨scheduleId, read, work⟩
      some ({ w with schedules }.setTask c none)
  | _ => none

def readSchedule (c : Nat) (scheduleId : Uuid) : Option World := do
  guard ((w.tasks c).isNone && (w.schedules.lookup scheduleId).isSome)
  some (w.setTask c (some (.deleting scheduleId false)))

def deleteInput (c : Nat) (kept : List Text) : Option World :=
  match w.tasks c with
  | some (.deleting scheduleId false) =>
      some ((w.deleteObjects scheduleId kept).setTask c (some (.deleting scheduleId true)))
  | _ => none

def deleteSchedule (c : Nat) : Option World :=
  match w.tasks c with
  | some (.deleting scheduleId true) => do
      guard (w.schedules.lookup scheduleId).isSome
      some ((w.eraseSchedules [scheduleId]).setTask c none)
  | _ => none

def listSchedules (c : Nat) : Option World := do
  guard (w.tasks c).isNone
  if w.schedules.keys.isEmpty then some w else some (w.setTask c (some (.listed w.schedules.keys)))

def deleteRows (c : Nat) : Option World :=
  match w.tasks c with
  | some (.listed ids) => some (w.setTask c (some (.purging ids w.schedules.keys)))
  | _ => none

def commitDelete (c : Nat) : Option World :=
  match w.tasks c with
  | some (.purging ids rows) => some ((w.eraseSchedules rows).setTask c (some (.cleaning ids)))
  | _ => none

def cleanNext (c : Nat) (kept : List Text) : Option World :=
  match w.tasks c with
  | some (.cleaning (id :: ids)) => some ((w.deleteObjects id kept).setTask c (some (.cleaning ids)))
  | _ => none

def cleanDone (c : Nat) : Option World :=
  match w.tasks c with
  | some (.cleaning []) => some (w.setTask c none)
  | _ => none

def crash (c : Nat) : Option World := do
  guard (w.tasks c).isSome
  some (w.setTask c none)

def editSchedule (scheduleId : Uuid) (row : ScheduledRun) : Option World := do
  guard (w.schedules.lookup scheduleId).isSome
  some { w with schedules := w.schedules.insert scheduleId row }

def step : Act → Option World
  | .run a => (Lifecycle.step settings parsers w.life a).map fun life => { w with life }
  | .createSchedule c scheduleId env request => createSchedule settings cron adapter w c scheduleId env request
  | .updateSchedule c scheduleId env request current =>
      updateSchedule settings cron w c scheduleId env request current
  | .storePayload c => storePayload w c
  | .saveSchedule c => saveSchedule w c
  | .readSchedule c scheduleId => readSchedule w c scheduleId
  | .deleteInput c kept => deleteInput w c kept
  | .deleteSchedule c => deleteSchedule w c
  | .listSchedules c => listSchedules w c
  | .deleteRows c => deleteRows w c
  | .commitDelete c => commitDelete w c
  | .cleanNext c kept => cleanNext w c kept
  | .cleanDone c => cleanDone w c
  | .crash c => crash w c
  | .editSchedule scheduleId row => editSchedule w scheduleId row
  | .editTemplates templates => some { w with templates }

end Steps

/-- The calls in any interleaving. -/
def system (settings : Settings) (parsers : Parsers) (cron : CronLibrary)
    (adapter : RunTemplate → JsonObject → Except ScheduleService.Error CreateRunRequest) :
    System World Act where
  step := step settings parsers cron adapter

/-- An operator with profiles and templates, without runs, schedules and objects. -/
def World.initial (profiles : Table Text Profile) (templates : Table Uuid RunTemplate) : World where
  life := Lifecycle.World.initial profiles
  templates := templates
  schedules := ∅
  tasks _ := none

/-! ### What an object belongs to -/

/-- The key lies under the id. -/
def Owns (id : Uuid) (key : Text) : Prop := (Lifecycle.objectPrefix id).isPrefixOf key = true

/-- The id of a call of the run lifecycle or of `ScheduleService`. -/
inductive Caller where
  | run (c : Nat)
  | task (c : Nat)
  deriving DecidableEq

/-- The id of the row that a call has stored an object for and still has to insert. -/
def runOwes : Lifecycle.Call → List Uuid
  | .creating runId _ .job | .creating runId _ .insert => [runId]
  | _ => []

/-- The same for a schedule, and the ids under which objects are still to be deleted. -/
def ScheduleTask.owes : ScheduleTask → List Uuid
  | .creating scheduleId _ true => [scheduleId]
  | .cleaning scheduleIds => scheduleIds
  | _ => []

namespace World

variable (w : World) (id : Uuid)

def owed : Caller → List Uuid
  | .run c => ((w.life.calls c).map runOwes).getD []
  | .task c => ((w.tasks c).map ScheduleTask.owes).getD []

def HasRow : Prop := (w.life.runs.lookup id).isSome = true ∨ (w.schedules.lookup id).isSome = true

def Stored : Prop := ∃ key ∈ w.life.objects, Owns id key

/-- The id has a row, or a call is still going to insert it or to delete what is stored under it. -/
def Accounted : Prop := w.HasRow id ∨ ∃ k, id ∈ w.owed k

/-- The same when one caller has only the given ids left. -/
def AccountedBut (k : Caller) (left : List Uuid) : Prop :=
  w.HasRow id ∨ id ∈ left ∨ ∃ k', k' ≠ k ∧ id ∈ w.owed k'

/-- Every object lies under the id of a run or of a schedule. -/
def NoOrphans : Prop := ∀ key ∈ w.life.objects, ∃ id, Owns id key ∧ w.HasRow id

end World

/-- The step leaves no object behind whose id has no row and that nobody is still going to delete:
- an artifact or a payload is stored under an id that has a row;
- a call that has stored a payload does not fail before it has inserted the row;
- a row is deleted only if nothing is stored under its id any more, neither kept by the deletion of its
  objects nor stored since, or if it has been listed;
- the objects of listed schedules are deleted, and none of them is kept. -/
def SparesObjects (settings : Settings) (w : World) : Act → Prop
  | .run (.putNext c) => ∀ change now kind kinds row,
      w.life.calls c = some (.writing change now (kind :: kinds) row) → w.Accounted row.key
  | .run (.startJob c outcome _) => ∀ runId run, w.life.calls c = some (.creating runId run .job) →
      settings.queueEnabled = false → settings.k8sJobCreationEnabled = true → outcome ≠ .created →
      w.Stored runId → w.AccountedBut runId (.run c) []
  | .run (.crash c) => ∀ call id, w.life.calls c = some call → id ∈ runOwes call → w.Stored id →
      w.AccountedBut id (.run c) []
  | .run (.deleteCommit c) => ∀ runId, w.life.calls c = some (.deleting runId true) →
      w.Stored runId → (w.schedules.lookup runId).isSome = true ∨ ∃ k, runId ∈ w.owed k
  | .storePayload c => ∀ id read work, w.tasks c = some (.updating id read work false) →
      w.Accounted id
  | .deleteSchedule c => ∀ id, w.tasks c = some (.deleting id true) → w.Stored id →
      (w.life.runs.lookup id).isSome = true ∨ ∃ k, id ∈ w.owed k
  | .commitDelete c => ∀ ids rows id, w.tasks c = some (.purging ids rows) → id ∈ rows → id ∉ ids →
      w.Stored id → (w.life.runs.lookup id).isSome = true ∨ ∃ k, id ∈ w.owed k
  | .cleanNext c kept => ∀ id ids, w.tasks c = some (.cleaning (id :: ids)) →
      (w.deleteObjects id kept).Stored id → w.AccountedBut id (.task c) ids
  | .crash c => ∀ task id, w.tasks c = some task → id ∈ task.owes → w.Stored id →
      w.AccountedBut id (.task c) []
  | _ => True

end PdeOperator.Storage
