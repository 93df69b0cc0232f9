import Mathlib.Logic.Function.Basic
import PdeOperator.BaseSystem
import PdeOperator.RunQueue
import PdeOperator.RunReconciler

/-! The run lifecycle as one transition system: the committed tables, the Kubernetes Jobs, the stored
objects and every operator call in flight, at the granularity of the database and remote calls.

A session reads committed rows, changes its own copies and commits. A commit writes the changed
columns, waits for rows that another session has locked, and fails when a changed row is gone; a
failed or crashed call ends without writing rows (`crash`). Only the queue worker locks rows
(`FOR UPDATE SKIP LOCKED`). -/

namespace PdeOperator.Lifecycle
open Base

/-- The calls that read one row, change it and commit it. -/
inductive RunChange where
  | cancelRun
  | deliverStatus (status : JsonObject)
  | deliverReport (data : Bytes)
  | deliverLog
  | uploadArtifacts (uploads : Uploads)
  deriving DecidableEq

def RunChange.apply (parsers : Parsers) (now : Instant) (runId : Uuid) (run : Run) :
    RunChange → Except RunService.Error Run
  | .cancelRun => RunService.cancelRun now run
  | .deliverStatus status => .ok (RunService.deliverStatus parsers now status run)
  | .deliverReport data => .ok (RunService.deliverReport parsers now data run)
  | .deliverLog => .ok (RunService.deliverLog now run)
  | .uploadArtifacts uploads => .ok (RunService.uploadArtifacts parsers now runId uploads run)

/-- No such call sets or clears the Job name. -/
theorem RunChange.apply_k8sJobName {parsers : Parsers} {now : Instant} {runId : Uuid}
    {run work : Run} {change : RunChange} (h : change.apply parsers now runId run = .ok work) :
    work.k8sJobName = run.k8sJobName := by
  cases change with
  | cancelRun =>
      obtain ⟨-, ⟨-, rfl⟩ | ⟨-, rfl⟩⟩ := RunService.cancelRun_ok h
      · rfl
      · rfl
  | deliverStatus status =>
      cases h
      rfl
  | deliverReport data =>
      cases h
      exact (RunService.deliverReport_same data).k8sJobName
  | deliverLog =>
      cases h
      rfl
  | uploadArtifacts uploads =>
      cases h
      exact (RunService.uploadArtifacts_same runId uploads).k8sJobName

/-- The artifacts that the call stores before it commits. -/
def RunChange.puts : RunChange → List ArtifactKind
  | .cancelRun => []
  | .deliverStatus _ => []
  | .deliverReport _ => [.report]
  | .deliverLog => [.log]
  | .uploadArtifacts uploads => uploads.kinds

inductive CreateStage where
  | store | job | insert
  deriving DecidableEq

inductive Call where
  /-- The row has been read and changed; artifacts to store, then the commit. -/
  | writing (change : RunChange) (now : Instant) (puts : List ArtifactKind) (row : Tracked Uuid Run)
  /-- `reconcile_once`: rows still to look at, rows done, number of updates. -/
  | reconciling (now : Instant) (todo : List (Uuid × Run)) (done : List (Tracked Uuid Run))
      (updated : Nat)
  /-- `admit_once` after the count of free slots. -/
  | counted (free : Option Nat)
  /-- `admit_once` after the locked selection. -/
  | admitting (now : Instant) (todo : List (Uuid × Run)) (done : List (Tracked Uuid Run))
      (started : Nat)
  /-- `retry_run` after the checks on the parent row. -/
  | retrying (runId parentId : Uuid) (parent : Run) (request : Option RetryRunRequest)
      (now : Instant)
  /-- `create_run` and `retry_run` with the new row at hand. -/
  | creating (runId : Uuid) (run : Run) (stage : CreateStage)
  /-- `delete_run`, before and after the stored objects are deleted. -/
  | deleting (runId : Uuid) (objectsGone : Bool)

/-- The rows that a call holds locked, as it read them. -/
def Call.held : Call → List (Uuid × Run)
  | .admitting _ todo done _ => done.map (fun t => (t.key, t.read)) ++ todo
  | _ => []

structure World where
  runs : Table Uuid Run
  profiles : Table Text Profile
  /-- The names of the Jobs in the namespace. -/
  jobs : List Text
  /-- The names of all Jobs that were ever created. -/
  created : List Text
  /-- The keys of the stored objects. -/
  objects : List Text
  /-- The ids that `uuid4` has returned. -/
  issued : List Uuid
  locks : Uuid → Option Nat
  calls : Nat → Option Call

namespace World

/-- A new or continued call. -/
def spawn (w : World) (c : Nat) (call : Call) : World :=
  { w with calls := Function.update w.calls c (some call) }

/-- The end of a call: its session is closed and its row locks are released. -/
def finish (w : World) (c : Nat) : World :=
  { w with
    calls := Function.update w.calls c none
    locks := fun id => if w.locks id = some c then none else w.locks id }

/-- A write of the row does not have to wait for another session. -/
def mayWrite (w : World) (row : Tracked Uuid Run) : Bool :=
  row.work == row.read || (w.locks row.key).isNone

def addJob (w : World) (name : Text) : World :=
  { w with jobs := name :: w.jobs, created := name :: w.created }

def dropJob (w : World) (name : Text) : World := { w with jobs := w.jobs.filter (· != name) }

/-- No operator call is in flight. -/
def Quiet (w : World) : Prop := ∀ c, w.calls c = none

end World

inductive Act where
  | readRow (c : Nat) (runId : Uuid) (change : RunChange) (now : Instant)
  | putNext (c : Nat)
  | commitRow (c : Nat)
  | reconcileRead (c : Nat) (now : Instant)
  | reconcileNext (c : Nat) (observed : JobObservation)
  | reconcileCommit (c : Nat)
  | admitCount (c : Nat)
  | admitSelect (c : Nat) (now : Instant)
  | admitNext (c : Nat) (outcome : JobOutcome)
  | admitCommit (c : Nat)
  | createRead (c : Nat) (runId : Uuid) (request : CreateRunRequest) (triggeredBy : Option Text)
      (now : Instant)
  | retryRead (c : Nat) (runId parentId : Uuid) (request : Option RetryRunRequest) (now : Instant)
  | retryLoad (c : Nat)
  | storeInput (c : Nat)
  | startJob (c : Nat) (outcome : JobOutcome) (now : Instant)
  | insertCommit (c : Nat)
  | deleteRead (c : Nat) (runId : Uuid)
  /-- The deletion of the objects; the keys that the storage could not delete are `kept`. -/
  | deleteObjects (c : Nat) (kept : List Text)
  | deleteCommit (c : Nat)
  /-- The call raises or its process dies; nothing it has not committed is written. -/
  | crash (c : Nat)
  /-- Kubernetes removes a Job (its time to live has passed, or somebody deletes it). -/
  | jobEnds (name : Text)
  /-- The profile service changes the profiles. -/
  | editProfiles (profiles : Table Text Profile)

/-- The call that takes the step. -/
def Act.call : Act → Option Nat
  | .readRow c .. | .putNext c | .commitRow c | .reconcileRead c .. | .reconcileNext c ..
  | .reconcileCommit c | .admitCount c | .admitSelect c .. | .admitNext c .. | .admitCommit c
  | .createRead c .. | .retryRead c .. | .retryLoad c | .storeInput c | .startJob c ..
  | .insertCommit c | .deleteRead c .. | .deleteObjects c _ | .deleteCommit c | .crash c => some c
  | .jobEnds _ | .editProfiles _ => none

def inputKey (runId : Uuid) : Text := Uuid.str runId ++ "/input.json".toList

/-- The prefix of every object of a run. -/
def objectPrefix (runId : Uuid) : Text := Uuid.str runId ++ ['/']

/-- The keys after `delete_run_artifacts`, which does not look at what `delete_objects` reports. -/
def deleteUnder (runId : Uuid) (kept objects : List Text) : List Text :=
  objects.filter fun key => kept.contains key || !(objectPrefix runId).isPrefixOf key

/-! ### Steps -/

section Steps

variable (settings : Settings) (parsers : Parsers) (w : World)

def readRow (c : Nat) (runId : Uuid) (change : RunChange) (now : Instant) : Option World := do
  guard (w.calls c).isNone
  let run ← w.runs.lookup runId
  let work ← (change.apply parsers now runId run).toOption
  some (w.spawn c (.writing change now change.puts ⟨runId, run, work⟩))

def putNext (c : Nat) : Option World :=
  match w.calls c with
  | some (.writing change now (kind :: kinds) row) =>
      some { w.spawn c (.writing change now kinds row) with
        objects := artifactKey row.key kind :: w.objects }
  | _ => none

def commitRow (c : Nat) : Option World :=
  match w.calls c with
  | some (.writing _ _ [] row) => do
      guard (w.mayWrite row)
      let runs ← w.runs.flush row
      some ({ w with runs }.finish c)
  | _ => none

def reconcileRead (c : Nat) (now : Instant) : Option World := do
  guard (w.calls c).isNone
  some (w.spawn c (.reconciling now (w.runs.select fun _ run => run.isTracked) [] 0))

def reconcileNext (c : Nat) (observed : JobObservation) : Option World :=
  match w.calls c with
  | some (.reconciling now ((id, run) :: todo) done updated) => do
      let result ← JobReconciler.reconcileRun settings now observed run
      let w' := if result.deletes && observed.deleted then w.dropJob (run.k8sJobName.getD []) else w
      some (w'.spawn c (.reconciling now todo (done ++ [⟨id, run, result.run⟩])
        (updated + result.updated.toNat)))
  | _ => none

def reconcileCommit (c : Nat) : Option World :=
  match w.calls c with
  | some (.reconciling _ [] done updated) =>
      if updated = 0 then some (w.finish c)
      else do
        guard (done.all w.mayWrite)
        let runs ← w.runs.flushAll done
        some ({ w with runs }.finish c)
  | _ => none

def admitCount (c : Nat) : Option World := do
  guard ((w.calls c).isNone && settings.k8sJobCreationEnabled)
  guard (QueueService.freeSlots settings w.runs ≠ some 0)
  some (w.spawn c (.counted (QueueService.freeSlots settings w.runs)))

def admitSelect (c : Nat) (now : Instant) : Option World :=
  match w.calls c with
  | some (.counted free) =>
      let queued := QueueService.selectQueued w.runs (fun id => (w.locks id).isSome) free
      if queued.isEmpty then some (w.finish c)
      else some { w.spawn c (.admitting now queued [] 0) with
        locks := fun id => if id ∈ queued.map Prod.fst then some c else w.locks id }
  | _ => none

def admitNext (c : Nat) (outcome : JobOutcome) : Option World :=
  match w.calls c with
  | some (.admitting now ((id, run) :: todo) done started) =>
      let profile := w.profiles.lookup run.profileId
      let done := done ++ [⟨id, run, QueueService.admitRun now id profile outcome run⟩]
      if profile.isSome && outcome != .refused then do
        guard (RunService.jobName id ∉ w.jobs)
        some ((w.addJob (RunService.jobName id)).spawn c
          (.admitting now todo done (started + (outcome == .created).toNat)))
      else some (w.spawn c (.admitting now todo done started))
  | _ => none

def admitCommit (c : Nat) : Option World :=
  match w.calls c with
  | some (.admitting _ [] done _) => do
      let runs ← w.runs.flushAll done
      some ({ w with runs }.finish c)
  | _ => none

def createRead (c : Nat) (runId : Uuid) (request : CreateRunRequest) (triggeredBy : Option Text)
    (now : Instant) : Option World := do
  guard ((w.calls c).isNone && !w.issued.contains runId)
  let profile ← w.profiles.lookup request.profileId
  some { w.spawn c (.creating runId
      (RunService.createRun settings runId request profile triggeredBy now) .store) with
    issued := runId :: w.issued }

def retryRead (c : Nat) (runId parentId : Uuid) (request : Option RetryRunRequest)
    (now : Instant) : Option World := do
  guard ((w.calls c).isNone && !w.issued.contains runId)
  let parent ← w.runs.lookup parentId
  let _ ← (RunService.checkRetriable parent).toOption
  some { w.spawn c (.retrying runId parentId parent request now) with issued := runId :: w.issued }

def retryLoad (c : Nat) : Option World :=
  match w.calls c with
  | some (.retrying runId parentId parent request now) => do
      guard (artifactKey parentId .state ∈ w.objects ∧ inputKey parentId ∈ w.objects)
      let profile ← w.profiles.lookup parent.profileId
      some (w.spawn c (.creating runId
        (RunService.retryRun settings runId parentId parent profile request now) .store))
  | _ => none

def storeInput (c : Nat) : Option World :=
  match w.calls c with
  | some (.creating runId run .store) =>
      some { w.spawn c (.creating runId run .job) with objects := inputKey runId :: w.objects }
  | _ => none

def startJob (c : Nat) (outcome : JobOutcome) (now : Instant) : Option World :=
  match w.calls c with
  | some (.creating runId run .job) =>
      if settings.queueEnabled || !settings.k8sJobCreationEnabled then
        some (w.spawn c (.creating runId run .insert))
      else if outcome = .refused then some (w.finish c)
      else do
        guard (RunService.jobName runId ∉ w.jobs)
        let w' := w.addJob (RunService.jobName runId)
        if outcome = .lost then some (w'.finish c)
        else some (w'.spawn c (.creating runId (RunService.startRunJobNow now runId run) .insert))
  | _ => none

def insertCommit (c : Nat) : Option World :=
  match w.calls c with
  | some (.creating runId run .insert) => do
      guard (w.runs.lookup runId).isNone
      some ({ w with runs := w.runs.insert runId run }.finish c)
  | _ => none

def deleteRead (c : Nat) (runId : Uuid) : Option World := do
  guard ((w.calls c).isNone && (w.runs.lookup runId).isSome)
  some (w.spawn c (.deleting runId false))

def deleteObjects (c : Nat) (kept : List Text) : Option World :=
  match w.calls c with
  | some (.deleting runId false) =>
      some { w.spawn c (.deleting runId true) with objects := deleteUnder runId kept w.objects }
  | _ => none

def deleteCommit (c : Nat) : Option World :=
  match w.calls c with
  | some (.deleting runId true) => do
      guard ((w.runs.lookup runId).isSome && (w.locks runId).isNone)
      some ({ w with runs := w.runs.erase runId }.finish c)
  | _ => none

def crash (c : Nat) : Option World := do
  guard (w.calls c).isSome
  some (w.finish c)

def step : Act → Option World
  | .readRow c runId change now => readRow parsers w c runId change now
  | .putNext c => putNext w c
  | .commitRow c => commitRow w c
  | .reconcileRead c now => reconcileRead w c now
  | .reconcileNext c observed => reconcileNext settings w c observed
  | .reconcileCommit c => reconcileCommit w c
  | .admitCount c => admitCount settings w c
  | .admitSelect c now => admitSelect w c now
  | .admitNext c outcome => admitNext w c outcome
  | .admitCommit c => admitCommit w c
  | .createRead c runId request triggeredBy now => createRead settings w c runId request triggeredBy now
  | .retryRead c runId parentId request now => retryRead w c runId parentId request now
  | .retryLoad c => retryLoad settings w c
  | .storeInput c => storeInput w c
  | .startJob c outcome now => startJob settings w c outcome now
  | .insertCommit c => insertCommit w c
  | .deleteRead c runId => deleteRead w c runId
  | .deleteObjects c kept => deleteObjects w c kept
  | .deleteCommit c => deleteCommit w c
  | .crash c => crash w c
  | .jobEnds name => some (w.dropJob name)
  | .editProfiles profiles => some { w with profiles }

end Steps

/-- The run lifecycle under given settings. -/
def system (settings : Settings) (parsers : Parsers) : System World Act where
  step := step settings parsers

/-- An operator on an empty database. -/
def World.initial (profiles : Table Text Profile) : World where
  runs := ∅
  profiles := profiles
  jobs := []
  created := []
  objects := []
  issued := []
  locks := fun _ => none
  calls := fun _ => none

def createAlone (c : Nat) (runId : Uuid) (request : CreateRunRequest) (now : Instant) : List Act :=
  [.createRead c runId request none now, .storeInput c, .startJob c .created now, .insertCommit c]

def admitAlone (c : Nat) (now : Instant) : List Act :=
  [.admitCount c, .admitSelect c now, .admitNext c .created, .admitCommit c]

def changeAlone (c : Nat) (runId : Uuid) (change : RunChange) (now : Instant) : List Act :=
  [.readRow c runId change now, .commitRow c]

/-- A database with one profile, `default`. -/
def sampleProfiles : Table Text Profile :=
  AList.singleton "default".toList
    { pdeImage := "pde:1".toList, envVars := [], resources := [], createdAt := 0, updatedAt := 0 }

/-- Parsers that accept nothing. -/
def sampleParsers : Parsers := { fromIsoFormat := fun _ => none, jsonLoads := fun _ => none }

/-- The smallest request. -/
def sampleRequest : CreateRunRequest := { pipelineData := "stages: []".toList }

/-- An operator that has only the profile `default`. -/
def sampleWorld : World := World.initial sampleProfiles

/-- The row of an id after a list of labels. -/
def rowAfter (w : World) (acts : List Act) (id : Uuid) : Option Run :=
  ((system {} sampleParsers).exec w acts).bind fun w' => w'.runs.lookup id

end PdeOperator.Lifecycle
