import PdeOperator.ScheduleDispatcher
import PdeOperator.RunQueue

/-! `ScheduleDispatcher.fire_due_once` after the claim: the claimed schedules are fired one after the
other. Only the creation of the run is guarded in `_fire`; an exception of the query for the row or of
`record_fire` ends the tick, and a database error leaves a session that cannot commit any more. -/

namespace PdeOperator
open Base

namespace ScheduleDispatcher

/-- How `RunInputStorage.load` raises, with the text of the exception. -/
inductive LoadError where
  | notAvailable (message : Text)
  | other (message : Text)
  deriving DecidableEq

/-- How the calls to the database, the object store and Kubernetes end. -/
structure FireCalls where
  /-- `none`: the query raises; `some none`: the row is gone. -/
  getSchedule : Option (Option ScheduledRun)
  loadInput : Except LoadError RunInputPayload
  /-- `none`: the query raises. -/
  getProfile : Option (Option Profile)
  runId : Uuid
  /-- The text of the exception of `RunInputStorage.store`. -/
  storeInput : Option Text := none
  createJob : JobOutcome := .created
  createdAt : Instant
  /-- The commit and the refresh of the new run do not raise. -/
  commitRun : Bool := true
  refreshRun : Bool := true
  /-- The schedule is deleted before the result is recorded. -/
  rowDeleted : Bool := false
  commitResult : Bool := true
  refreshResult : Bool := true

/-- The exceptions of `fire`. -/
inductive FireError where
  /-- `ScheduleFireError` -/
  | inputUnavailable (message : Text)
  | load (message : Text)
  | profileNotFound (profileId : Text)
  | inputStorage (message : Text)
  | jobCreation (jobName : Text)
  | database
  deriving DecidableEq

/-- A session after a database error raises on every further use. -/
inductive SessionState where
  | usable | failed
  deriving DecidableEq

/-- How `_fire` ends: `none` when an exception leaves it. The run is committed as soon as its own
commit has succeeded. -/
structure FireEnd where
  fired : Option Bool
  run : Option (Uuid × Run) := none
  recorded : Option ScheduledRun := none
  deriving DecidableEq

section Fire

variable (settings : Settings) (messageOf : FireError → Text)

/-- `RunService.create_run` up to its commit. -/
def newRun (scheduleId : Uuid) (request : CreateRunRequest) (calls : FireCalls) :
    Except FireError Run × SessionState :=
  match calls.getProfile with
  | none => (.error .database, .failed)
  | some none => (.error (.profileNotFound request.profileId), .usable)
  | some (some profile) =>
      match calls.storeInput with
      | some message => (.error (.inputStorage message), .usable)
      | none =>
          let run := RunService.createRun settings calls.runId request profile
            (some (scheduleTriggerRef scheduleId)) calls.createdAt
          if settings.queueEnabled || !settings.k8sJobCreationEnabled then (.ok run, .usable)
          else if calls.createJob = .created then
            (.ok (RunService.startRunJobNow calls.createdAt calls.runId run), .usable)
          -- the session is rolled back before `JobCreationError` is raised again
          else (.error (.jobCreation (RunService.jobName calls.runId)), .usable)

/-- `ScheduleService.fire` -/
def fire (scheduleId : Uuid) (row : ScheduledRun) (calls : FireCalls) :
    Except FireError (Uuid × Run) × SessionState :=
  match calls.loadInput with
  | .error (.notAvailable message) =>
      (.error (.inputUnavailable ("Stored run input is unavailable: ".toList ++ message)), .usable)
  | .error (.other message) => (.error (.load message), .usable)
  | .ok payload =>
      match newRun settings scheduleId (ScheduleService.fireRequest row payload) calls with
      | (.error cause, session) => (.error cause, session)
      | (.ok run, session) =>
          if calls.commitRun && calls.refreshRun then (.ok (calls.runId, run), session)
          else (.error .database, .failed)

/-- The run that is in the database after `fire`: its commit counts even if the refresh raises. -/
def committedRun (scheduleId : Uuid) (row : ScheduledRun) (calls : FireCalls) : Option (Uuid × Run) :=
  match calls.loadInput with
  | .error _ => none
  | .ok payload =>
      match (newRun settings scheduleId (ScheduleService.fireRequest row payload) calls).1 with
      | .error _ => none
      | .ok run => if calls.commitRun then some (calls.runId, run) else none

/-- `record_fire`: the committed row, and whether the call returns. -/
def recordFire (session : SessionState) (calls : FireCalls) (work : ScheduledRun) :
    Option ScheduledRun × Bool :=
  if session = .failed || calls.rowDeleted || !calls.commitResult then (none, false)
  else (some work, calls.refreshResult)

/-- `_fire` -/
def fireSchedule (now : Instant) (scheduleId : Uuid) (calls : FireCalls) : FireEnd :=
  match calls.getSchedule with
  | none => { fired := none }
  | some none => { fired := some false }
  | some (some row) =>
      let run := committedRun settings scheduleId row calls
      match fire settings scheduleId row calls with
      | (.error cause, session) =>
          let (recorded, returns) := recordFire session calls
            (ScheduleService.applyFireResult now .failed none (some ((messageOf cause).take 500)) row)
          { fired := if returns then some false else none, run, recorded }
      | (.ok (runId, _), session) =>
          let (recorded, returns) := recordFire session calls
            (ScheduleService.applyFireResult now .success (some runId) none row)
          { fired := if returns then some true else none, run, recorded }

/-- The loop of `fire_due_once`: the schedules that are attempted, and the count of the fired ones
unless an exception ends the tick. -/
def fireAll (now : Instant) (calls : Uuid → FireCalls) : List Uuid → List Uuid × Option Nat
  | [] => ([], some 0)
  | id :: ids =>
      match (fireSchedule settings messageOf now id (calls id)).fired with
      | none => ([id], none)
      | some fired =>
          let (attempted, count) := fireAll now calls ids
          (id :: attempted, count.map (· + fired.toNat))

end Fire

/-! ### When an exception ends the tick -/

variable (settings : Settings)

/-- A Job has to be created at once, and that fails. -/
def jobFails (calls : FireCalls) : Bool :=
  !(settings.queueEnabled || !settings.k8sJobCreationEnabled) && calls.createJob != .created

/-- A database error in the creation of the run: the profile cannot be read, or the run that is ready
cannot be committed or refreshed. -/
def databaseFails (calls : FireCalls) : Bool :=
  match calls.loadInput, calls.getProfile with
  | .ok _, none => true
  | .ok _, some (some _) => calls.storeInput.isNone && !jobFails settings calls &&
      !(calls.commitRun && calls.refreshRun)
  | _, _ => false

/-- The row cannot be read, or it is there and the result of its fire cannot be recorded: the session
has failed, the row has been deleted, or the commit or the refresh raises. -/
def leavesTick (calls : FireCalls) : Bool :=
  match calls.getSchedule with
  | none => true
  | some none => false
  | some (some _) => databaseFails settings calls || calls.rowDeleted || !calls.commitResult ||
      !calls.refreshResult

variable {settings} {messageOf : FireError → Text} {now : Instant} {scheduleId : Uuid}
  {row : ScheduledRun} {calls : FireCalls}

/-- A run is made exactly if the profile is there, its input is stored and no Job creation fails. -/
theorem newRun_some {request : CreateRunRequest} {profile : Profile}
    (hprofile : calls.getProfile = some (some profile)) :
    (newRun settings scheduleId request calls).2 = .usable ∧
      ((∃ run, (newRun settings scheduleId request calls).1 = .ok run) ↔
        (calls.storeInput.isNone && !jobFails settings calls) = true) := by
  unfold newRun jobFails
  rw [hprofile]
  cases calls.storeInput with
  | some message => simp
  | none =>
      dsimp only
      cases hlater : (settings.queueEnabled || !settings.k8sJobCreationEnabled) with
      | true => simp
      | false =>
          by_cases hcreated : calls.createJob = .created
          · simp [hcreated]
          · simp [hcreated]

/-- `fire` leaves a failed session exactly after a database error. -/
theorem session_fire : (fire settings scheduleId row calls).2 = .failed ↔
    databaseFails settings calls = true := by
  unfold fire databaseFails
  cases calls.loadInput with
  | error cause => cases cause <;> simp
  | ok payload =>
      cases hprofile : calls.getProfile with
      | none => simp [newRun, hprofile]
      | some found =>
          cases found with
          | none => simp [newRun, hprofile]
          | some profile =>
              dsimp only
              generalize houtcome : newRun settings scheduleId
                (ScheduleService.fireRequest row payload) calls = outcome
              obtain ⟨hsession, hmade⟩ := houtcome ▸ newRun_some hprofile
              obtain ⟨result, session⟩ := outcome
              obtain rfl : session = .usable := hsession
              cases result with
              | error cause =>
                  have hnone : ¬(calls.storeInput.isNone && !jobFails settings calls) = true :=
                    fun hready => by
                      obtain ⟨run, hrun⟩ := hmade.mpr hready
                      cases hrun
                  rw [Bool.not_eq_true] at hnone
                  simp [hnone]
              | ok run =>
                  have hready := hmade.mp ⟨run, rfl⟩
                  rw [hready, Bool.true_and]
                  dsimp only
                  split
                  · next hcommits => simp [hcommits]
                  · next hcommits =>
                    rw [Bool.not_eq_true] at hcommits
                    simp [hcommits]

theorem recordFire_raises {session : SessionState} {work : ScheduledRun} :
    (recordFire session calls work).2 = false ↔
      session = .failed ∨ calls.rowDeleted = true ∨ calls.commitResult = false ∨
        calls.refreshResult = false := by
  unfold recordFire
  cases session <;> cases calls.rowDeleted <;> cases calls.commitResult <;> simp

/-- The exceptions that end the tick are those that `leavesTick` names. -/
theorem fireSchedule_raises : (fireSchedule settings messageOf now scheduleId calls).fired = none ↔
    leavesTick settings calls = true := by
  unfold fireSchedule leavesTick
  cases calls.getSchedule with
  | none => simp
  | some found =>
      cases found with
      | none => simp
      | some row =>
          have hsession : (fire settings scheduleId row calls).2 = .failed ↔
              databaseFails settings calls = true := session_fire
          have hrecord : ∀ (session : SessionState) (work : ScheduledRun),
              (session = .failed ↔ databaseFails settings calls = true) →
              ((recordFire session calls work).2 = false ↔
                (databaseFails settings calls || calls.rowDeleted || !calls.commitResult ||
                  !calls.refreshResult) = true) := by
            intro session work hfailed
            rw [recordFire_raises, hfailed]
            simp only [Bool.or_eq_true, Bool.not_eq_true', or_assoc]
          dsimp only
          generalize fire settings scheduleId row calls = outcome at hsession ⊢
          obtain ⟨result, session⟩ := outcome
          cases result with
          | error cause =>
              rw [← hrecord session (ScheduleService.applyFireResult now .failed none
                (some ((messageOf cause).take 500)) row) hsession]
              simp
          | ok run =>
              obtain ⟨runId, run⟩ := run
              rw [← hrecord session (ScheduleService.applyFireResult now .success (some runId) none row)
                hsession]
              simp

/-- The attempted schedules are the claimed ones up to the first exception. -/
theorem fireAll_attempted {calls : Uuid → FireCalls} {ids : List Uuid} :
    (fireAll settings messageOf now calls ids).1 = ids ↔
      ∀ id ∈ ids.dropLast, leavesTick settings (calls id) = false := by
  induction ids with
  | nil => simp [fireAll]
  | cons id ids ih =>
      rw [fireAll]
      cases hfired : (fireSchedule settings messageOf now id (calls id)).fired with
      | none =>
          have hleaves := fireSchedule_raises.mp hfired
          cases ids with
          | nil => simp
          | cons next ids => simp [hleaves]
      | some fired =>
          have hstays : leavesTick settings (calls id) = false := by
            rw [Bool.eq_false_iff]
            intro hleaves
            rw [fireSchedule_raises.mpr hleaves] at hfired
            cases hfired
          cases ids with
          | nil => simp [fireAll]
          | cons next ids =>
              dsimp only
              rw [List.cons.injEq, ih, List.dropLast_cons_cons, List.forall_mem_cons]
              simp [hstays]

theorem fireAll_prefix {calls : Uuid → FireCalls} {ids : List Uuid} :
    (fireAll settings messageOf now calls ids).1 <+: ids := by
  induction ids with
  | nil => exact List.prefix_refl _
  | cons id ids ih =>
      rw [fireAll]
      cases (fireSchedule settings messageOf now id (calls id)).fired with
      | none => exact ⟨ids, rfl⟩
      | some fired => exact List.cons_prefix_cons.mpr ⟨rfl, ih⟩

/-- A claim returns every schedule once. -/
theorem nodup_toFire {cron : CronLibrary} {active : Uuid → Bool}
    {schedules : Table Uuid ScheduledRun} {locked : Uuid → Bool} :
    ((toFire settings cron now active (selectDue settings schedules locked now)).map
      Prod.fst).Nodup := by
  rw [toFire, List.map_map]
  exact (nodup_selectDue settings schedules locked now).sublist
    (List.Sublist.map Prod.fst List.filter_sublist)

/-- Every claimed schedule is attempted exactly once, exactly if no exception leaves the fire of any
of them but the last. -/
theorem attempted_once_iff (settings : Settings) (messageOf : FireError → Text) (now : Instant)
    (calls : Uuid → FireCalls) (ids : List Uuid) (hnodup : ids.Nodup) :
    (∀ id ∈ ids, (fireAll settings messageOf now calls ids).1.count id = 1) ↔
      ∀ id ∈ ids.dropLast, leavesTick settings (calls id) = false := by
  have hall : (fireAll settings messageOf now calls ids).1 = ids ↔ _ := fireAll_attempted
  rw [← hall]
  constructor
  · intro hcount
    have hsub : ids ⊆ (fireAll settings messageOf now calls ids).1 := by
      intro id hid
      rw [← List.count_pos_iff, hcount id hid]
      exact Nat.one_pos
    have hle := (List.subperm_of_subset hnodup hsub).length_le
    exact fireAll_prefix.eq_of_length_le hle
  · intro hall id hid
    rw [hall]
    exact List.count_eq_one_of_mem hnodup hid

/-- All calls for a schedule whose queued run is created without any failure. -/
def sampleCalls (runId : Uuid) : FireCalls where
  getSchedule := some (some (sampleRow OverlapPolicy.allow))
  loadInput := .ok (.fromCreateRequest sampleRunRequest)
  getProfile := some (some
    { pdeImage := "pde:1".toList, envVars := [], resources := [], createdAt := 0, updatedAt := 0 })
  runId := runId
  createdAt := 0

/-- The first of two schedules is deleted before its result is recorded. -/
def firstDeleted (id : Uuid) : FireCalls :=
  { sampleCalls (id + 2) with rowDeleted := id == 1 }

/-- The second schedule is never attempted. -/
theorem firstDeleted_loses_second :
    ¬∀ (settings : Settings) (messageOf : FireError → Text) (now : Instant)
      (calls : Uuid → FireCalls) (ids : List Uuid), ids.Nodup →
        ∀ id ∈ ids, (fireAll settings messageOf now calls ids).1.count id = 1 := by
  intro h
  have hnone : (fireAll {} (fun _ => []) 0 firstDeleted [1, 2]).1.count 2 = 0 := by decide
  have hone := h {} (fun _ => []) 0 firstDeleted [1, 2] (by decide) 2 (by decide)
  rw [hnone] at hone
  cases hone

/-- The equivalence for a tick of two schedules. -/
theorem attempted_once_iff_twoSchedules :
    (∀ id ∈ [1, 2], (fireAll {} (fun _ => []) 0 sampleCalls [1, 2]).1.count id = 1) ↔
      ∀ id ∈ ([1, 2] : List Uuid).dropLast, leavesTick {} (sampleCalls id) = false :=
  attempted_once_iff {} (fun _ => []) 0 sampleCalls [1, 2] (by decide)

end ScheduleDispatcher
end PdeOperator
