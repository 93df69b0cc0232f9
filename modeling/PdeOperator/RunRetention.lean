import PdeOperator.QueueTick
import PdeOperator.ReconcilerTick

/-! What a retry needs while runs are created, retried, uploaded to, started, reconciled, deleted and
cleaned up, one call at a time: its own input and the state archive of its parent. `delete_run` and
`cleanup_older_than` look at one row at a time and never at the rows that name it as their parent. -/

namespace PdeOperator.Retention
open Base Lifecycle

structure World where
  runs : Table Uuid Run
  profiles : Table Text Profile
  /-- The keys of the stored objects. -/
  objects : List Text

/-- What happens around one `create_run` or `retry_run`: the id that `uuid4` returns, the clock, the
end of `create_run_job` and whether the commit fails. -/
structure CreateEnv where
  runId : Uuid
  now : Instant
  outcome : JobOutcome := .created
  commitFails : Bool := false

section Calls

variable (settings : Settings) (parsers : Parsers) (w : World)

/-- `_start_run_job_now`; `none` when `create_run_job` raises. -/
def startRunJobNow (env : CreateEnv) (run : Run) : Option Run :=
  if settings.queueEnabled || !settings.k8sJobCreationEnabled then some run
  else if env.outcome = .created then some (RunService.startRunJobNow env.now env.runId run)
  else none

/-- The end of `create_run` and `retry_run`: the input is stored, the Job is started and the row is
committed. A commit under an id that has a row fails. -/
def saveRun (env : CreateEnv) (run : Run) : World :=
  let stored := { w with objects := inputKey env.runId :: w.objects }
  match startRunJobNow settings env run with
  | none => stored
  | some run =>
      if env.commitFails || (w.runs.lookup env.runId).isSome then stored
      else { stored with runs := w.runs.insert env.runId run }

def createRun (env : CreateEnv) (request : CreateRunRequest) (triggeredBy : Option Text) : World :=
  match w.profiles.lookup request.profileId with
  | none => w
  | some profile =>
      saveRun settings w env
        (RunService.createRun settings env.runId request profile triggeredBy env.now)

def retryRun (env : CreateEnv) (parentId : Uuid) (request : Option RetryRunRequest) : World :=
  match w.runs.lookup parentId with
  | none => w
  | some parent =>
      match RunService.checkRetriable parent, w.profiles.lookup parent.profileId with
      | .ok (), some profile =>
          if artifactKey parentId .state ∈ w.objects ∧ inputKey parentId ∈ w.objects then
            saveRun settings w env
              (RunService.retryRun settings env.runId parentId parent profile request env.now)
          else w
      | _, _ => w

def uploadArtifacts (runId : Uuid) (uploads : Uploads) (now : Instant) (commitFails : Bool) : World :=
  match w.runs.lookup runId with
  | none => w
  | some run =>
      let stored := { w with objects := uploads.kinds.map (artifactKey runId) ++ w.objects }
      if commitFails then stored
      else
        { stored with
          runs := w.runs.insert runId (RunService.uploadArtifacts parsers now runId uploads run) }

def admitOnce (now : Instant) (outcomes : Uuid → JobOutcome) : World :=
  { w with runs := (QueueService.admitOnce settings now w.profiles outcomes w.runs).runs }

def reconcileOnce (now : Instant) (calls : Uuid → KubernetesCalls) : World :=
  { w with runs := (JobReconciler.reconcileOnce settings now calls w.runs).runs }

/-- The objects are deleted before the row is. -/
def deleteRun (commitFails : Bool) (runId : Uuid) : World :=
  match w.runs.lookup runId with
  | none => w
  | some _ =>
      { w with
        objects := w.objects.filter fun key => !(objectPrefix runId).isPrefixOf key
        runs := if commitFails then w.runs else w.runs.erase runId }

/-- `delete_run` in a loop; an exception is logged and the loop goes on. -/
def deleteRuns (commitFails : Uuid → Bool) : List Uuid → World → World
  | [], w => w
  | runId :: rest, w => deleteRuns commitFails rest (deleteRun w (commitFails runId) runId)

/-- `select(Run.id).where(Run.created_at < older_than).order_by(Run.created_at.asc())` -/
def selectOlder (olderThan : Instant) (runs : Table Uuid Run) : List Uuid :=
  ((runs.select fun _ run => run.createdAt < olderThan).insertionSort fun x y =>
    x.2.createdAt ≤ y.2.createdAt).map Prod.fst

def cleanupOlderThan (olderThan : Instant) (commitFails : Uuid → Bool) : World :=
  deleteRuns commitFails (selectOlder olderThan w.runs) w

end Calls

inductive RunCall where
  | createRun (env : CreateEnv) (request : CreateRunRequest) (triggeredBy : Option Text)
  | retryRun (env : CreateEnv) (parentId : Uuid) (request : Option RetryRunRequest)
  | uploadArtifacts (runId : Uuid) (uploads : Uploads) (now : Instant) (commitFails : Bool)
  | admitOnce (now : Instant) (outcomes : Uuid → JobOutcome)
  | reconcileOnce (now : Instant) (calls : Uuid → KubernetesCalls)
  | deleteRun (runId : Uuid) (commitFails : Bool)
  | cleanupOlderThan (olderThan : Instant) (commitFails : Uuid → Bool)

/-- What a call leaves behind, whether it raises or not. -/
def RunCall.run (settings : Settings) (parsers : Parsers) (w : World) : RunCall → World
  | .createRun env request triggeredBy => Retention.createRun settings w env request triggeredBy
  | .retryRun env parentId request => Retention.retryRun settings w env parentId request
  | .uploadArtifacts runId uploads now commitFails =>
      Retention.uploadArtifacts parsers w runId uploads now commitFails
  | .admitOnce now outcomes => Retention.admitOnce settings w now outcomes
  | .reconcileOnce now calls => Retention.reconcileOnce settings w now calls
  | .deleteRun runId commitFails => Retention.deleteRun w commitFails runId
  | .cleanupOlderThan olderThan commitFails => Retention.cleanupOlderThan w olderThan commitFails

/-- The calls one after the other. -/
def callSystem (settings : Settings) (parsers : Parsers) : System World RunCall where
  step w call := some (call.run settings parsers w)

/-! ### What a retry needs -/

/-- A row that is the retry of another run and has not ended. -/
structure OpenRetry (w : World) (id : Uuid) (run : Run) (parentId : Uuid) : Prop where
  row : w.runs.lookup id = some run
  parent : run.retryOfRunId = some parentId
  active : run.isTerminal = false

/-- The objects that the Job of every open retry fetches are stored. -/
def RetriesReady (w : World) : Prop :=
  ∀ id run parentId, OpenRetry w id run parentId →
    inputKey id ∈ w.objects ∧ artifactKey parentId .state ∈ w.objects

/-- A deletion of some runs leaves every open retry alone, together with its parent, or takes its row
along. -/
def SparesRetries (w : World) (deleted : Uuid → Prop) (commitFails : Uuid → Bool) : Prop :=
  ∀ id run parentId, OpenRetry w id run parentId →
    (deleted id ∧ commitFails id = false) ∨
      (¬deleted id ∧ ¬(deleted parentId ∧ (w.runs.lookup parentId).isSome = true))

/-- The call deletes no run that an open retry needs. -/
def KeepsRetries (w : World) : RunCall → Prop
  | .deleteRun runId commitFails => SparesRetries w (· = runId) fun _ => commitFails
  | .cleanupOlderThan olderThan commitFails =>
      SparesRetries w (fun id => ∃ run, w.runs.lookup id = some run ∧ run.createdAt < olderThan)
        commitFails
  | _ => True

variable {settings : Settings} {parsers : Parsers} {w w' : World} {id : Uuid} {run : Run}
  {ids : List Uuid} {commitFails : Uuid → Bool} {tail : Text}

theorem lookup_deleteRun {fails : Bool} {runId : Uuid} :
    (deleteRun w fails runId).runs.lookup id =
      if id = runId ∧ fails = false then none else w.runs.lookup id := by
  unfold deleteRun
  cases hrow : w.runs.lookup runId with
  | none =>
      dsimp only
      split
      · next h => rw [h.1, hrow]
      · rfl
  | some run =>
      dsimp only
      cases fails with
      | true => simp
      | false =>
          by_cases hid : id = runId
          · rw [hid, if_neg Bool.false_ne_true, if_pos ⟨rfl, rfl⟩]
            exact AList.lookup_erase _ _
          · rw [if_neg Bool.false_ne_true, if_neg fun h => hid h.1]
            exact AList.lookup_erase_ne hid

theorem mem_deleteRun {fails : Bool} {runId : Uuid} :
    Uuid.str id ++ '/' :: tail ∈ (deleteRun w fails runId).objects ↔
      Uuid.str id ++ '/' :: tail ∈ w.objects ∧
        ¬(id = runId ∧ (w.runs.lookup id).isSome = true) := by
  unfold deleteRun
  cases hrow : w.runs.lookup runId with
  | none =>
      dsimp only
      have hnone : ¬(id = runId ∧ (w.runs.lookup id).isSome = true) := by
        rintro ⟨rfl, hsome⟩
        rw [hrow] at hsome
        cases hsome
      exact (and_iff_left hnone).symm
  | some run =>
      dsimp only
      rw [List.mem_filter, Bool.not_eq_true', ← Bool.not_eq_true, isPrefixOf_ownKey]
      refine and_congr_right fun _ => not_congr ⟨?_, fun h => h.1.symm⟩
      rintro rfl
      exact ⟨rfl, by rw [hrow]; rfl⟩

theorem lookup_deleteRuns :
    (deleteRuns commitFails ids w).runs.lookup id =
      if id ∈ ids ∧ commitFails id = false then none else w.runs.lookup id := by
  induction ids generalizing w with
  | nil => simp [deleteRuns]
  | cons runId rest ih =>
      rw [deleteRuns, ih, lookup_deleteRun]
      by_cases hid : id = runId
      · subst hid
        cases hfails : commitFails id with
        | true => simp
        | false => simp
      · simp [hid]

theorem mem_deleteRuns :
    Uuid.str id ++ '/' :: tail ∈ (deleteRuns commitFails ids w).objects ↔
      Uuid.str id ++ '/' :: tail ∈ w.objects ∧
        ¬(id ∈ ids ∧ (w.runs.lookup id).isSome = true) := by
  induction ids generalizing w with
  | nil => simp [deleteRuns]
  | cons runId rest ih =>
      rw [deleteRuns, ih, mem_deleteRun, lookup_deleteRun]
      by_cases hid : id = runId
      · subst hid
        cases commitFails id with
        | true => cases w.runs.lookup id <;> simp
        | false => simp
      · simp [hid]

/-- After a deletion the open retries have what they need exactly if it spares them. -/
theorem retriesReady_deleteRuns_iff (hready : RetriesReady w) :
    RetriesReady (deleteRuns commitFails ids w) ↔ SparesRetries w (· ∈ ids) commitFails := by
  have hneeds : ∀ id parentId, inputKey id ∈ (deleteRuns commitFails ids w).objects ∧
      artifactKey parentId .state ∈ (deleteRuns commitFails ids w).objects ↔
        (inputKey id ∈ w.objects ∧ ¬(id ∈ ids ∧ (w.runs.lookup id).isSome = true)) ∧
          artifactKey parentId .state ∈ w.objects ∧
            ¬(parentId ∈ ids ∧ (w.runs.lookup parentId).isSome = true) :=
    fun id parentId => and_congr mem_deleteRuns mem_deleteRuns
  constructor
  · intro hafter id run parentId hopen
    by_cases herased : id ∈ ids ∧ commitFails id = false
    · exact Or.inl herased
    · have hrow : (deleteRuns commitFails ids w).runs.lookup id = some run := by
        rw [lookup_deleteRuns, if_neg herased, hopen.row]
      obtain ⟨⟨-, hown⟩, -, hparent⟩ :=
        (hneeds id parentId).mp (hafter id run parentId ⟨hrow, hopen.parent, hopen.active⟩)
      refine Or.inr ⟨fun hid => hown ⟨hid, by rw [hopen.row]; rfl⟩, hparent⟩
  · intro hspares id run parentId hopen
    have hrow := hopen.row
    rw [lookup_deleteRuns] at hrow
    split at hrow
    · cases hrow
    · next hkept =>
      have hbefore : OpenRetry w id run parentId := ⟨hrow, hopen.parent, hopen.active⟩
      obtain ⟨hid, hparent⟩ := (hspares id run parentId hbefore).resolve_left hkept
      obtain ⟨hinput, hstate⟩ := hready id run parentId hbefore
      exact (hneeds id parentId).mpr ⟨⟨hinput, fun h => hid h.1⟩, hstate, hparent⟩

theorem mem_selectOlder {olderThan : Instant} {runs : Table Uuid Run} :
    id ∈ selectOlder olderThan runs ↔
      ∃ run, runs.lookup id = some run ∧ run.createdAt < olderThan := by
  rw [selectOlder, List.mem_map]
  constructor
  · rintro ⟨⟨key, run⟩, hmem, rfl⟩
    obtain ⟨hrow, holder⟩ := Table.mem_select.mp ((List.mem_insertionSort _).mp hmem)
    exact ⟨run, hrow, of_decide_eq_true holder⟩
  · rintro ⟨run, hrow, holder⟩
    refine ⟨(id, run), (List.mem_insertionSort _).mpr (Table.mem_select.mpr ⟨hrow, ?_⟩), rfl⟩
    exact decide_eq_true holder

/-- What these calls see of the operator. -/
def ofLifecycle (v : Lifecycle.World) : World := ⟨v.runs, v.profiles, v.objects⟩

/-- The labels of a deletion that nothing interrupts. -/
def deleteActs (c : Nat) (runId : Uuid) (commitFails : Bool) : List Act :=
  [.deleteRead c runId, .deleteObjects c [], if commitFails then .crash c else .deleteCommit c]

/-- A deletion that nothing interrupts is an execution of the lifecycle system. -/
theorem exec_deleteActs {v : Lifecycle.World} {c : Nat} {fails : Bool} (hcall : v.calls c = none)
    (hlock : v.locks id = none) (hrow : (v.runs.lookup id).isSome = true) :
    ∃ v', (system settings parsers).exec v (deleteActs c id fails) = some v' ∧
      ofLifecycle v' = deleteRun (ofLifecycle v) fails id := by
  obtain ⟨run, hrun⟩ := Option.isSome_iff_exists.mp hrow
  have hdelete : deleteRun (ofLifecycle v) fails id =
      { ofLifecycle v with
        objects := v.objects.filter fun key => !(objectPrefix id).isPrefixOf key
        runs := if fails then v.runs else v.runs.erase id } := by
    simp [deleteRun, ofLifecycle, hrun]
  set opened := v.spawn c (.deleting id false) with hopened
  have hread : step settings parsers v (.deleteRead c id) = some opened := by
    simp [step, deleteRead, hcall, hrow, hopened]
  have hcall₁ : opened.calls c = some (.deleting id false) := Function.update_self ..
  set emptied := { opened.spawn c (.deleting id true) with
    objects := deleteUnder id [] opened.objects } with hemptied
  have hobjects : step settings parsers opened (.deleteObjects c []) = some emptied := by
    simp only [step, Lifecycle.deleteObjects, hcall₁]
    rfl
  have hcall₂ : emptied.calls c = some (.deleting id true) := Function.update_self ..
  have hfirst : ∀ {a v'}, step settings parsers emptied a = some v' →
      (system settings parsers).exec v [.deleteRead c id, .deleteObjects c [], a] = some v' := by
    intro a v' hstep
    refine (System.exec_cons_eq_some _).mpr ⟨opened, hread, ?_⟩
    refine (System.exec_cons_eq_some _).mpr ⟨emptied, hobjects, ?_⟩
    exact (System.exec_cons_eq_some _).mpr ⟨v', hstep, rfl⟩
  rw [hdelete]
  cases fails with
  | true =>
      refine ⟨emptied.finish c, hfirst ?_, rfl⟩
      simp [step, crash, hcall₂]
  | false =>
      refine ⟨{ emptied with runs := v.runs.erase id }.finish c, hfirst ?_, rfl⟩
      have hrow₂ : (emptied.runs.lookup id).isSome = true := hrow
      have hlock₂ : emptied.locks id = none := hlock
      rw [if_neg Bool.false_ne_true]
      simp only [step, deleteCommit, hcall₂, hrow₂, hlock₂]
      rfl

/-- Stored objects stay, and every open retry was one before or finds what it needs. -/
theorem RetriesReady.extend (hready : RetriesReady w)
    (hobjects : ∀ key ∈ w.objects, key ∈ w'.objects)
    (hrows : ∀ id run parentId, OpenRetry w' id run parentId →
      (∃ old, OpenRetry w id old parentId) ∨
        (inputKey id ∈ w'.objects ∧ artifactKey parentId .state ∈ w'.objects)) :
    RetriesReady w' := by
  intro id run parentId hopen
  rcases hrows id run parentId hopen with ⟨old, hold⟩ | hneeds
  · obtain ⟨hinput, hstate⟩ := hready id old parentId hold
    exact ⟨hobjects _ hinput, hobjects _ hstate⟩
  · exact hneeds

/-- The objects are the same, and every row with its parent was there before, with the same parent and
not ended. -/
theorem RetriesReady.rows (hready : RetriesReady w) (hobjects : w'.objects = w.objects)
    (hrows : ∀ id run, w'.runs.lookup id = some run → ∃ old, w.runs.lookup id = some old ∧
      run.retryOfRunId = old.retryOfRunId ∧ (old.isTerminal = true → run.isTerminal = true)) :
    RetriesReady w' := by
  refine hready.extend (fun key hkey => hobjects ▸ hkey) fun id run parentId hopen => Or.inl ?_
  obtain ⟨old, hold, hparent, hended⟩ := hrows id run hopen.row
  refine ⟨old, hold, hparent ▸ hopen.parent, ?_⟩
  rw [← Bool.not_eq_true]
  intro hterminal
  have hrun := hended hterminal
  rw [hopen.active] at hrun
  cases hrun

/-- A new row, if it is a retry, with the archive of its parent. -/
theorem retriesReady_saveRun {env : CreateEnv} {run : Run} (hready : RetriesReady w)
    (hparent : ∀ parentId, run.retryOfRunId = some parentId →
      artifactKey parentId .state ∈ w.objects) :
    RetriesReady (saveRun settings w env run) := by
  have hstored : RetriesReady { w with objects := inputKey env.runId :: w.objects } :=
    hready.extend (fun _ hkey => List.mem_cons_of_mem _ hkey)
      fun id old parentId hopen => Or.inl ⟨old, hopen.row, hopen.parent, hopen.active⟩
  have hstart : ∀ started, startRunJobNow settings env run = some started →
      started.retryOfRunId = run.retryOfRunId := by
    intro started hstarted
    unfold startRunJobNow at hstarted
    split at hstarted
    · cases hstarted
      rfl
    · split at hstarted
      · cases hstarted
        rfl
      · cases hstarted
  unfold saveRun
  cases hrun : startRunJobNow settings env run with
  | none => exact hstored
  | some started =>
      dsimp only
      split
      · exact hstored
      · refine hready.extend (fun _ hkey => List.mem_cons_of_mem _ hkey) fun id old parentId hopen => ?_
        have hrow := hopen.row
        by_cases hid : id = env.runId
        · right
          rw [hid, AList.lookup_insert, Option.some.injEq] at hrow
          have hkey := hparent parentId ((hstart started hrun).symm.trans (hrow ▸ hopen.parent))
          exact ⟨hid ▸ List.mem_cons_self, List.mem_cons_of_mem _ hkey⟩
        · left
          rw [AList.lookup_insert_ne hid] at hrow
          exact ⟨old, hrow, hopen.parent, hopen.active⟩

theorem retriesReady_retryRun {env : CreateEnv} {parentId : Uuid} {request : Option RetryRunRequest}
    (hready : RetriesReady w) : RetriesReady (retryRun settings w env parentId request) := by
  unfold retryRun
  split
  · exact hready
  · split
    · split
      · next hstored =>
        refine retriesReady_saveRun hready fun parent hparent => ?_
        obtain rfl : parentId = parent := Option.some.inj hparent
        exact hstored.1
      · exact hready
    · exact hready

theorem retriesReady_uploadArtifacts {runId : Uuid} {uploads : Uploads} {now : Instant} {fails : Bool}
    (hready : RetriesReady w) :
    RetriesReady (uploadArtifacts parsers w runId uploads now fails) := by
  unfold uploadArtifacts
  cases hrun : w.runs.lookup runId with
  | none => exact hready
  | some run =>
      have hstored : RetriesReady
          { w with objects := uploads.kinds.map (artifactKey runId) ++ w.objects } :=
        hready.extend (fun _ hkey => List.mem_append_right _ hkey)
          fun id old parentId hopen => Or.inl ⟨old, hopen.row, hopen.parent, hopen.active⟩
      dsimp only
      split
      · exact hstored
      · refine hstored.rows rfl fun id new hrow => ?_
        by_cases hid : id = runId
        · subst hid
          rw [AList.lookup_insert, Option.some.injEq] at hrow
          obtain ⟨_, _, _, _, huploaded⟩ := RunService.uploadArtifacts_columns id uploads
          rw [← hrow, huploaded]
          exact ⟨run, hrun, rfl, fun hterminal => hterminal⟩
        · rw [AList.lookup_insert_ne hid] at hrow
          exact ⟨new, hrow, rfl, fun hterminal => hterminal⟩

theorem admitRun_retryOfRunId {now : Instant} {profile : Option Profile} {outcome : JobOutcome} :
    (QueueService.admitRun now id profile outcome run).retryOfRunId = run.retryOfRunId := by
  cases profile with
  | none => rfl
  | some profile => cases outcome <;> rfl

theorem retriesReady_admitOnce {now : Instant} {outcomes : Uuid → JobOutcome}
    (hready : RetriesReady w) : RetriesReady (admitOnce settings w now outcomes) := by
  refine hready.rows rfl fun id run hrow => ?_
  by_cases hid : id ∈ (QueueService.attempted settings w.runs).map Prod.fst
  · obtain ⟨⟨key, old⟩, hx, rfl⟩ := List.mem_map.mp hid
    obtain ⟨hold, hqueued⟩ := QueueService.lookup_of_mem_attempted hx
    obtain rfl := Option.some.inj ((QueueService.lookup_admitOnce hx).symm.trans hrow)
    refine ⟨old, hold, ?_, fun hterminal => ?_⟩
    · exact admitRun_retryOfRunId
    · rw [Run.not_isTerminal_of_isQueued hqueued] at hterminal
      cases hterminal
  · have hold := (QueueService.lookup_admitOnce_other hid).symm.trans hrow
    exact ⟨run, hold, rfl, fun hterminal => hterminal⟩

theorem retriesReady_reconcileOnce {now : Instant} {calls : Uuid → KubernetesCalls}
    (hready : RetriesReady w) : RetriesReady (reconcileOnce settings w now calls) := by
  refine hready.rows rfl fun id run hrow => ?_
  have hsame : w.runs.lookup id = some run → ∃ old, w.runs.lookup id = some old ∧
      run.retryOfRunId = old.retryOfRunId ∧ (old.isTerminal = true → run.isTerminal = true) :=
    fun hold => ⟨run, hold, rfl, fun hterminal => hterminal⟩
  cases hraises : JobReconciler.tickRaises settings now calls w.runs with
  | true =>
      rw [reconcileOnce, JobReconciler.reconcileOnce_of_raises hraises] at hrow
      exact hsame hrow
  | false =>
      by_cases htracked : ∃ old, w.runs.lookup id = some old ∧ old.isTracked = true
      · obtain ⟨old, hold, htracked⟩ := htracked
        have hquiet := List.any_eq_false.mp hraises (id, old) (Table.mem_select.mpr ⟨hold, htracked⟩)
        obtain ⟨result, hresult⟩ := JobReconciler.exists_reconcileRun (Bool.not_eq_true _ ▸ hquiet)
        have hnew := JobReconciler.lookup_reconcileOnce hraises hold htracked hresult
        obtain rfl := Option.some.inj (hnew.symm.trans hrow)
        obtain ⟨_, _, _, _, hcolumns⟩ := JobReconciler.reconcileRun_columns hresult
        refine ⟨old, hold, by rw [hcolumns], fun hterminal => ?_⟩
        rw [(Run.isTracked_iff.mp htracked).2] at hterminal
        cases hterminal
      · apply hsame
        rw [← hrow]
        refine (JobReconciler.lookup_reconcileOnce_other settings now calls fun old hold => ?_).symm
        exact Bool.eq_false_iff.mpr fun htrue => htracked ⟨old, hold, htrue⟩

/-- A call keeps what the open retries need exactly if it deletes none of it. -/
theorem keepsRetries_iff (hready : RetriesReady w) (call : RunCall) :
    KeepsRetries w call ↔ RetriesReady (call.run settings parsers w) := by
  cases call with
  | createRun env request triggeredBy =>
      refine iff_of_true trivial ?_
      unfold RunCall.run createRun
      dsimp only
      split
      · exact hready
      · refine retriesReady_saveRun hready fun parentId hparent => ?_
        cases hparent
  | retryRun env parentId request => exact iff_of_true trivial (retriesReady_retryRun hready)
  | uploadArtifacts runId uploads now commitFails =>
      exact iff_of_true trivial (retriesReady_uploadArtifacts hready)
  | admitOnce now outcomes => exact iff_of_true trivial (retriesReady_admitOnce hready)
  | reconcileOnce now calls => exact iff_of_true trivial (retriesReady_reconcileOnce hready)
  | deleteRun runId commitFails =>
      have hone : deleteRuns (fun _ => commitFails) [runId] w = deleteRun w commitFails runId := rfl
      have hiff := @retriesReady_deleteRuns_iff w [runId] (fun _ => commitFails) hready
      rw [hone] at hiff
      simp only [List.mem_singleton] at hiff
      exact hiff.symm
  | cleanupOlderThan olderThan commitFails =>
      have hiff := @retriesReady_deleteRuns_iff w (selectOlder olderThan w.runs) commitFails hready
      simp only [mem_selectOlder] at hiff
      exact hiff.symm

/-- From a state in which every open retry has its input and the state archive of its parent, all later
states are such exactly if no deletion and no cleanup takes away what an open retry needs. -/
theorem retriesReady_iff {calls : List RunCall} (hready : RetriesReady w)
    (hexec : (callSystem settings parsers).exec w calls = some w') :
    (∀ before after u, calls = before ++ after →
        (callSystem settings parsers).exec w before = some u → RetriesReady u) ↔
      (callSystem settings parsers).Meets KeepsRetries w calls := by
  refine System.always_iff_meets (I := fun _ => True) (fun _ _ => trivial) ?_ trivial hready hexec
  intro u call v _ hu hstep
  obtain rfl : call.run settings parsers u = v := Option.some.inj hstep
  exact keepsRetries_iff hu call

/-- An operator on an empty database. -/
def World.empty (profiles : Table Text Profile) : World where
  runs := ∅
  profiles := profiles
  objects := []

theorem World.empty_retriesReady (profiles : Table Text Profile) :
    RetriesReady (World.empty profiles) := by
  intro id run parentId hopen
  have hrow := hopen.row
  rw [World.empty, AList.lookup_empty] at hrow
  cases hrow

/-- A run uploads its state, fails and is retried; the retry waits in the queue. -/
def queuedRetry : List RunCall :=
  [.createRun { runId := 1, now := 0 } sampleRequest none, .admitOnce 1 fun _ => .created,
    .uploadArtifacts 1 { state := some [80, 75, 3, 4] } 2 false,
    .reconcileOnce 3 fun _ => { observed := ⟨some .failed, some none, true⟩ },
    .retryRun { runId := 2, now := 4 } 1 none]

/-- The retry of run 1 after the calls, and whether the archive of run 1 is stored. -/
def retryAfter (calls : List RunCall) : Option (Option (Option Uuid × Bool) × Bool) :=
  ((callSystem {} sampleParsers).exec (World.empty sampleProfiles) calls).map fun w =>
    ((w.runs.lookup 2).map fun run => (run.retryOfRunId, run.isTerminal),
      decide (artifactKey 1 .state ∈ w.objects))

/-- Then its parent is deleted. -/
theorem deleteRun_takes_parentState :
    ∃ w, (callSystem {} sampleParsers).exec (World.empty sampleProfiles)
        (queuedRetry ++ [.deleteRun 1 false]) = some w ∧ ¬RetriesReady w := by
  have hafter : retryAfter (queuedRetry ++ [.deleteRun 1 false]) =
      some (some (some 1, false), false) := by
    decide
  obtain ⟨w, hexec, hw⟩ := Option.map_eq_some_iff.mp hafter
  rw [Prod.mk.injEq, Option.map_eq_some_iff, decide_eq_false_iff_not] at hw
  obtain ⟨⟨run, hrow, hrun⟩, hgone⟩ := hw
  rw [Prod.mk.injEq] at hrun
  exact ⟨w, hexec, fun hready => hgone (hready 2 run 1 ⟨hrow, hrun.1, hrun.2⟩).2⟩

/-- Until then the retry finds what it needs. -/
theorem retriesReady_queuedRetry : ∃ w,
    (callSystem {} sampleParsers).exec (World.empty sampleProfiles) queuedRetry = some w ∧
      RetriesReady w := by
  have hrun : (retryAfter queuedRetry).isSome = true := by decide
  obtain ⟨x, hx⟩ := Option.isSome_iff_exists.mp hrun
  obtain ⟨w, hexec, -⟩ := Option.map_eq_some_iff.mp hx
  have hkeeps : (callSystem {} sampleParsers).Meets KeepsRetries (World.empty sampleProfiles)
      queuedRetry :=
    ⟨trivial, fun _ _ => ⟨trivial, fun _ _ => ⟨trivial, fun _ _ => ⟨trivial, fun _ _ =>
      ⟨trivial, fun _ _ => trivial⟩⟩⟩⟩⟩
  exact ⟨w, hexec, (retriesReady_iff (World.empty_retriesReady _) hexec).mpr hkeeps queuedRetry [] w
    (List.append_nil _).symm hexec⟩

end PdeOperator.Retention
