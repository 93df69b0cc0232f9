import PdeOperator.LifecycleJobs
import PdeOperator.LifecycleTerminal

/-! Between the queue and the reconciler. With the queue on, a run that has not ended is either waiting
for admission without a Job or carries a Job name, as long as no session loses a Job that it has
created and no delivery moves a run on that has no Job. -/

namespace PdeOperator.Lifecycle
open Base

variable {settings : Settings} {parsers : Parsers} {w w' : World} {id : Uuid}

/-- The step commits the delivery of an active status onto a row without a Job name. -/
def Strands (w : World) : Act → Prop
  | .commitRow c => ∃ status now id read work current,
      w.calls c = some (.writing (.deliverStatus status) now [] ⟨id, read, work⟩) ∧
        w.runs.lookup id = some current ∧ current.k8sJobName = none ∧
        deliveredStatus status read ≠ read.status ∧
        deliveredStatus status read ∈ [RunStatus.notStarted, .inProgress]
  | _ => False

/-- The step keeps track of all Jobs and strands no run. -/
def KeepsTended (w : World) (a : Act) : Prop := (∀ id, ¬LosesJob id w a) ∧ ¬Strands w a

variable (settings parsers) in
/-- Every run is in the care of the queue, of an open session or of the reconciler. -/
structure Tended (w : World) : Prop where
  sound : Sound settings parsers w
  behind : ∀ id, CopiesBehind w id
  created : ∀ id, RunService.jobName id ∈ w.created → Taken w id
  jobs : ∀ name ∈ w.jobs, name ∈ w.created
  traced : ∀ id, Traced w id
  waiting : ∀ id run, w.runs.lookup id = some run → run.k8sJobName = none →
    run.status = .queued ∨ run.isTerminal = true

theorem World.initial_tended (profiles : Table Text Profile) :
    Tended settings parsers (World.initial profiles) where
  sound := (World.initial_idle profiles).sound
  behind id := ⟨fun hx => absurd hx List.not_mem_nil, fun hx => absurd hx List.not_mem_nil⟩
  created id h := absurd h List.not_mem_nil
  jobs name h := absurd h List.not_mem_nil
  traced id run h := by
    rw [World.initial, AList.lookup_empty] at h
    cases h
  waiting id run h := by
    rw [World.initial, AList.lookup_empty] at h
    cases h

/-- A write-back that does not move a waiting row on leaves it waiting. -/
theorem waiting_writeBack {read work current : Run}
    (hcurrent : current.status = .queued ∨ current.isTerminal = true)
    (hwork : work.status = read.status ∨ work.status = .queued ∨ work.isTerminal = true) :
    (writeBack read work current).status = .queued ∨
      (writeBack read work current).isTerminal = true := by
  rw [Run.isTerminal, Run.writeBack_status]
  rcases hwork with hsame | hwork
  · rw [hsame, column_clean]
    exact hcurrent
  · rcases column_eq_or read.status work.status current.status with heq | heq
    · rw [heq]
      exact hcurrent
    · rw [heq]
      exact hwork

theorem waiting_change {c : Nat} {change : RunChange} {now : Instant} {read work current : Run}
    (hcall : w.calls c = some (.writing change now [] ⟨id, read, work⟩))
    (happly : change.apply parsers now id read = .ok work)
    (hrow : w.runs.lookup id = some current) (hnone : current.k8sJobName = none)
    (hok : ¬Strands w (.commitRow c)) :
    work.status = read.status ∨ work.status = .queued ∨ work.isTerminal = true := by
  cases change with
  | cancelRun =>
      obtain ⟨-, ⟨-, rfl⟩ | ⟨-, rfl⟩⟩ := RunService.cancelRun_ok happly
      · exact Or.inr (Or.inr rfl)
      · exact Or.inl rfl
  | deliverStatus status =>
      cases happly
      have hstatus : (RunService.deliverStatus parsers now status read).status =
          deliveredStatus status read := rfl
      rw [Run.isTerminal, hstatus]
      by_cases hsame : deliveredStatus status read = read.status
      · exact Or.inl hsame
      · right
        have hactive : deliveredStatus status read ∉ [RunStatus.notStarted, .inProgress] :=
          fun hmem => hok ⟨status, now, id, read, _, current, hcall, hrow, hnone, hsame, hmem⟩
        cases hcase : deliveredStatus status read <;> rw [hcase] at hactive <;> revert hactive <;>
          decide
  | deliverReport data =>
      cases happly
      exact Or.inl (RunService.deliverReport_same data).status
  | deliverLog =>
      cases happly
      exact Or.inl rfl
  | uploadArtifacts uploads =>
      cases happly
      exact Or.inl (RunService.uploadArtifacts_same id uploads).status

theorem waiting_step {a : Act} (hqueue : settings.queueEnabled = true)
    (hinv : Tended settings parsers w) (hok : KeepsTended w a)
    (h : step settings parsers w a = some w') {run : Run} (hrun : w'.runs.lookup id = some run)
    (hnone : run.k8sJobName = none) : run.status = .queued ∨ run.isTerminal = true := by
  cases rowStep_of_step hinv.sound h id with
  | same hrow => exact hinv.waiting id run (hrow ▸ hrun) hnone
  | change hcall happly hfree hrow =>
      rw [hrun] at hrow
      obtain ⟨current, hcurrent, rfl⟩ := Option.map_eq_some_iff.mp hrow.symm
      rw [Run.writeBack_k8sJobName, RunChange.apply_k8sJobName happly, column_clean] at hnone
      exact waiting_writeBack (hinv.waiting id current hcurrent hnone)
        (waiting_change hcall happly hcurrent hnone hok.2)
  | reconcile hcall hmem htracked hresult hwork hdirty hfree hrow =>
      -- A tracked copy has a Job name, and so has the row behind it.
      rw [hrun] at hrow
      obtain ⟨current, hcurrent, rfl⟩ := Option.map_eq_some_iff.mp hrow.symm
      rw [Run.writeBack_k8sJobName, hwork, (JobReconciler.reconcileRun_frame hresult).1,
        column_clean] at hnone
      have hcopy := (hinv.behind id).named (mem_copiesIn hcall (mem_readRows hmem)) hcurrent hnone
      have hnamed := (Run.isTracked_iff.mp htracked).1
      rw [hcopy] at hnamed
      cases hnamed
  | @start c now done started read work profile outcome hcall hmem hqueued hwork hlock hold hrow =>
      obtain rfl : work = run := Option.some.inj (hrow.symm.trans hrun)
      subst hwork
      cases profile with
      | none => exact Or.inr rfl
      | some profile =>
          cases outcome with
          | created => cases hnone
          | refused => exact Or.inl (Run.isQueued_iff.mp hqueued).1
          | lost => exact Or.inl (Run.isQueued_iff.mp hqueued).1
  | @insert c new hcall hvalid hold hrow =>
      obtain rfl : new = run := Option.some.inj (hrow.symm.trans hrun)
      rcases hvalid with hqueued | ⟨hsync, -⟩
      · exact Or.inl (Run.isQueued_iff.mp hqueued).1
      · rw [hqueue] at hsync
        cases hsync
  | erase hfree hrow =>
      rw [hrow] at hrun
      cases hrun

/-- With the queue on, Jobs are created for rows that are in the table. -/
theorem created_taken_step {a : Act} (hqueue : settings.queueEnabled = true)
    (hinv : Tended settings parsers w) (h : step settings parsers w a = some w')
    (hcreated : RunService.jobName id ∈ w'.created) : Taken w' id := by
  refine taken_step hinv.sound.valid ?_ h
  rcases createsJob_of_step h hcreated with hmem | hcreates
  · exact hinv.created id hmem
  · cases hcreates with
    | start hcall hprofile hmade hw' =>
        exact hinv.sound.consistent.taken (hinv.sound.consistent.held_eq hcall
          (List.mem_append_right _ List.mem_cons_self)).1
    | create hcall hsync =>
        rw [hqueue] at hsync
        cases hsync

theorem jobs_created_step {a : Act} (hinv : ∀ name ∈ w.jobs, name ∈ w.created)
    (h : step settings parsers w a = some w') : ∀ name ∈ w'.jobs, name ∈ w'.created := by
  intro name hname
  cases jobStep_of_step h with
  | same hjobs hcreated => exact hcreated ▸ hinv name (hjobs name hname)
  | start hcall hprofile hmade hw' =>
      subst hw'
      exact (List.mem_cons.mp hname).elim (fun heq => heq ▸ List.mem_cons_self)
        fun hmem => List.mem_cons_of_mem _ (hinv name hmem)
  | create hcall hsync hjobs hcreated =>
      rw [hjobs] at hname
      rw [hcreated]
      exact (List.mem_cons.mp hname).elim (fun heq => heq ▸ List.mem_cons_self)
        fun hmem => List.mem_cons_of_mem _ (hinv name hmem)

theorem tended_step {a : Act} (hqueue : settings.queueEnabled = true)
    (hinv : Tended settings parsers w) (hok : KeepsTended w a)
    (h : step settings parsers w a = some w') : Tended settings parsers w' where
  sound := sound_step hinv.sound h
  behind id := copiesBehind_step hinv.sound (hinv.behind id) h
  created id hcreated := created_taken_step hqueue hinv h hcreated
  jobs := jobs_created_step hinv.jobs h
  traced id run hrun hnone hcreated := by
    by_cases htaken : Taken w id
    · exact traced_step hinv.sound htaken (hinv.traced id) (hok.1 id) h run hrun hnone hcreated
    · -- The row is new: no Job of its name has been created.
      have hnew : w.runs.lookup id = none := by
        cases hrow : w.runs.lookup id with
        | none => rfl
        | some current => exact absurd (hinv.sound.consistent.taken hrow) htaken
      exfalso
      cases jobStep_of_step h with
      | same hjobs hsame => exact htaken (hinv.created id (hsame ▸ hcreated))
      | start hcall hprofile hmade hw' =>
          subst hw'
          rw [spawn_runs, addJob_runs, hnew] at hrun
          cases hrun
      | create hcall hsync hjobs hsame =>
          rw [hqueue] at hsync
          cases hsync
  waiting id run hrun hnone := waiting_step hqueue hinv hok h hrun hnone

/-- Whenever no call is in flight, each run that has not ended is one that the queue worker can start
or one that the reconciler tracks. -/
theorem queued_or_tracked (hqueue : settings.queueEnabled = true) {profiles : Table Text Profile}
    {acts : List Act}
    (hok : (system settings parsers).Meets KeepsTended (World.initial profiles) acts)
    (hexec : (system settings parsers).exec (World.initial profiles) acts = some w)
    (hquiet : w.Quiet) {run : Run} (hrun : w.runs.lookup id = some run)
    (hactive : run.isTerminal = false) :
    (run.isQueued = true ∧ RunService.jobName id ∉ w.jobs) ∨ run.isTracked = true := by
  have hinv : Tended settings parsers w :=
    System.exec_invariant (tended_step hqueue) (World.initial_tended profiles) hok hexec
  cases hname : run.k8sJobName with
  | some name => exact Or.inr (Run.isTracked_iff.mpr ⟨by rw [hname]; rfl, hactive⟩)
  | none =>
      have hstatus := (hinv.waiting id run hrun hname).resolve_right (by simp [hactive])
      refine Or.inl ⟨Run.isQueued_iff.mpr ⟨hstatus, hname⟩, fun hjob => ?_⟩
      obtain ⟨c, call, -, hcall, -⟩ := hinv.traced id run hrun hname (hinv.jobs _ hjob)
      rw [hquiet c] at hcall
      cases hcall

/-- The calls that are still in flight after a list of labels, among those below a bound. -/
def openAfter (acts : List Act) (bound : Nat) : Option (List Nat) :=
  ((system {} sampleParsers).exec sampleWorld acts).map fun w =>
    (List.range bound).filter fun c => (w.calls c).isSome

theorem quiet_of_openAfter {acts : List Act} (bound : Nat) (hopen : openAfter acts bound = some [])
    (hbound : ∀ a ∈ acts, ∀ c ∈ a.call, c < bound)
    (hexec : (system {} sampleParsers).exec sampleWorld acts = some w) :
    w.Quiet := by
  intro c
  by_cases hc : c < bound
  · rw [openAfter, hexec, Option.map_some, Option.some.injEq, List.filter_eq_nil_iff] at hopen
    simpa using hopen c (List.mem_range.mpr hc)
  · exact calls_exec (World.initial_idle _).sound
      (fun a ha hact => hc (hbound a ha c hact)) hexec

def strandedRun : List Act :=
  createAlone 0 1 sampleRequest 0 ++
    changeAlone 1 1 (.deliverStatus [("status".toList, .str "IN_PROGRESS".toList)]) 1

/-- A delivery of an active status takes a waiting run out of the queue without giving it a Job. -/
theorem activeDelivery_strands_run :
    ¬∀ (settings : Settings) (parsers : Parsers) (profiles : Table Text Profile) (acts : List Act)
        (w : World) (id : Uuid) (run : Run), settings.queueEnabled = true →
      settings.k8sJobCreationEnabled = true →
      (system settings parsers).exec (World.initial profiles) acts = some w → w.Quiet →
      w.runs.lookup id = some run → run.isTerminal = false →
      (run.isQueued = true ∧ RunService.jobName id ∉ w.jobs) ∨ run.isTracked = true := by
  intro h
  have hrow : (rowAfter sampleWorld strandedRun 1).map (fun run =>
      (run.isTerminal, run.isQueued, run.isTracked)) = some (false, false, false) := by
    decide
  obtain ⟨run, hrow, hstatus⟩ := Option.map_eq_some_iff.mp hrow
  obtain ⟨w, hexec, hrun⟩ := Option.bind_eq_some_iff.mp hrow
  simp only [Prod.mk.injEq] at hstatus
  have hquiet : w.Quiet := quiet_of_openAfter 2 (by decide) (by decide) hexec
  rcases h {} sampleParsers sampleProfiles strandedRun w 1 run rfl rfl hexec hquiet hrun hstatus.1
    with ⟨hqueued, -⟩ | htracked
  · rw [hstatus.2.1] at hqueued
    cases hqueued
  · rw [hstatus.2.2] at htracked
    cases htracked

/-- Labels that cannot lose a Job or strand a run. -/
def Act.isPlain : Act → Bool
  | .crash _ | .admitNext _ .lost | .commitRow _ => false
  | _ => true

theorem keepsTended_of_isPlain {a : Act} (h : a.isPlain = true) : KeepsTended w a := by
  cases a with
  | crash c => cases h
  | commitRow c => cases h
  | admitNext c outcome =>
      cases outcome with
      | lost => cases h
      | created => exact ⟨fun _ hloses => hloses, fun hstrands => hstrands⟩
      | refused => exact ⟨fun _ hloses => hloses, fun hstrands => hstrands⟩
  | _ => exact ⟨fun _ hloses => hloses, fun hstrands => hstrands⟩

/-- The result at a run that has been created and admitted. -/
theorem queued_or_tracked_admittedRun :
    ∃ w run, (system {} sampleParsers).exec sampleWorld
        (createAlone 0 1 sampleRequest 0 ++ admitAlone 1 1) = some w ∧
      w.runs.lookup 1 = some run ∧ run.isTerminal = false ∧
      ((run.isQueued = true ∧ RunService.jobName 1 ∉ w.jobs) ∨ run.isTracked = true) := by
  have hrow : (rowAfter sampleWorld (createAlone 0 1 sampleRequest 0 ++ admitAlone 1 1) 1).map
      Run.isTerminal = some false := by
    decide
  obtain ⟨run, hrow, hactive⟩ := Option.map_eq_some_iff.mp hrow
  obtain ⟨w, hexec, hrun⟩ := Option.bind_eq_some_iff.mp hrow
  have hquiet : w.Quiet := quiet_of_openAfter 2 (by decide) (by decide) hexec
  refine ⟨w, run, hexec, hrun, hactive, queued_or_tracked rfl ?_ hexec hquiet hrun hactive⟩
  exact (System.meets_of_forall (p := fun a : Act => a.isPlain = true) _ (by decide)).imp
    fun _ _ hplain => keepsTended_of_isPlain hplain

end PdeOperator.Lifecycle
