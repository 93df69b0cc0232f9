import PdeOperator.ReconcilerTick

/-! What a tick makes of every run when the phase and diagnostic reads succeed, and that a second
tick with the same answers has nothing left to do. -/

namespace PdeOperator
open Base

/-- The counters of a Job's status. -/
structure JobStatus where
  succeeded : Option Int := none
  failed : Option Int := none

/-- How `read_namespaced_job` ends: with the Job, whose status may be missing, with an
`ApiException` and its HTTP status, or with another exception. -/
inductive JobRead where
  | job (status : Option JobStatus)
  | apiException (status : Option Int)
  | otherException

/-- `JobService.get_job_phase`; `none` when it raises. -/
def JobService.getJobPhase : JobRead → Option JobPhase
  | .job none => some .active
  | .job (some status) =>
      if status.succeeded.getD 0 ≥ 1 then some .succeeded
      else if status.failed.getD 0 ≥ 1 then some .failed
      else some .active
  | .apiException status => if status = some 404 then some .missing else none
  | .otherException => none

namespace JobReconciler

variable {settings : Settings} {now : Instant} {jobs : Uuid → JobRead}
  {calls calls' : Uuid → KubernetesCalls} {runs : Table Uuid Run} {id : Uuid} {run run' : Run}
  {phase : JobPhase} {observed : JobObservation} {result : Reconciled}

/-- The last sign of progress of a run. -/
def lastProgress (run : Run) : Instant :=
  (run.statusUpdatedAt.or run.startedAt).getD run.createdAt

variable (settings now) in
/-- The grace period of a pending cancel is over. -/
def GraceOver (run : Run) : Prop :=
  ∃ requested, run.cancelRequestedAt = some requested ∧
    seconds settings.cancelGraceSeconds ≤ now - requested

variable (settings now) in
/-- No cancel is pending and there has been no progress for the stuck timeout. -/
def WithoutProgress (run : Run) : Prop :=
  run.cancelRequestedAt = none ∧
    seconds settings.reconcilerStuckTimeoutSeconds ≤ now - lastProgress run

variable (settings now) in
/-- What a tick makes of a tracked run whose Job is in the given phase. -/
structure Outcome (phase : JobPhase) (run run' : Run) : Prop where
  terminal_iff : run'.isTerminal = true ↔
    phase ≠ .active ∨ GraceOver settings now run ∨ WithoutProgress settings now run
  succeeded : phase = .succeeded → run'.status = .success
  gone : phase = .failed ∨ phase = .missing →
    run'.status = if run.cancelRequestedAt.isSome then .cancelled else .failed
  graceOver : phase = .active → GraceOver settings now run → run'.status = .cancelled
  stuck : phase = .active → WithoutProgress settings now run → run'.status = .failed
  finishedAt : run'.isTerminal = true → run'.finishedAt.isSome = true
  finishCode : phase = .failed ∨ phase = .missing → run.finishCode.isSome = true →
    run'.finishCode = run.finishCode
  unchanged : run'.isTerminal = false → run' = run

theorem stopsJob_iff : stopsJob settings now run = true ↔
    GraceOver settings now run ∨ WithoutProgress settings now run := by
  unfold stopsJob GraceOver WithoutProgress
  cases run.cancelRequestedAt with
  | none => simp [isStuck, lastProgress]
  | some requested => simp

theorem isSome_or_some (value : Option Instant) : (value.or (some now)).isSome = true := by
  cases value <;> rfl

/-- A Job that has succeeded ends its run with `SUCCESS`. -/
theorem reconcileRun_succeeded (htracked : run.isTracked = true)
    (hphase : observed.phase = some .succeeded)
    (h : reconcileRun settings now observed run = some result) :
    result.run.status = .success ∧ result.run.finishedAt.isSome = true := by
  have hrunning := (Run.isTracked_iff.mp htracked).2
  unfold reconcileRun at h
  rw [hphase, Option.bind_eq_bind, Option.bind_some] at h
  cases h
  exact ⟨if_neg (by simp [hrunning]), isSome_or_some _⟩

/-- A Job that has failed or is gone ends its run as the pending cancel says, and the finish code
that the run has stays. -/
theorem reconcileRun_gone (hphase : observed.phase = some .failed ∨ observed.phase = some .missing)
    (h : reconcileRun settings now observed run = some result) :
    result.run.status = (if run.cancelRequestedAt.isSome then .cancelled else .failed) ∧
      result.run.finishedAt.isSome = true ∧
      (run.finishCode.isSome = true → result.run.finishCode = run.finishCode) := by
  unfold reconcileRun at h
  rcases hphase with hphase | hphase
  · rw [hphase, Option.bind_eq_bind, Option.bind_some] at h
    dsimp only at h
    split at h
    · cases h
      exact ⟨rfl, isSome_or_some _, fun _ => rfl⟩
    · next hcode =>
      obtain ⟨diagnostic, -, h⟩ := Option.bind_eq_some_iff.mp h
      cases h
      exact ⟨rfl, isSome_or_some _, fun hsome => absurd hsome hcode⟩
  · rw [hphase, Option.bind_eq_bind, Option.bind_some] at h
    dsimp only at h
    split at h
    · cases h
      exact ⟨rfl, isSome_or_some _, fun _ => rfl⟩
    · next hcode =>
      cases h
      exact ⟨rfl, isSome_or_some _, fun hsome => absurd hsome hcode⟩

/-- An active Job that is stopped ends its run, cancelled if a cancel is pending and failed
otherwise. -/
theorem reconcileRun_stopped (hphase : observed.phase = some .active)
    (hstops : stopsJob settings now run = true)
    (h : reconcileRun settings now observed run = some result) :
    result.run.status = (if run.cancelRequestedAt.isSome then .cancelled else .failed) ∧
      result.run.finishedAt = some now := by
  unfold reconcileRun at h
  rw [hphase, Option.bind_eq_bind, Option.bind_some] at h
  unfold stopsJob at hstops
  dsimp only at h
  split at h
  · next requested hcancel =>
    rw [hcancel] at hstops ⊢
    rw [if_pos (by simpa using hstops)] at h
    cases h
    exact ⟨rfl, rfl⟩
  · next hcancel =>
    rw [hcancel] at hstops ⊢
    rw [if_pos hstops] at h
    obtain ⟨diagnostic, -, h⟩ := Option.bind_eq_some_iff.mp h
    cases h
    exact ⟨rfl, rfl⟩

theorem leftAlone_iff (hphase : observed.phase = some phase) :
    leftAlone settings now observed run = false ↔
      phase ≠ .active ∨ GraceOver settings now run ∨ WithoutProgress settings now run := by
  rw [← stopsJob_iff]
  by_cases hactive : phase = .active
  · subst hactive
    rw [leftAlone_active hphase]
    simp
  · exact iff_of_true (leftAlone_of_ne hphase hactive) (Or.inl hactive)

theorem reconcileRun_outcome (htracked : run.isTracked = true) (hphase : observed.phase = some phase)
    (h : reconcileRun settings now observed run = some result) :
    Outcome settings now phase run result.run := by
  obtain ⟨-, ⟨halone, rfl⟩ | ⟨hended, hend⟩⟩ := reconcileRun_cases h
  · have hkept : ¬(phase ≠ .active ∨ GraceOver settings now run ∨ WithoutProgress settings now run) := by
      rw [← leftAlone_iff hphase, halone]
      decide
    have hrunning := (Run.isTracked_iff.mp htracked).2
    rw [not_or, not_or, not_not] at hkept
    obtain ⟨rfl, hgrace, hstuck⟩ := hkept
    constructor
    · simp [hrunning, hgrace, hstuck]
    · simp
    · simp
    · exact fun _ hover => absurd hover hgrace
    · exact fun _ hover => absurd hover hstuck
    · simp [hrunning]
    · simp
    · exact fun _ => rfl
  · have hends := (leftAlone_iff hphase).mp hended
    have hstops : phase = .active → stopsJob settings now run = true := by
      intro hactive
      exact stopsJob_iff.mpr (hends.resolve_left (not_not.mpr hactive))
    have hgone : phase = .failed ∨ phase = .missing →
        observed.phase = some .failed ∨ observed.phase = some .missing := by
      rintro (rfl | rfl)
      · exact Or.inl hphase
      · exact Or.inr hphase
    constructor
    · exact iff_of_true hend.terminal hends
    · rintro rfl
      exact (reconcileRun_succeeded htracked hphase h).1
    · intro hphases
      exact (reconcileRun_gone (hgone hphases) h).1
    · rintro rfl ⟨requested, hcancel, -⟩
      rw [(reconcileRun_stopped hphase (hstops rfl) h).1, hcancel]
      rfl
    · rintro rfl ⟨hcancel, -⟩
      rw [(reconcileRun_stopped hphase (hstops rfl) h).1, hcancel]
      rfl
    · intro _
      cases phase with
      | active =>
          rw [(reconcileRun_stopped hphase (hstops rfl) h).2]
          rfl
      | succeeded => exact (reconcileRun_succeeded htracked hphase h).2
      | failed => exact (reconcileRun_gone (Or.inl hphase) h).2.1
      | missing => exact (reconcileRun_gone (Or.inr hphase) h).2.1
    · intro hphases
      exact (reconcileRun_gone (hgone hphases) h).2.2
    · intro hrunning
      rw [hend.terminal] at hrunning
      cases hrunning

variable (jobs calls runs) in
/-- The reads for the tracked runs succeed; the signal and delete calls may raise. -/
def Answered : Prop :=
  ∀ id run, runs.lookup id = some run → run.isTracked = true →
    (calls id).observed.phase = JobService.getJobPhase (jobs id) ∧
      (JobService.getJobPhase (jobs id)).isSome = true ∧
      (calls id).observed.diagnostic.isSome = true

theorem tickRaises_of_answered (h : Answered jobs calls runs) :
    tickRaises settings now calls runs = false := by
  apply List.any_eq_false.mpr
  rintro ⟨id, run⟩ hmem
  obtain ⟨hrow, htracked⟩ := Table.mem_select.mp hmem
  obtain ⟨hphase, hsome, hdiagnostic⟩ := h id run hrow htracked
  obtain ⟨phase, hread⟩ := Option.isSome_iff_exists.mp hsome
  obtain ⟨diagnostic, hpod⟩ := Option.isSome_iff_exists.mp hdiagnostic
  rw [raisesAt, raises_of_diagnostic (hphase.trans hread) hpod]
  exact Bool.false_ne_true

/-- A row that is not tracked stays as it is. -/
theorem lookup_reconcileOnce_untracked (h : ∀ run, runs.lookup id = some run → run.isTracked = false) :
    (reconcileOnce settings now calls runs).runs.lookup id = runs.lookup id := by
  by_cases hquiet : tickRaises settings now calls runs = true
  · rw [reconcileOnce_of_raises hquiet]
  · rw [Bool.not_eq_true] at hquiet
    obtain ⟨runs', hflush⟩ := exists_flushAll_reconcileRuns hquiet
    have hkeys : id ∉ (reconcileRuns settings now calls
        (runs.select fun _ run => run.isTracked)).done.map Tracked.key := by
      intro hmem
      obtain ⟨t, ht, rfl⟩ := List.mem_map.mp hmem
      have hread : (t.key, t.read) ∈ runs.select fun _ run => run.isTracked :=
        (reconcileRuns_done hquiet).1 ▸ List.mem_map_of_mem ht
      obtain ⟨hrow, htracked⟩ := Table.mem_select.mp hread
      rw [h _ hrow] at htracked
      cases htracked
    unfold reconcileOnce
    dsimp only
    split
    · rfl
    · rw [hflush, Option.getD_some, Table.lookup_flushAll_of_notMem hflush hkeys]

/-- A tracked run is committed as its Job's phase, its pending cancel and its progress say. -/
theorem exists_outcome (h : Answered jobs calls runs) (hrow : runs.lookup id = some run)
    (htracked : run.isTracked = true) (hphase : JobService.getJobPhase (jobs id) = some phase) :
    ∃ run', (reconcileOnce settings now calls runs).runs.lookup id = some run' ∧
      Outcome settings now phase run run' := by
  obtain ⟨hread, -, hdiagnostic⟩ := h id run hrow htracked
  obtain ⟨diagnostic, hpod⟩ := Option.isSome_iff_exists.mp hdiagnostic
  have hobserved := hread.trans hphase
  have hquiet : raises settings now (calls id).observed run = false :=
    raises_of_diagnostic hobserved hpod
  obtain ⟨result, hresult⟩ := exists_reconcileRun hquiet
  exact ⟨result.run, lookup_reconcileOnce (tickRaises_of_answered h) hrow htracked hresult,
    reconcileRun_outcome htracked hobserved hresult⟩

/-- A loop over rows that are left alone has no update. -/
theorem reconcileRuns_updated_of_leftAlone {rows : List (Uuid × Run)}
    (hquiet : rows.any (raisesAt settings now calls) = false)
    (halone : ∀ x ∈ rows, leftAlone settings now (calls x.1).observed x.2 = true) :
    (reconcileRuns settings now calls rows).updated = 0 := by
  induction rows with
  | nil => rfl
  | cons x rest ih =>
      obtain ⟨id, run⟩ := x
      rw [List.any_cons, Bool.or_eq_false_iff] at hquiet
      obtain ⟨result, hresult⟩ := exists_reconcileRun hquiet.1
      obtain ⟨-, ⟨-, rfl⟩ | ⟨hended, -⟩⟩ := reconcileRun_cases hresult
      · rw [reconcileRuns, hresult]
        simpa using ih hquiet.2 fun x hx => halone x (List.mem_cons_of_mem _ hx)
      · rw [halone _ List.mem_cons_self] at hended
        cases hended

/-- What is still tracked after a tick is left alone by a tick with the same answers. -/
theorem leftAlone_of_reconcileOnce (h : Answered jobs calls runs)
    (h' : Answered jobs calls' (reconcileOnce settings now calls runs).runs)
    (hrow : (reconcileOnce settings now calls runs).runs.lookup id = some run')
    (htracked : run'.isTracked = true) :
    leftAlone settings now (calls' id).observed run' = true := by
  obtain ⟨hread, hsome, -⟩ := h' id run' hrow htracked
  obtain ⟨phase, hphase⟩ := Option.isSome_iff_exists.mp hsome
  by_cases hbefore : ∃ run, runs.lookup id = some run ∧ run.isTracked = true
  · obtain ⟨run, hlookup, hrunTracked⟩ := hbefore
    obtain ⟨run'', hrow'', houtcome⟩ : ∃ run'',
        (reconcileOnce settings now calls runs).runs.lookup id = some run'' ∧
          Outcome settings now phase run run'' :=
      exists_outcome h hlookup hrunTracked hphase
    obtain rfl : run' = run'' := Option.some.inj (hrow.symm.trans hrow'')
    have hrunning := (Run.isTracked_iff.mp htracked).2
    obtain rfl := houtcome.unchanged hrunning
    rw [← Bool.not_eq_false, leftAlone_iff (hread.trans hphase), ← houtcome.terminal_iff, hrunning]
    decide
  · have huntracked : ∀ run, runs.lookup id = some run → run.isTracked = false := by
      intro run hlookup
      apply Bool.eq_false_iff.mpr
      intro hrunTracked
      exact hbefore ⟨run, hlookup, hrunTracked⟩
    rw [lookup_reconcileOnce_untracked huntracked] at hrow
    rw [huntracked run' hrow] at htracked
    cases htracked

/-- One tick settles every tracked run, and nothing else: a second one changes no row. -/
theorem reconcileOnce_settles (settings : Settings) (now : Instant) (jobs : Uuid → JobRead)
    (calls : Uuid → KubernetesCalls) (runs : Table Uuid Run) (h : Answered jobs calls runs) :
    (∀ id run phase, runs.lookup id = some run → run.isTracked = true →
      JobService.getJobPhase (jobs id) = some phase →
        ∃ run', (reconcileOnce settings now calls runs).runs.lookup id = some run' ∧
          Outcome settings now phase run run') ∧
      (∀ id, (∀ run, runs.lookup id = some run → run.isTracked = false) →
        (reconcileOnce settings now calls runs).runs.lookup id = runs.lookup id) ∧
      ∀ calls', Answered jobs calls' (reconcileOnce settings now calls runs).runs →
        (reconcileOnce settings now calls' (reconcileOnce settings now calls runs).runs).runs =
          (reconcileOnce settings now calls runs).runs := by
  refine ⟨?_, ?_, ?_⟩
  · intro id run phase hrow htracked hphase
    exact exists_outcome h hrow htracked hphase
  · intro id huntracked
    exact lookup_reconcileOnce_untracked huntracked
  · intro calls' h'
    set after := (reconcileOnce settings now calls runs).runs with hafter
    have hzero : (reconcileRuns settings now calls' (after.select fun _ run => run.isTracked)).updated =
        0 := by
      apply reconcileRuns_updated_of_leftAlone (tickRaises_of_answered h')
      rintro ⟨id, run⟩ hmem
      obtain ⟨hrow, htracked⟩ := Table.mem_select.mp hmem
      exact leftAlone_of_reconcileOnce h h' hrow htracked
    rw [reconcileOnce, hzero]
    simp

/-- Every Job exists and has counted no end of its pod. -/
def allActive (_ : Uuid) : JobRead := .job (some {})

/-- Kubernetes answers every call, and the deletions do not get through. -/
def undeleted (_ : Uuid) : KubernetesCalls :=
  { observed := { phase := some .active, deleted := false }, signalRaises := true, deleteRaises := true }

theorem answered_undeleted (runs : Table Uuid Run) : Answered allActive undeleted runs :=
  fun _ _ _ _ => ⟨rfl, rfl, rfl⟩

theorem reconcileOnce_settles_twoStuckRuns :
    (∃ run', (reconcileOnce {} (seconds 300) undeleted twoStuckRuns).runs.lookup 1 = some run' ∧
      Outcome {} (seconds 300) .active (sampleTrackedRun 1) run') ∧
      (reconcileOnce {} (seconds 300) undeleted
        (reconcileOnce {} (seconds 300) undeleted twoStuckRuns).runs).runs =
          (reconcileOnce {} (seconds 300) undeleted twoStuckRuns).runs := by
  have hsettles := reconcileOnce_settles {} (seconds 300) allActive undeleted twoStuckRuns
    (answered_undeleted _)
  exact ⟨hsettles.1 1 (sampleTrackedRun 1) .active (by decide) (by decide) rfl,
    hsettles.2.2 undeleted (answered_undeleted _)⟩

end JobReconciler
end PdeOperator
