import PdeOperator.LifecycleRows

/-! When a terminal status is final. A run that has ended keeps its status and its finish time
exactly as long as every commit that lands on it confirms them: nothing in the code checks that the
row has not ended since a session read it, and a delivery is not checked at all. -/

namespace PdeOperator.Lifecycle
open Base

variable {settings : Settings} {parsers : Parsers} {w w' : World}

/-- The status that a delivery leads to. -/
def deliveredStatus (status : JsonObject) (read : Run) : RunStatus :=
  (RunService.parseStatusValue (Json.get status "status".toList)).getD read.status

/-- The finish time that a delivery with a terminal status leads to. -/
def deliveredFinish (parsers : Parsers) (now : Instant) (status : JsonObject) : Option Instant :=
  some ((RunService.parseTimestamp parsers (Json.get status "finishedAt".toList)).getD now)

/-- A call that has read `read` does not alter the ended row `current`: a cancellation takes the
Job branch, a delivery repeats what the row says. A value equal to the one read is not written. -/
def RunChange.Confirms (parsers : Parsers) (now : Instant) (read current : Run) :
    RunChange → Prop
  | .cancelRun =>
      truthy read.k8sJobName = true ∨ (current.status = .cancelled ∧
        (some now = read.finishedAt ∨ some now = current.finishedAt))
  | .deliverStatus status =>
      (deliveredStatus status read = read.status ∨
        deliveredStatus status read = current.status) ∧
      (deliveredStatus status read ∈ terminalStatuses →
        deliveredFinish parsers now status = read.finishedAt ∨
          deliveredFinish parsers now status = current.finishedAt)
  | _ => True

/-- A tick has decided nothing for a run, or the outcome that the ended row has. -/
def TickConfirms (t : Tracked Uuid Run) (current : Run) : Prop :=
  t.work = t.read ∨ (t.work.status = current.status ∧
    (t.work.finishedAt = t.read.finishedAt ∨ t.work.finishedAt = current.finishedAt))

/-- The step is no commit onto a run that has ended, or it confirms the run. -/
def RespectsEnded (parsers : Parsers) (w : World) : Act → Prop
  | .commitRow c => ∀ change now id read work current,
      w.calls c = some (.writing change now [] ⟨id, read, work⟩) →
      w.runs.lookup id = some current → current.isTerminal = true →
      change.Confirms parsers now read current
  | .reconcileCommit c => ∀ now done updated t current,
      w.calls c = some (.reconciling now [] done updated) → t ∈ done →
      w.runs.lookup t.key = some current → current.isTerminal = true → TickConfirms t current
  | _ => True

/-- Two versions of a row with the same outcome. -/
def SameOutcome (run run' : Run) : Prop :=
  run'.status = run.status ∧ run'.finishedAt = run.finishedAt

theorem sameOutcome_writeBack_iff {read work current : Run} :
    SameOutcome current (writeBack read work current) ↔
      (work.status = read.status ∨ work.status = current.status) ∧
        (work.finishedAt = read.finishedAt ∨ work.finishedAt = current.finishedAt) := by
  rw [SameOutcome, Run.writeBack_status, Run.writeBack_finishedAt, column_eq_current_iff,
    column_eq_current_iff]

theorem sameOutcome_of_sameLifecycle {read work current : Run}
    (h : RunService.SameLifecycle read work) : SameOutcome current (writeBack read work current) :=
  sameOutcome_writeBack_iff.mpr ⟨Or.inl h.status, Or.inl h.finishedAt⟩

theorem confirms_cancelRun_iff {now : Instant} {read work current : Run}
    (h : RunService.cancelRun now read = .ok work) :
    RunChange.cancelRun.Confirms parsers now read current ↔
      SameOutcome current (writeBack read work current) := by
  obtain ⟨hactive, ⟨hjob, rfl⟩ | ⟨hjob, rfl⟩⟩ := RunService.cancelRun_ok h
  · have hread : RunStatus.cancelled ≠ read.status := by
      rintro heq
      rw [Run.isTerminal, ← heq] at hactive
      exact absurd hactive (by decide)
    rw [sameOutcome_writeBack_iff, or_iff_right hread, RunChange.Confirms, hjob,
      or_iff_right (by decide), @eq_comm _ RunStatus.cancelled]
  · exact iff_of_true (Or.inl hjob) (sameOutcome_of_sameLifecycle ⟨rfl, rfl, rfl⟩)

theorem confirms_deliverStatus_iff {now : Instant} {status : JsonObject} {read current : Run} :
    (RunChange.deliverStatus status).Confirms parsers now read current ↔
      SameOutcome current
        (writeBack read (RunService.deliverStatus parsers now status read) current) := by
  have hstatus : (RunService.deliverStatus parsers now status read).status =
      deliveredStatus status read := rfl
  have hfinish : (RunService.deliverStatus parsers now status read).finishedAt =
      if deliveredStatus status read ∈ terminalStatuses then deliveredFinish parsers now status
      else read.finishedAt := rfl
  rw [sameOutcome_writeBack_iff, hstatus, hfinish, RunChange.Confirms]
  split
  · next hended => simp only [hended, true_implies]
  · next hended => simp only [hended, false_implies, true_or]

/-- What `Confirms` says of a changed row: writing it back keeps the outcome of the ended row. -/
theorem confirms_iff {change : RunChange} {now : Instant} {id : Uuid} {read work current : Run}
    (h : change.apply parsers now id read = .ok work) :
    change.Confirms parsers now read current ↔
      SameOutcome current (writeBack read work current) := by
  cases change with
  | cancelRun => exact confirms_cancelRun_iff h
  | deliverStatus status =>
      cases h
      exact confirms_deliverStatus_iff
  | deliverReport data =>
      cases h
      exact iff_of_true trivial
        (sameOutcome_of_sameLifecycle (RunService.deliverReport_same data))
  | deliverLog =>
      cases h
      exact iff_of_true trivial (sameOutcome_of_sameLifecycle RunService.deliverLog_same)
  | uploadArtifacts uploads =>
      cases h
      exact iff_of_true trivial
        (sameOutcome_of_sameLifecycle (RunService.uploadArtifacts_same id uploads))

theorem tickConfirms_iff {now : Instant} {observed : JobObservation} {result : Reconciled}
    {t : Tracked Uuid Run} {current : Run} (htracked : t.read.isTracked = true)
    (hresult : JobReconciler.reconcileRun settings now observed t.read = some result)
    (hwork : t.work = result.run) :
    TickConfirms t current ↔ SameOutcome current (writeBack t.read t.work current) := by
  rw [sameOutcome_writeBack_iff, TickConfirms]
  by_cases hclean : t.work = t.read
  · simp [hclean]
  · have hends : t.work.isTerminal = true := by
      rw [hwork]
      exact (JobReconciler.reconcileRun_ends hresult).resolve_left fun h => hclean (hwork.trans h)
    have hstatus : t.work.status ≠ t.read.status := fun heq => by
      have hactive := (Run.isTracked_iff.mp htracked).2
      rw [Run.isTerminal, ← heq] at hactive
      rw [Run.isTerminal, hactive] at hends
      cases hends
    rw [or_iff_right hclean, or_iff_right hstatus]

/-- The row of a run that has ended with a given outcome, or no row any more. -/
structure Ended (id : Uuid) (run : Run) (w : World) : Prop where
  taken : Taken w id
  outcome : ∀ current, w.runs.lookup id = some current → SameOutcome run current

theorem SameOutcome.isTerminal {run run' : Run} (h : SameOutcome run run') :
    run'.isTerminal = run.isTerminal := by
  rw [Run.isTerminal, Run.isTerminal, h.1]

theorem SameOutcome.trans {run run' run'' : Run} (h : SameOutcome run run')
    (h' : SameOutcome run' run'') : SameOutcome run run'' :=
  ⟨h'.1.trans h.1, h'.2.trans h.2⟩

/-- A step that respects ended runs keeps the outcome of each of them. -/
theorem ended_step {a : Act} {id : Uuid} {run : Run} (hterminal : run.isTerminal = true)
    (hsound : Sound settings parsers w) (hinv : Ended id run w) (hok : RespectsEnded parsers w a)
    (h : step settings parsers w a = some w') : Ended id run w' := by
  refine ⟨taken_step hsound.valid hinv.taken h, fun next hnext => ?_⟩
  have hwrite : ∀ {read work : Run},
      w'.runs.lookup id = (w.runs.lookup id).map (writeBack read work) →
      (∀ current, w.runs.lookup id = some current → current.isTerminal = true →
        SameOutcome current (writeBack read work current)) → SameOutcome run next := by
    intro read work hrow hkeeps
    rw [hnext] at hrow
    obtain ⟨current, hcurrent, rfl⟩ := Option.map_eq_some_iff.mp hrow.symm
    have hsame := hinv.outcome current hcurrent
    exact hsame.trans (hkeeps current hcurrent (hsame.isTerminal.trans hterminal))
  cases rowStep_of_step hsound h id with
  | same hrow => exact hinv.outcome next (hrow ▸ hnext)
  | change hcall happly hfree hrow =>
      apply hwrite hrow
      intro current hcurrent hended
      exact (confirms_iff happly).mp (hok _ _ _ _ _ current hcall hcurrent hended)
  | reconcile hcall hmem htracked hresult hwork hdirty hfree hrow =>
      apply hwrite hrow
      intro current hcurrent hended
      exact (tickConfirms_iff (t := ⟨id, _, _⟩) htracked hresult hwork).mp
        (hok _ _ _ _ current hcall hmem hcurrent hended)
  | start hcall hmem hqueued hwork hlock hold hrow =>
      have hended := (hinv.outcome _ hold).isTerminal.trans hterminal
      rw [Run.not_isTerminal_of_isQueued hqueued] at hended
      cases hended
  | insert hcall hvalid hold hrow =>
      exact absurd (newIdIn_of_some hcall) (hinv.taken.2 _)
  | erase hfree hrow =>
      rw [hrow] at hnext
      cases hnext

/-- A step that does not respect ended runs alters the outcome of one. -/
theorem exists_altered_of_not_respectsEnded {a : Act} (hsound : Sound settings parsers w)
    (hbad : ¬RespectsEnded parsers w a) (h : step settings parsers w a = some w') :
    ∃ id run run', w.runs.lookup id = some run ∧ run.isTerminal = true ∧
      w'.runs.lookup id = some run' ∧ ¬SameOutcome run run' := by
  cases step_cases h with
  | @commitRow c change now row runs hcall hlock hflush =>
      obtain ⟨id, read, work⟩ := row
      simp only [RespectsEnded, not_forall] at hbad
      obtain ⟨_, _, _, _, _, current, hcall', hcurrent, hended, hnot⟩ := hbad
      cases hcall.symm.trans hcall'
      refine ⟨id, current, writeBack read work current, hcurrent, hended, ?_, fun hsame => ?_⟩
      · exact (Table.lookup_flush_self hflush).trans (by rw [hcurrent]; rfl)
      · exact hnot ((confirms_iff (hsound.valid c _ hcall)).mpr hsame)
  | reconcileNothing hcall =>
      simp only [RespectsEnded, not_forall] at hbad
      obtain ⟨_, _, _, t, current, hcall', hmem, -, -, hnot⟩ := hbad
      cases hcall.symm.trans hcall'
      obtain ⟨-, -, -, hclean⟩ := hsound.valid _ _ hcall
      exact absurd (Or.inl (hclean rfl t hmem)) hnot
  | reconcileCommit hcall hlock hflush =>
      simp only [RespectsEnded, not_forall] at hbad
      obtain ⟨_, _, _, t, current, hcall', hmem, hcurrent, hended, hnot⟩ := hbad
      cases hcall.symm.trans hcall'
      obtain ⟨htracked, hnodup, hdone, -⟩ := hsound.valid _ _ hcall
      obtain ⟨observed, result, hresult, hwork⟩ := hdone t hmem
      refine ⟨t.key, current, writeBack t.read t.work current, hcurrent, hended, ?_, fun hsame => ?_⟩
      · exact (Table.lookup_flushAll_of_mem hflush (nodup_keys hnodup) hmem).trans
          (by rw [hcurrent]; rfl)
      · exact hnot ((tickConfirms_iff (htracked _ (mem_readRows hmem)) hresult hwork).mpr hsame)
  | _ => exact absurd trivial hbad

variable (settings parsers) in
/-- Along an execution, a run that is seen with a terminal status is never seen with another status
or finish time later. -/
def Absorbing (w : World) (acts : List Act) : Prop :=
  ∀ before between after u v id run run', acts = before ++ between ++ after →
    (system settings parsers).exec w before = some u →
    u.runs.lookup id = some run → run.isTerminal = true →
    (system settings parsers).exec u between = some v → v.runs.lookup id = some run' →
    run'.status = run.status ∧ run'.finishedAt = run.finishedAt

/-- Terminal statuses are absorbing exactly along the executions all of whose commits confirm the
ended runs they land on. -/
theorem absorbing_iff_respectsEnded {acts : List Act} (hidle : Idle w)
    (hexec : (system settings parsers).exec w acts = some w') :
    Absorbing settings parsers w acts ↔
      (system settings parsers).Meets (RespectsEnded parsers) w acts := by
  have hiff := System.sticks_iff_meets (I := Sound settings parsers)
    (fun (k : Uuid × Run) u => u.runs.lookup k.1 = some k.2 ∧ k.2.isTerminal = true)
    (fun k u => k.2.isTerminal = true ∧ Ended k.1 k.2 u)
    (fun k v => ∀ run', v.runs.lookup k.1 = some run' → SameOutcome k.2 run')
    (fun hi hs => sound_step hi hs) ?_ (fun hheld => hheld.2.outcome)
    (fun hi hheld hok hs => ⟨hheld.1, ended_step hheld.1 hi hheld.2 hok hs⟩) ?_ hidle.sound hexec
  · rw [← hiff]
    constructor
    · intro h k before between after u v hacts hbefore hseen hbetween run' hrun'
      exact h before between after u v k.1 k.2 run' hacts hbefore hseen.1 hseen.2 hbetween hrun'
    · intro h before between after u v id run run' hacts hbefore hrun hterminal hbetween hrun'
      exact h (id, run) before between after u v hacts hbefore ⟨hrun, hterminal⟩ hbetween run' hrun'
  · rintro ⟨id, run⟩ u hsound ⟨hrun, hterminal⟩
    refine ⟨hterminal, hsound.consistent.taken hrun, fun current hcurrent => ?_⟩
    obtain rfl := Option.some.inj (hrun.symm.trans hcurrent)
    exact ⟨rfl, rfl⟩
  · intro u a v hsound hbad hstep
    obtain ⟨id, run, run', hrun, hterminal, hrun', haltered⟩ :=
      exists_altered_of_not_respectsEnded hsound hbad hstep
    exact ⟨(id, run), ⟨hrun, hterminal⟩, fun hall => haltered (hall run' hrun')⟩

/-- A run is created, started and reported as successful. -/
def succeededRun : List Act :=
  createAlone 0 1 sampleRequest 0 ++ admitAlone 1 1 ++
    changeAlone 2 1 (.deliverStatus [("status".toList, .str "SUCCESS".toList)]) 2

def lateDelivery : List Act :=
  changeAlone 3 1 (.deliverStatus [("status".toList, .str "IN_PROGRESS".toList)]) 3

/-- A status delivery that arrives late revives a run that has succeeded. -/
theorem lateDelivery_revives_run :
    ¬∀ (settings : Settings) (parsers : Parsers) (w : World) (acts : List Act), Idle w →
      Absorbing settings parsers w acts := by
  intro h
  have hbefore : (rowAfter sampleWorld succeededRun 1).map Run.status = some .success := by
    decide
  have hafter : (rowAfter sampleWorld (succeededRun ++ lateDelivery) 1).map Run.status =
      some .inProgress := by
    decide
  obtain ⟨run, hrow, hstatus⟩ := Option.map_eq_some_iff.mp hbefore
  obtain ⟨run', hrow', hstatus'⟩ := Option.map_eq_some_iff.mp hafter
  obtain ⟨u, v, hu, hrun, hbetween, hrun'⟩ := System.exists_between hrow hrow'
  have hterminal : run.isTerminal = true := by
    rw [Run.isTerminal, hstatus]
    decide
  have hsame := (h {} sampleParsers sampleWorld _ (World.initial_idle _)
    succeededRun lateDelivery [] u v 1 run run' (List.append_nil _).symm hu hrun hterminal hbetween
    hrun').1
  rw [hstatus, hstatus'] at hsame
  cases hsame

/-- The equivalence for the execution that ends with the success. -/
theorem absorbing_iff_respectsEnded_succeededRun :
    Absorbing {} sampleParsers sampleWorld succeededRun ↔
      (system {} sampleParsers).Meets (RespectsEnded sampleParsers)
        sampleWorld succeededRun := by
  have hexec : ((system {} sampleParsers).exec sampleWorld
      succeededRun).isSome = true := by
    decide
  obtain ⟨w', hw'⟩ := Option.isSome_iff_exists.mp hexec
  exact absorbing_iff_respectsEnded (World.initial_idle _) hw'

end PdeOperator.Lifecycle
