import PdeOperator.RunService

/-! `JobReconciler`: what one tick makes of a tracked row, given what the Kubernetes calls answered.
-/

namespace PdeOperator
open Base

inductive JobPhase where
  | active | succeeded | failed | missing
  deriving DecidableEq, Repr

/-- The answers of the Kubernetes calls for one run; `none` stands for an exception that leaves
`_reconcile_run`. The signal and delete calls catch theirs, so only whether the deletion took
effect matters. -/
structure JobObservation where
  phase : Option JobPhase
  diagnostic : Option (Option Text) := some none
  deleted : Bool := true
  deriving DecidableEq

/-- What `_reconcile_run` returns: the changed row, whether it reports an update and whether it has
called `delete_run_job`. -/
structure Reconciled where
  run : Run
  updated : Bool
  deletes : Bool := false
  deriving DecidableEq

namespace JobReconciler

def isStuck (settings : Settings) (run : Run) (now : Instant) : Bool :=
  let reference := (run.statusUpdatedAt.or run.startedAt).getD run.createdAt
  now - reference ≥ seconds settings.reconcilerStuckTimeoutSeconds

/-- `a or b` on a nullable text and a text. -/
def textOr (value : Option Text) (fallback : Text) : Text :=
  match value with
  | none => fallback
  | some text => if text.isEmpty then fallback else text

def reconcileRun (settings : Settings) (now : Instant) (observed : JobObservation) (run : Run) :
    Option Reconciled := do
  let phase ← observed.phase
  let cancelPending := run.cancelRequestedAt.isSome
  let finished := run.finishedAt.or (some now)
  let ended := if cancelPending then RunStatus.cancelled else RunStatus.failed
  match phase with
  | .succeeded =>
      some
        { run := { run with
            finishedAt := finished
            status := if run.isTerminal then run.status else .success }
          updated := true }
  | .failed =>
      let run := { run with status := ended, finishedAt := finished }
      if run.finishCode.isSome then some { run, updated := true }
      else do
        let diagnostic ← observed.diagnostic
        some
          { run := { run with
              finishCode := some (if cancelPending then OperatorFinishCodes.runCancelled
                else OperatorFinishCodes.runJobFailed)
              finishMessage := some (textOr diagnostic "Kubernetes Job failed.".toList) }
            updated := true }
  | .missing =>
      let run := { run with status := ended, finishedAt := finished }
      if run.finishCode.isSome then some { run, updated := true }
      else
        some
          { run := { run with
              finishCode := some (if cancelPending then OperatorFinishCodes.runCancelled
                else OperatorFinishCodes.runJobMissing)
              finishMessage := some "Kubernetes Job no longer exists.".toList }
            updated := true }
  | .active =>
      match run.cancelRequestedAt with
      | some requested =>
          if now - requested ≥ seconds settings.cancelGraceSeconds then
            some
              { run := { run with
                  status := .cancelled
                  finishedAt := some now
                  finishCode := some OperatorFinishCodes.runCancelled
                  finishMessage := some
                    "Run cancelled; Kubernetes Job removed after grace period.".toList }
                updated := true
                deletes := true }
          else some { run, updated := false }
      | none =>
          if isStuck settings run now then do
            let diagnostic ← observed.diagnostic
            some
              { run := { run with
                  status := .failed
                  finishedAt := some now
                  finishCode := some OperatorFinishCodes.runStuckTimeout
                  finishMessage := some (FinishUtils.stuckFinishMessage diagnostic) }
                updated := true
                deletes := true }
          else some { run, updated := false }

section Cases

variable (settings : Settings) (now : Instant)

/-- An active Job is stopped: the grace period of a cancellation is over, or the run is stuck. -/
def stopsJob (run : Run) : Bool :=
  match run.cancelRequestedAt with
  | some requested => decide (now - requested ≥ seconds settings.cancelGraceSeconds)
  | none => isStuck settings run now

/-- `_reconcile_run` asks for the pod diagnostic. -/
def readsDiagnostic (phase : JobPhase) (run : Run) : Bool :=
  match phase with
  | .failed => run.finishCode.isNone
  | .active => run.cancelRequestedAt.isNone && isStuck settings run now
  | _ => false

/-- An exception leaves `_reconcile_run`. -/
def raises (observed : JobObservation) (run : Run) : Bool :=
  match observed.phase with
  | none => true
  | some phase => readsDiagnostic settings now phase run && observed.diagnostic.isNone

/-- The tick leaves the run as it is: its Job is active and is not stopped. -/
def leftAlone (observed : JobObservation) (run : Run) : Bool :=
  observed.phase == some .active && !stopsJob settings now run

end Cases

variable {settings : Settings} {now : Instant} {observed : JobObservation} {run : Run}
  {result : Reconciled} {phase : JobPhase}

theorem raises_eq (h : observed.phase = some phase) : raises settings now observed run =
    (readsDiagnostic settings now phase run && observed.diagnostic.isNone) := by
  rw [raises, h]

theorem raises_of_diagnostic {diagnostic : Option Text} (h : observed.phase = some phase)
    (hdiagnostic : observed.diagnostic = some diagnostic) :
    raises settings now observed run = false := by
  rw [raises_eq h, hdiagnostic, Option.isNone_some, Bool.and_false]

theorem raises_of_not_reads (h : observed.phase = some phase)
    (hreads : readsDiagnostic settings now phase run = false) :
    raises settings now observed run = false := by
  rw [raises_eq h, hreads, Bool.false_and]

theorem leftAlone_active (h : observed.phase = some .active) :
    leftAlone settings now observed run = !stopsJob settings now run := by
  rw [leftAlone, h]
  rfl

theorem leftAlone_of_ne (h : observed.phase = some phase) (hne : phase ≠ .active) :
    leftAlone settings now observed run = false := by
  rw [leftAlone, h]
  cases phase with
  | active => exact absurd rfl hne
  | _ => rfl

/-- What a tick makes of a run whose Job it stops or finds ended. -/
structure Ended (observed : JobObservation) (run : Run) (result : Reconciled) : Prop where
  updated : result.updated = true
  terminal : result.run.isTerminal = true
  k8sJobName : result.run.k8sJobName = run.k8sJobName
  deletes : result.deletes = (observed.phase == some .active)

/-- A tick that no exception leaves keeps the run as it is, or it ends the run; it deletes the Job
exactly when it has stopped an active one. -/
theorem reconcileRun_cases (h : reconcileRun settings now observed run = some result) :
    raises settings now observed run = false ∧
      ((leftAlone settings now observed run = true ∧ result = ⟨run, false, false⟩) ∨
        (leftAlone settings now observed run = false ∧ Ended observed run result)) := by
  have hended : (if run.cancelRequestedAt.isSome then RunStatus.cancelled else .failed) ∈
      terminalStatuses := by
    split <;> decide
  have hkept : (if run.isTerminal = true then run.status else .success) ∈ terminalStatuses := by
    split
    · next hterminal => exact of_decide_eq_true hterminal
    · decide
  unfold reconcileRun at h
  obtain ⟨phase, hphase, h⟩ := Option.bind_eq_some_iff.mp h
  have hdeletes : (observed.phase == some .active) = (phase == .active) := by rw [hphase]; rfl
  cases phase with
  | succeeded =>
      cases h
      exact ⟨raises_of_not_reads hphase rfl, Or.inr ⟨leftAlone_of_ne hphase (by decide), rfl,
        decide_eq_true hkept, rfl, hdeletes.symm⟩⟩
  | failed =>
      have hactive : leftAlone settings now observed run = false :=
        leftAlone_of_ne hphase (by decide)
      dsimp only at h
      split at h
      · next hcode =>
        cases h
        refine ⟨raises_of_not_reads hphase ?_, Or.inr ⟨hactive, rfl, decide_eq_true hended, rfl,
          hdeletes.symm⟩⟩
        exact Option.isNone_eq_false_iff.mpr hcode
      · obtain ⟨diagnostic, hdiagnostic, h⟩ := Option.bind_eq_some_iff.mp h
        cases h
        exact ⟨raises_of_diagnostic hphase hdiagnostic, Or.inr ⟨hactive, rfl, decide_eq_true hended,
          rfl, hdeletes.symm⟩⟩
  | missing =>
      have hactive : leftAlone settings now observed run = false :=
        leftAlone_of_ne hphase (by decide)
      dsimp only at h
      split at h <;> cases h <;> exact ⟨raises_of_not_reads hphase rfl, Or.inr ⟨hactive, rfl,
        decide_eq_true hended, rfl, hdeletes.symm⟩⟩
  | active =>
      dsimp only at h
      split at h
      · next requested hcancel =>
        have hquiet : raises settings now observed run = false :=
          raises_of_not_reads hphase (by simp [readsDiagnostic, hcancel])
        split at h
        · next hgrace =>
          cases h
          refine ⟨hquiet, Or.inr ⟨?_, rfl, rfl, rfl, hdeletes.symm⟩⟩
          rw [leftAlone_active hphase]
          simp [stopsJob, hcancel, hgrace]
        · next hgrace =>
          cases h
          refine ⟨hquiet, Or.inl ⟨?_, rfl⟩⟩
          rw [leftAlone_active hphase]
          simpa [stopsJob, hcancel] using hgrace
      · next hcancel =>
        split at h
        · next hstuck =>
          obtain ⟨diagnostic, hdiagnostic, h⟩ := Option.bind_eq_some_iff.mp h
          cases h
          refine ⟨raises_of_diagnostic hphase hdiagnostic,
            Or.inr ⟨?_, rfl, rfl, rfl, hdeletes.symm⟩⟩
          rw [leftAlone_active hphase]
          simp [stopsJob, hcancel, hstuck]
        · next hstuck =>
          cases h
          have hfresh : isStuck settings run now = false := by simpa using hstuck
          refine ⟨raises_of_not_reads hphase (by simp [readsDiagnostic, hfresh]), Or.inl ⟨?_, rfl⟩⟩
          rw [leftAlone_active hphase]
          simp [stopsJob, hcancel, hfresh]

/-- Without an exception of its own a computation that needs a value fails for want of the value. -/
theorem isNone_of_bind_eq_none {α β : Type} {value : Option α} {next : α → Option β}
    (hnext : ∀ a, next a ≠ none) (h : value.bind next = none) : value.isNone = true := by
  cases value with
  | none => rfl
  | some a => exact absurd h (hnext a)

theorem reconcileRun_eq_none_iff :
    reconcileRun settings now observed run = none ↔ raises settings now observed run = true := by
  constructor
  · intro h
    unfold reconcileRun at h
    cases hphase : observed.phase with
    | none => rw [raises, hphase]
    | some phase =>
        rw [hphase, Option.bind_eq_bind, Option.bind_some] at h
        rw [raises_eq hphase]
        cases phase with
        | succeeded => cases h
        | failed =>
            dsimp only at h
            split at h
            · cases h
            · next hcode =>
              have hdiagnostic := isNone_of_bind_eq_none (fun _ hsome => by cases hsome) h
              simpa [readsDiagnostic, hdiagnostic] using hcode
        | missing =>
            dsimp only at h
            split at h <;> cases h
        | active =>
            dsimp only at h
            split at h
            · split at h <;> cases h
            · next hcancel =>
              split at h
              · next hstuck =>
                have hdiagnostic := isNone_of_bind_eq_none (fun _ hsome => by cases hsome) h
                simp [readsDiagnostic, hcancel, hstuck, hdiagnostic]
              · cases h
  · intro hraises
    cases hresult : reconcileRun settings now observed run with
    | none => rfl
    | some result =>
        rw [(reconcileRun_cases hresult).1] at hraises
        cases hraises

/-- A tick changes no row that it does not report, and it never touches the Job name. -/
theorem reconcileRun_frame (h : reconcileRun settings now observed run = some result) :
    result.run.k8sJobName = run.k8sJobName ∧ (result.updated = false → result.run = run) := by
  obtain ⟨-, ⟨-, rfl⟩ | ⟨-, hended⟩⟩ := reconcileRun_cases h
  · exact ⟨rfl, fun _ => rfl⟩
  · refine ⟨hended.k8sJobName, fun hupdated => ?_⟩
    rw [hended.updated] at hupdated
    cases hupdated

/-- A tick writes four columns. -/
theorem reconcileRun_columns (h : reconcileRun settings now observed run = some result) :
    ∃ status finishedAt finishCode finishMessage,
      result.run = { run with status, finishedAt, finishCode, finishMessage } := by
  unfold reconcileRun at h
  obtain ⟨phase, -, h⟩ := Option.bind_eq_some_iff.mp h
  cases phase with
  | succeeded =>
      cases h
      exact ⟨_, _, _, _, rfl⟩
  | failed =>
      dsimp only at h
      split at h
      · cases h
        exact ⟨_, _, _, _, rfl⟩
      · obtain ⟨diagnostic, -, h⟩ := Option.bind_eq_some_iff.mp h
        cases h
        exact ⟨_, _, _, _, rfl⟩
  | missing =>
      dsimp only at h
      split at h <;> cases h <;> exact ⟨_, _, _, _, rfl⟩
  | active =>
      dsimp only at h
      split at h
      · split at h <;> cases h <;> exact ⟨_, _, _, _, rfl⟩
      · split at h
        · obtain ⟨diagnostic, -, h⟩ := Option.bind_eq_some_iff.mp h
          cases h
          exact ⟨_, _, _, _, rfl⟩
        · cases h
          exact ⟨_, _, _, _, rfl⟩

/-- A tick leaves a run as it is or gives it a terminal status. -/
theorem reconcileRun_ends (h : reconcileRun settings now observed run = some result) :
    result.run = run ∨ result.run.isTerminal = true := by
  obtain ⟨-, ⟨-, rfl⟩ | ⟨-, hended⟩⟩ := reconcileRun_cases h
  · exact Or.inl rfl
  · exact Or.inr hended.terminal

/-- A tick deletes the Jobs that it stops. -/
theorem deletes_iff (h : reconcileRun settings now observed run = some result) :
    result.deletes = true ↔ observed.phase = some .active ∧ stopsJob settings now run = true := by
  obtain ⟨-, ⟨halone, rfl⟩ | ⟨hchanged, hended⟩⟩ := reconcileRun_cases h
  · rw [leftAlone, Bool.and_eq_true, Bool.not_eq_true'] at halone
    simp [halone.2]
  · rw [leftAlone, Bool.and_eq_false_iff, Bool.not_eq_false'] at hchanged
    rw [hended.deletes, beq_iff_eq]
    refine ⟨fun hactive => ⟨hactive, hchanged.resolve_left ?_⟩, And.left⟩
    rw [beq_iff_eq.mpr hactive]
    decide

end JobReconciler
end PdeOperator
