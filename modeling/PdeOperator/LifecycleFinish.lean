import PdeOperator.LifecycleRows

/-! Operator finish codes while reports arrive. `apply_report_finish_code` looks at the row as the
delivery read it; between that read and the commit the reconciler may have committed a code of its own,
and the commit of the delivery then writes the code of the report over it. -/

namespace PdeOperator.Lifecycle
open Base FinishUtils

variable {settings : Settings} {parsers : Parsers} {w w' : World}

/-- The finish code that a delivery brings along. -/
def RunChange.reportCode (parsers : Parsers) : RunChange → Option Text
  | .deliverReport data => extractFinishCodeFromReport parsers data
  | .uploadArtifacts uploads => uploads.report.bind (extractFinishCodeFromReport parsers)
  | _ => none

/-- The step is no commit of a delivery onto a row with an operator code; or the delivery has read an
operator code, or its report has no code, the code it has read, or one with the prefix of the
operator. -/
def SparesOperatorCode (parsers : Parsers) (w : World) : Act → Prop
  | .commitRow c => ∀ change now id read work current code,
      w.calls c = some (.writing change now [] ⟨id, read, work⟩) →
      w.runs.lookup id = some current → isOperatorFinishCode current.finishCode = true →
      change.reportCode parsers = some code →
      isOperatorFinishCode read.finishCode = true ∨ some code = read.finishCode ∨
        isOperatorFinishCode (some code) = true
  | _ => True

theorem writeBack_finishCode (read work current : Run) :
    (writeBack read work current).finishCode =
      column read.finishCode work.finishCode current.finishCode := rfl

theorem applyReportFinishCode_finishCode (run : Run) (data : Bytes) :
    (applyReportFinishCode parsers run data).finishCode =
      if isOperatorFinishCode run.finishCode then run.finishCode
      else (extractFinishCodeFromReport parsers data).or run.finishCode := by
  unfold applyReportFinishCode
  split
  · rfl
  · cases extractFinishCodeFromReport parsers data with
    | none => rfl
    | some code => rfl

/-- A change of a row takes the code of its report, unless the row has an operator code. -/
theorem RunChange.apply_finishCode {now : Instant} {runId : Uuid} {run work : Run}
    {change : RunChange} (h : change.apply parsers now runId run = .ok work) :
    work.finishCode = if isOperatorFinishCode run.finishCode then run.finishCode
      else (change.reportCode parsers).or run.finishCode := by
  cases change with
  | cancelRun =>
      obtain ⟨-, ⟨-, rfl⟩ | ⟨-, rfl⟩⟩ := RunService.cancelRun_ok h
      · exact (ite_self run.finishCode).symm
      · exact (ite_self run.finishCode).symm
  | deliverStatus status =>
      cases h
      exact (ite_self run.finishCode).symm
  | deliverReport data =>
      cases h
      exact applyReportFinishCode_finishCode _ data
  | deliverLog =>
      cases h
      exact (ite_self run.finishCode).symm
  | uploadArtifacts uploads =>
      cases h
      have hstate : (if uploads.state.isSome then
          { run with stateLocation := some (artifactKey runId .state) } else run).finishCode =
            run.finishCode := by
        split <;> rfl
      have hlog : ∀ base : Run, (if uploads.log.isSome then
          { base with logUpdatedAt := some now } else base).finishCode = base.finishCode := by
        intro base
        split <;> rfl
      unfold RunService.uploadArtifacts
      refine (hlog _).trans ?_
      rw [RunChange.reportCode]
      cases uploads.report with
      | none => exact hstate.trans (ite_self run.finishCode).symm
      | some report =>
          refine (applyReportFinishCode_finishCode _ report).trans ?_
          dsimp only
          rw [hstate]
          rfl

/-- A tick writes no finish code but those of the operator. -/
theorem reconcileRun_finishCode {now : Instant} {observed : JobObservation} {run : Run}
    {result : Reconciled} (h : JobReconciler.reconcileRun settings now observed run = some result) :
    result.run.finishCode = run.finishCode ∨
      isOperatorFinishCode result.run.finishCode = true := by
  have hcancelled : isOperatorFinishCode (some OperatorFinishCodes.runCancelled) = true := by decide
  have hstuck : isOperatorFinishCode (some OperatorFinishCodes.runStuckTimeout) = true := by decide
  have hended : ∀ cancelled : Bool, ∀ code, isOperatorFinishCode (some code) = true →
      isOperatorFinishCode (some (if cancelled then OperatorFinishCodes.runCancelled else code)) =
        true := by
    intro cancelled code hcode
    cases cancelled with
    | true => exact hcancelled
    | false => exact hcode
  unfold JobReconciler.reconcileRun at h
  obtain ⟨phase, -, h⟩ := Option.bind_eq_some_iff.mp h
  cases phase with
  | succeeded =>
      cases h
      exact Or.inl rfl
  | failed =>
      dsimp only at h
      split at h
      · cases h
        exact Or.inl rfl
      · obtain ⟨diagnostic, -, h⟩ := Option.bind_eq_some_iff.mp h
        cases h
        exact Or.inr (hended _ _ (by decide))
  | missing =>
      dsimp only at h
      split at h
      · cases h
        exact Or.inl rfl
      · cases h
        exact Or.inr (hended _ _ (by decide))
  | active =>
      dsimp only at h
      split at h
      · split at h
        · cases h
          exact Or.inr hcancelled
        · cases h
          exact Or.inl rfl
      · split at h
        · obtain ⟨diagnostic, -, h⟩ := Option.bind_eq_some_iff.mp h
          cases h
          exact Or.inr hstuck
        · cases h
          exact Or.inl rfl

theorem admitRun_finishCode {now : Instant} {runId : Uuid} {profile : Option Profile}
    {outcome : JobOutcome} {run : Run} :
    (QueueService.admitRun now runId profile outcome run).finishCode = run.finishCode := by
  cases profile with
  | none => rfl
  | some profile => cases outcome <;> rfl

/-- What is written of a change onto a row with an operator code. -/
theorem operatorCode_writeBack_iff {now : Instant} {runId : Uuid} {read work current : Run}
    {change : RunChange} (h : change.apply parsers now runId read = .ok work)
    (hcurrent : isOperatorFinishCode current.finishCode = true) :
    isOperatorFinishCode (writeBack read work current).finishCode = true ↔
      ∀ code, change.reportCode parsers = some code →
        isOperatorFinishCode read.finishCode = true ∨ some code = read.finishCode ∨
          isOperatorFinishCode (some code) = true := by
  rw [writeBack_finishCode, RunChange.apply_finishCode h]
  cases hread : isOperatorFinishCode read.finishCode with
  | true => simp [hcurrent]
  | false =>
      cases change.reportCode parsers with
      | none => simp [hcurrent]
      | some code =>
          by_cases hsame : some code = read.finishCode
          · simp [← hsame, hcurrent]
          · simp [column, hsame]

/-- The run has an operator code, or no row any more. -/
structure OperatorCoded (id : Uuid) (w : World) : Prop where
  taken : Taken w id
  code : ∀ run, w.runs.lookup id = some run → isOperatorFinishCode run.finishCode = true

theorem operatorCoded_step {a : Act} {id : Uuid} (hsound : Sound settings parsers w)
    (hinv : OperatorCoded id w) (hok : SparesOperatorCode parsers w a)
    (h : step settings parsers w a = some w') : OperatorCoded id w' := by
  refine ⟨taken_step hsound.valid hinv.taken h, fun next hnext => ?_⟩
  cases rowStep_of_step hsound h id with
  | same hrow => exact hinv.code next (hrow ▸ hnext)
  | change hcall happly hfree hrow =>
      rw [hrow] at hnext
      obtain ⟨current, hcurrent, rfl⟩ := Option.map_eq_some_iff.mp hnext
      have hcode := hinv.code current hcurrent
      refine (operatorCode_writeBack_iff happly hcode).mpr fun code hreport => ?_
      exact hok _ _ _ _ _ current code hcall hcurrent hcode hreport
  | reconcile hcall hmem htracked hresult hwork hdirty hfree hrow =>
      rw [hrow] at hnext
      obtain ⟨current, hcurrent, rfl⟩ := Option.map_eq_some_iff.mp hnext
      rw [writeBack_finishCode, hwork]
      rcases column_eq_or _ _ current.finishCode with hkept | hset
      · rw [hkept]
        exact hinv.code current hcurrent
      · rcases reconcileRun_finishCode hresult with hsame | hoperator
        · rw [hsame, column_clean]
          exact hinv.code current hcurrent
        · rw [hset]
          exact hoperator
  | start hcall hmem hqueued hwork hlock hold hrow =>
      obtain rfl := Option.some.inj (hrow.symm.trans hnext)
      rw [hwork, admitRun_finishCode]
      exact hinv.code _ hold
  | insert hcall hvalid hold hrow => exact absurd (newIdIn_of_some hcall) (hinv.taken.2 _)
  | erase hfree hrow =>
      rw [hrow] at hnext
      cases hnext

/-- A step that does not spare operator codes overwrites one. -/
theorem exists_overwritten {a : Act} (hsound : Sound settings parsers w)
    (hbad : ¬SparesOperatorCode parsers w a) (h : step settings parsers w a = some w') :
    ∃ id run run', w.runs.lookup id = some run ∧ isOperatorFinishCode run.finishCode = true ∧
      w'.runs.lookup id = some run' ∧ isOperatorFinishCode run'.finishCode = false := by
  cases step_cases h with
  | @commitRow c change now row runs hcall hlock hflush =>
      obtain ⟨id, read, work⟩ := row
      simp only [SparesOperatorCode, not_forall] at hbad
      obtain ⟨_, _, _, _, _, current, code, hcall', hcurrent, hcode, hreport, hnot⟩ := hbad
      cases hcall.symm.trans hcall'
      refine ⟨id, current, writeBack read work current, hcurrent, hcode, ?_, ?_⟩
      · exact (Table.lookup_flush_self hflush).trans (by rw [hcurrent]; rfl)
      · rw [← Bool.not_eq_true, operatorCode_writeBack_iff (hsound.valid c _ hcall) hcode]
        exact fun hall => hnot (hall code hreport)
  | _ => exact absurd trivial hbad

variable (settings parsers) in
/-- Along an execution, a run that is seen with an operator finish code is never seen with another
kind of code later. -/
def OperatorCodesStick (w : World) (acts : List Act) : Prop :=
  ∀ id before between after u v, acts = before ++ between ++ after →
    (system settings parsers).exec w before = some u →
    (∃ run, u.runs.lookup id = some run ∧ isOperatorFinishCode run.finishCode = true) →
    (system settings parsers).exec u between = some v →
    ∀ run', v.runs.lookup id = some run' → isOperatorFinishCode run'.finishCode = true

/-- Operator finish codes stick exactly along the executions in which no delivery with a code of its
own is committed over one that it has not read. -/
theorem operatorCodesStick_iff {acts : List Act} (hidle : Idle w)
    (hexec : (system settings parsers).exec w acts = some w') :
    OperatorCodesStick settings parsers w acts ↔
      (system settings parsers).Meets (SparesOperatorCode parsers) w acts := by
  refine System.sticks_iff_meets (I := Sound settings parsers)
    (fun id u => ∃ run, u.runs.lookup id = some run ∧ isOperatorFinishCode run.finishCode = true)
    OperatorCoded
    (fun id v => ∀ run, v.runs.lookup id = some run → isOperatorFinishCode run.finishCode = true)
    (fun hi hs => sound_step hi hs) ?_ OperatorCoded.code
    (fun hi hheld hok hs => operatorCoded_step hi hheld hok hs) ?_ hidle.sound hexec
  · rintro id u hsound ⟨run, hrun, hcode⟩
    refine ⟨hsound.consistent.taken hrun, fun current hcurrent => ?_⟩
    obtain rfl := Option.some.inj (hrun.symm.trans hcurrent)
    exact hcode
  · intro u a v hsound hbad hstep
    obtain ⟨id, run, run', hrun, hcode, hrun', hlost⟩ := exists_overwritten hsound hbad hstep
    refine ⟨id, ⟨run, hrun, hcode⟩, fun hall => ?_⟩
    rw [hall run' hrun'] at hlost
    cases hlost

/-- The bytes of `{"code": "PDE-0001"}`. -/
def sampleReport : Bytes :=
  [123, 34, 99, 111, 100, 101, 34, 58, 32, 34, 80, 68, 69, 45, 48, 48, 48, 49, 34, 125]

/-- Parsers that read this report and no other text. -/
def reportParsers : Parsers where
  fromIsoFormat _ := none
  jsonLoads data := if data = sampleReport then some (.obj [("code".toList, .str "PDE-0001".toList)]) else none

/-- A run whose Job fails while its report is delivered: the delivery has read the row and stores the
report, the reconciler commits its code. -/
def failsDuringReport : List Act :=
  createAlone 0 1 sampleRequest 0 ++ admitAlone 1 1 ++
    [.readRow 2 1 (.deliverReport sampleReport) 2, .reconcileRead 3 2,
      .reconcileNext 3 ⟨some .failed, some none, true⟩, .reconcileCommit 3, .putNext 2]

def codeAfter (acts : List Act) : Option (Option Text) :=
  (((system {} reportParsers).exec sampleWorld acts).bind fun w => w.runs.lookup 1).map
    Run.finishCode

/-- The delivery commits, and the code of the report replaces `PDE-OPERATOR-JOB-FAILED`. -/
theorem report_overwrites_operatorCode :
    ¬OperatorCodesStick {} reportParsers sampleWorld (failsDuringReport ++ [.commitRow 2]) := by
  intro h
  have hbefore : codeAfter failsDuringReport = some (some OperatorFinishCodes.runJobFailed) := by
    decide
  have hafter : codeAfter (failsDuringReport ++ [.commitRow 2]) = some (some "PDE-0001".toList) := by
    decide
  obtain ⟨run, hrow, hcode⟩ := Option.map_eq_some_iff.mp hbefore
  obtain ⟨run', hrow', hcode'⟩ := Option.map_eq_some_iff.mp hafter
  obtain ⟨u, v, hu, hrun, hbetween, hrun'⟩ := System.exists_between hrow hrow'
  have hoperator : isOperatorFinishCode run.finishCode = true := by
    rw [hcode]
    decide
  have hkept := h 1 failsDuringReport [.commitRow 2] [] u v (List.append_nil _).symm hu
    ⟨run, hrun, hoperator⟩ hbetween run' hrun'
  rw [hcode'] at hkept
  exact absurd hkept (by decide)

/-- The equivalence for the execution that ends before that commit. -/
theorem operatorCodesStick_iff_failsDuringReport :
    OperatorCodesStick {} reportParsers sampleWorld failsDuringReport ↔
      (system {} reportParsers).Meets (SparesOperatorCode reportParsers) sampleWorld
        failsDuringReport := by
  have hexec : ((system {} reportParsers).exec sampleWorld failsDuringReport).isSome = true := by
    decide
  obtain ⟨w', hw'⟩ := Option.isSome_iff_exists.mp hexec
  exact operatorCodesStick_iff (World.initial_idle _) hw'

end PdeOperator.Lifecycle
