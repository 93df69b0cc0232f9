import PdeOperator.ScheduleStore

/-! `ScheduleService.update_schedule` when it raises. The new payload is stored before the anchor is
computed and before the row is committed, so an update that raises after the storing leaves the old row
with the new payload. -/

namespace PdeOperator.ScheduleService
open Base

/-- The committed row and the stored payload of a schedule are what they were. -/
structure Spares (id : Uuid) (s s' : Store) : Prop where
  row : s'.committed.schedules.lookup id = s.committed.schedules.lookup id
  payload : s'.inputs.lookup id = s.inputs.lookup id

/-- A call that raises changes nothing of the schedule. -/
def ErrorSpares (id : Uuid) (s : Store) (call : Except Error Unit × Store) : Prop :=
  ∀ error, call.1 = .error error → Spares id s call.2

section Save

variable {env : CallEnv} {id : Uuid} {runRequest : CreateRunRequest}
  {saved : Except Error ScheduledRun} {row : ScheduledRun} {s : Store}

theorem Spares.refl : Spares id s s := ⟨rfl, rfl⟩

theorem errorSpares_ok {s' : Store} : ErrorSpares id s (.ok (), s') := by
  intro error herror
  cases herror

theorem errorSpares_error {error : Error} {s' : Store} :
    ErrorSpares id s (.error error, s') ↔ Spares id s s' :=
  ⟨fun h => h error rfl, fun h _ _ => h⟩

/-- Only the stored payload may differ. -/
theorem spares_of_committed {s' : Store} {payload : RunInputPayload}
    (hcommitted : s'.committed = s.committed) (hinputs : s'.inputs = s.inputs.insert id payload) :
    Spares id s s' ↔ s.inputs.lookup id = some payload := by
  constructor
  · intro h
    rw [← h.payload, hinputs, AList.lookup_insert]
  · intro h
    constructor
    · rw [hcommitted]
    · rw [hinputs, AList.lookup_insert, h]

theorem spares_storeInput {payload : RunInputPayload} :
    Spares id s (s.storeInput id payload) ↔ s.inputs.lookup id = some payload :=
  spares_of_committed rfl rfl

/-- A row that is not committed makes no difference. -/
theorem spares_putSchedule {payload : RunInputPayload} :
    Spares id s ((s.storeInput id payload).putSchedule id row) ↔
      s.inputs.lookup id = some payload :=
  spares_of_committed rfl rfl

/-- The row is committed and the payload stored. -/
theorem spares_saved {payload : RunInputPayload} :
    Spares id s ((s.storeInput id payload).putSchedule id row).commit ↔
      s.inputs.lookup id = some payload ∧ s.committed.schedules.lookup id = some row := by
  constructor
  · intro h
    have hrow := h.row
    have hpayload := h.payload
    simp only [Store.commit_committed, Store.commit_inputs, Store.putSchedule_schedules,
      Store.putSchedule_inputs, Store.storeInput_inputs, AList.lookup_insert] at hrow hpayload
    exact ⟨hpayload.symm, hrow.symm⟩
  · rintro ⟨hpayload, hrow⟩
    constructor
    · simp [hrow]
    · simp [hpayload]

/-- What becomes of a payload and a row that are to be saved. -/
theorem storeThenSave_spares_iff :
    ErrorSpares id s (storeThenSave env id runRequest saved s) ↔
      env.fails .storeInput = true ∨
      ((∃ row, saved = .ok row) ∧ env.fails .commit = false ∧ env.fails .refresh = false) ∨
      (s.inputs.lookup id = some (RunInputPayload.fromCreateRequest runRequest) ∧
        ((∃ error, saved = .error error) ∨ env.fails .commit = true ∨
          ∃ row, saved = .ok row ∧ s.committed.schedules.lookup id = some row)) := by
  unfold storeThenSave saveRow
  cases hstore : env.fails .storeInput with
  | true =>
      rw [if_pos rfl, errorSpares_error]
      simp [Spares.refl]
  | false =>
      rw [if_neg Bool.false_ne_true]
      cases saved with
      | error error =>
          rw [errorSpares_error, spares_storeInput]
          simp
      | ok row =>
          cases hcommit : env.fails .commit with
          | true =>
              simp only [if_true]
              rw [errorSpares_error, spares_putSchedule]
              simp
          | false =>
              cases hrefresh : env.fails .refresh with
              | true =>
                  simp only [Bool.false_eq_true, if_false, if_true]
                  rw [errorSpares_error, spares_saved]
                  simp
              | false => simp [errorSpares_ok]

end Save

section Conditions

variable (settings : Settings) (cron : CronLibrary) (env : CallEnv) (id : Uuid)
  (request : UpdateScheduledRunRequest) (s : Store) (row : ScheduledRun)

/-- The row gets a new anchor. -/
def needsAnchor : Bool :=
  request.enabled && (!row.enabled ||
    (row.cronExpression != request.cronExpression || row.timezone != request.timezone) ||
    row.nextFireAt.isNone)

/-- The row gets a new anchor, and there is none. -/
def AnchorFails : Prop :=
  needsAnchor request row = true ∧
    ∃ error, nextFireAt cron request.cronExpression request.timezone env.anchoredAt = .error error

/-- The request and the clock name what the row holds. -/
structure KeepsRow (runRequest : CreateRunRequest) : Prop where
  values : applyRequest request.toScheduledRunBase runRequest row = row
  enabled : row.enabled = request.enabled
  anchor : row.nextFireAt.isSome = request.enabled
  stamp : row.updatedAt = env.stampedAt

/-- What is read and checked before the payload is stored. -/
structure Accepted (current : RunInputPayload) (merged : Option Text) : Prop where
  read : env.fails .getSchedule = false
  found : s.session.schedules.lookup id = some row
  cron : validateCron settings cron request.cronExpression request.timezone env.checkedAt = .ok ()
  profile : ensureProfile env s.session request.profileId = .ok ()
  loaded : env.fails .loadInput = false
  stored : s.inputs.lookup id = some current
  secure : InputCrypto.mergeMaskedSecure request.pipelineVarsSecure current.pipelineVarsSecure =
    .ok merged

/-- After the storing nothing fails, or the payload was stored already and the row is not changed. -/
def HarmlessAfterStore (current : RunInputPayload) (merged : Option Text) : Prop :=
  (¬AnchorFails cron env request row ∧ env.fails .commit = false ∧ env.fails .refresh = false) ∨
  (current = RunInputPayload.fromCreateRequest (updateRunRequest request merged) ∧
    (AnchorFails cron env request row ∨ env.fails .commit = true ∨
      KeepsRow env request row (updateRunRequest request merged)))

/-- The update is refused before the payload is stored, or what follows is harmless. -/
def RefusedOrHarmless : Prop :=
  ∀ row current merged, Accepted settings cron env id request s row current merged →
    env.fails .storeInput = true ∨ HarmlessAfterStore cron env request row current merged

end Conditions

variable {settings : Settings} {cron : CronLibrary} {env : CallEnv} {id : Uuid}
  {request : UpdateScheduledRunRequest} {s : Store} {row : ScheduledRun}
  {runRequest : CreateRunRequest} {current : RunInputPayload} {merged : Option Text}

/-- Once the checks have passed, only the anchor is in the way of the row. -/
theorem updateRow_error_iff :
    (∃ error, updateRow cron request runRequest env.stampedAt env.anchoredAt row = .error error) ↔
      AnchorFails cron env request row := by
  unfold updateRow AnchorFails needsAnchor
  dsimp only
  cases request.enabled with
  | false => simp
  | true =>
      simp only [Bool.not_true, Bool.false_eq_true, if_false, Bool.true_and]
      split
      · next hneeds =>
        rw [hneeds]
        cases nextFireAt cron request.cronExpression request.timezone env.anchoredAt with
        | error error => simp [bind, Except.bind]
        | ok next => simp [bind, Except.bind]
      · next hkept =>
        simp [hkept]

theorem RowSaved.isSome_eq {base saved : ScheduledRun} {stamp now : Instant} {enabled : Bool}
    (h : RowSaved cron base stamp now enabled saved) : saved.nextFireAt.isSome = enabled := by
  cases h with
  | off => rfl
  | anchored hnext => rfl
  | kept hbase hanchor => exact hanchor

/-- A save touches three columns beside those of the request. -/
theorem RowSaved.values_eq {base saved : ScheduledRun} {stamp now : Instant} {enabled : Bool}
    (h : RowSaved cron base stamp now enabled saved) :
    { base with enabled := saved.enabled, nextFireAt := saved.nextFireAt
                updatedAt := saved.updatedAt } = saved := by
  cases h <;> rfl

/-- An update that gives the row back as it was. -/
theorem updateRow_eq_self_iff :
    updateRow cron request runRequest env.stampedAt env.anchoredAt row = .ok row ↔
      KeepsRow env request row runRequest := by
  constructor
  · intro h
    have hsaved := updateRow_saved h
    exact ⟨hsaved.values_eq, hsaved.enabled_eq, hsaved.isSome_eq, hsaved.updatedAt_eq⟩
  · rintro ⟨hvalues, henabled, hanchor, hstamp⟩
    have hcron : request.cronExpression = row.cronExpression :=
      congrArg ScheduledRun.cronExpression hvalues
    have hzone : request.timezone = row.timezone := congrArg ScheduledRun.timezone hvalues
    unfold updateRow
    dsimp only
    rw [hvalues, hcron, hzone, ← hstamp, ← henabled]
    cases hrow : row.enabled with
    | false =>
        have hnone : row.nextFireAt = none := by
          rw [← Option.not_isSome_iff_eq_none, hanchor, ← henabled, hrow]
          exact Bool.false_ne_true
        rw [Bool.not_false, if_pos rfl]
        exact congrArg Except.ok (by rw [← hrow, ← hnone])
    | true =>
        have hsome : row.nextFireAt.isNone = false := by
          rw [Option.isNone_eq_false_iff, hanchor, ← henabled, hrow]
        simp only [Bool.not_true, Bool.false_eq_true, if_false, bne_self_eq_false, hsome,
          Bool.or_self]
        exact congrArg Except.ok (by rw [← hrow])

/-- The row and the payload that were read decide the rest of the call. -/
theorem updateSchedule_spares_iff (hrest : s.AtRest)
    (haccepted : Accepted settings cron env id request s row current merged) :
    ErrorSpares id s (updateSchedule settings cron env id request s) ↔
      env.fails .storeInput = true ∨ HarmlessAfterStore cron env request row current merged := by
  have hprepare : prepareUpdate settings cron env s id request =
      .ok (row, updateRunRequest request merged) :=
    prepareUpdate_eq_ok.mpr ⟨haccepted.read, haccepted.found, haccepted.cron, haccepted.profile,
      haccepted.loaded, current, merged, haccepted.stored, haccepted.secure, rfl⟩
  have hcommitted : s.committed.schedules.lookup id = some row := by
    rw [← show s.session = s.committed from hrest]
    exact haccepted.found
  have hcall : updateSchedule settings cron env id request s =
      storeThenSave env id (updateRunRequest request merged)
        (updateRow cron request (updateRunRequest request merged) env.stampedAt env.anchoredAt row)
        s := by
    rw [updateSchedule, hprepare]
  rw [hcall, storeThenSave_spares_iff, updateRow_error_iff, haccepted.stored, hcommitted]
  have hok : (∃ saved, updateRow cron request (updateRunRequest request merged) env.stampedAt
      env.anchoredAt row = .ok saved) ↔ ¬AnchorFails cron env request row := by
    rw [← updateRow_error_iff]
    cases updateRow cron request (updateRunRequest request merged) env.stampedAt env.anchoredAt row
      with
    | error error => simp
    | ok saved => simp
  have hsame : (∃ saved, updateRow cron request (updateRunRequest request merged) env.stampedAt
      env.anchoredAt row = .ok saved ∧ some row = some saved) ↔
        KeepsRow env request row (updateRunRequest request merged) := by
    rw [← updateRow_eq_self_iff]
    constructor
    · rintro ⟨saved, hsaved, hrow⟩
      exact (Option.some.inj hrow).symm ▸ hsaved
    · exact fun h => ⟨row, h, rfl⟩
  rw [hok, hsame, Option.some.injEq, HarmlessAfterStore]

/-- A raising update leaves the row and the payload as they were exactly if it is refused before the
payload is stored, or nothing is changed by what follows. -/
theorem updateSchedule_error_spares_iff (hrest : s.AtRest) :
    ErrorSpares id s (updateSchedule settings cron env id request s) ↔
      RefusedOrHarmless settings cron env id request s := by
  constructor
  · intro h row current merged haccepted
    exact (updateSchedule_spares_iff hrest haccepted).mp h
  · intro h
    cases hprepare : prepareUpdate settings cron env s id request with
    | error error =>
        rw [updateSchedule, hprepare, errorSpares_error]
        exact Spares.refl
    | ok prepared =>
        obtain ⟨row, runRequest⟩ := prepared
        obtain ⟨hread, hfound, hcron, hprofile, hloaded, current, merged, hstored, hsecure, -⟩ :=
          prepareUpdate_eq_ok.mp hprepare
        have haccepted : Accepted settings cron env id request s row current merged :=
          ⟨hread, hfound, hcron, hprofile, hloaded, hstored, hsecure⟩
        exact (updateSchedule_spares_iff hrest haccepted).mpr (h row current merged haccepted)

/-- A store with one schedule and its payload. -/
def nightlyStore : Store :=
  ((sampleStore.storeInput 1 (RunInputPayload.fromCreateRequest sampleRunRequest)).putSchedule 1
    (sampleRow OverlapPolicy.skip)).commit

/-- The save of another pipeline. -/
def otherPipeline : UpdateScheduledRunRequest where
  name := "nightly".toList
  cronExpression := "* * * * *".toList
  pipelineData := "stages: [deploy]".toList

/-- The database refuses the commit. -/
def commitFails : CallEnv := { quietEnv with fails := fun access => access == .commit }

/-- An expression of two fields is refused by the first check. -/
theorem updateSchedule_error_spares_badCron :
    ErrorSpares 1 nightlyStore (updateSchedule {} everyMinute commitFails 1
      { otherPipeline with cronExpression := "* *".toList } nightlyStore) := by
  have hrest : nightlyStore.AtRest := rfl
  refine (updateSchedule_error_spares_iff hrest).mpr fun row current merged haccepted => ?_
  exact absurd haccepted.cron (by decide)

/-- The commit fails after the payload has been stored: the row still shows the old pipeline, the
payload has the new one. -/
theorem updateSchedule_error_not_spares :
    (updateSchedule {} everyMinute commitFails 1 otherPipeline nightlyStore).1 = .error .database ∧
      ¬ErrorSpares 1 nightlyStore
        (updateSchedule {} everyMinute commitFails 1 otherPipeline nightlyStore) := by
  have hraised : (updateSchedule {} everyMinute commitFails 1 otherPipeline nightlyStore).1 =
      .error .database := by
    decide
  have hpayload :
      (updateSchedule {} everyMinute commitFails 1 otherPipeline nightlyStore).2.inputs.lookup 1 ≠
        nightlyStore.inputs.lookup 1 := by
    decide
  exact ⟨hraised, fun h => hpayload (h _ hraised).payload⟩

end PdeOperator.ScheduleService
