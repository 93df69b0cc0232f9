import PdeOperator.InputCryptoRoundTrip
import PdeOperator.ScheduleStore

/-! Saving a schedule with the secrets as the API displays them, after any history of calls: it keeps
the stored secrets exactly when the text survives the mask. -/

namespace PdeOperator
open Base ScheduleService

/-- A call that may change schedules or their stored payloads. -/
inductive ScheduleCall where
  | create (env : CallEnv) (scheduleId : Option Uuid) (request : CreateScheduledRunRequest)
  | update (env : CallEnv) (scheduleId : Uuid) (request : UpdateScheduledRunRequest)
  | deleteAll (env : CallEnv)
  /-- Any other call: it edits the database or deletes a payload, but stores none. -/
  | edit (db : Database)
  | deleteInput (scheduleId : Uuid)

/-- A new session on the committed database. -/
def Store.reopen (s : Store) : Store := { s with session := s.committed }

section History

variable (settings : Settings) (cron : CronLibrary)
  (adapter : RunTemplate → JsonObject → Except ScheduleService.Error CreateRunRequest)

/-- The store after one call in a session of its own, whether it succeeds or raises. -/
def serve (s : Store) : ScheduleCall → Store
  | .create env scheduleId request =>
      (createSchedule settings cron adapter env scheduleId request s).2.reopen
  | .update env scheduleId request => (updateSchedule settings cron env scheduleId request s).2.reopen
  | .deleteAll env => (deleteAllSchedules env s).2.reopen
  | .edit db => { s with committed := db, session := db }
  | .deleteInput scheduleId => { s with inputs := s.inputs.erase scheduleId }

def history (s : Store) (calls : List ScheduleCall) : Store :=
  calls.foldl (serve settings cron adapter) s

variable {settings cron adapter} {env : CallEnv} {s : Store}

/-- All stored secure texts have come out of a merge. -/
def SecureInputs (s : Store) : Prop :=
  ∀ id payload, s.inputs.lookup id = some payload →
    InputCrypto.Stored payload.pipelineVarsSecure

theorem SecureInputs.insert {inputs : Table Uuid RunInputPayload} {id : Uuid}
    {payload : RunInputPayload}
    (h : ∀ key p, inputs.lookup key = some p → InputCrypto.Stored p.pipelineVarsSecure)
    (hpayload : InputCrypto.Stored payload.pipelineVarsSecure) :
    ∀ key p, (inputs.insert id payload).lookup key = some p →
      InputCrypto.Stored p.pipelineVarsSecure := by
  intro key p hp
  by_cases hkey : key = id
  · rw [hkey, AList.lookup_insert, Option.some.injEq] at hp
    rw [← hp]
    exact hpayload
  · rw [AList.lookup_insert_ne hkey] at hp
    exact h key p hp

theorem SecureInputs.erase {inputs : Table Uuid RunInputPayload} {id : Uuid}
    (h : ∀ key p, inputs.lookup key = some p → InputCrypto.Stored p.pipelineVarsSecure) :
    ∀ key p, (inputs.erase id).lookup key = some p → InputCrypto.Stored p.pipelineVarsSecure := by
  intro key p hp
  by_cases hkey : key = id
  · rw [hkey, AList.lookup_erase] at hp
    cases hp
  · rw [AList.lookup_erase_ne hkey] at hp
    exact h key p hp

/-- Both calls leave the payloads as they are or store the one they have prepared. -/
theorem storeThenSave_inputs (id : Uuid) (runRequest : CreateRunRequest)
    (row : Except ScheduleService.Error ScheduledRun) :
    (storeThenSave env id runRequest row s).2.inputs = s.inputs ∨
      (storeThenSave env id runRequest row s).2.inputs =
        s.inputs.insert id (RunInputPayload.fromCreateRequest runRequest) := by
  obtain ⟨result, hresult⟩ : ∃ result, storeThenSave env id runRequest row s = result := ⟨_, rfl⟩
  rw [hresult]
  cases saveOutcome hresult with
  | notStored => exact Or.inl rfl
  | noRow => exact Or.inr rfl
  | notCommitted => exact Or.inr rfl
  | committed => exact Or.inr rfl

theorem secureInputs_storeThenSave (h : SecureInputs s) (id : Uuid) {runRequest : CreateRunRequest}
    (row : Except ScheduleService.Error ScheduledRun)
    (hsecure : InputCrypto.Stored runRequest.pipelineVarsSecure) :
    SecureInputs (storeThenSave env id runRequest row s).2 := by
  unfold SecureInputs
  rcases @storeThenSave_inputs env s id runRequest row with hsame | hstored
  · rw [hsame]
    exact h
  · rw [hstored]
    exact SecureInputs.insert h hsecure

theorem stored_of_prepareCreate {db : Database} {request : CreateScheduledRunRequest}
    {runRequest : CreateRunRequest}
    (h : prepareCreate settings cron adapter env db request = .ok runRequest) :
    InputCrypto.Stored runRequest.pipelineVarsSecure := by
  obtain ⟨_, -, h⟩ := bind_eq_ok.mp h
  obtain ⟨resolved, -, h⟩ := bind_eq_ok.mp h
  obtain ⟨_, -, h⟩ := bind_eq_ok.mp h
  obtain ⟨secure, hsecure, h⟩ := bind_eq_ok.mp h
  cases h
  exact InputCrypto.stored_of_mergeMaskedSecure (mapError_eq_ok.mp hsecure)

theorem stored_of_prepareUpdate {id : Uuid} {request : UpdateScheduledRunRequest}
    {row : ScheduledRun} {runRequest : CreateRunRequest}
    (h : prepareUpdate settings cron env s id request = .ok (row, runRequest)) :
    InputCrypto.Stored runRequest.pipelineVarsSecure := by
  obtain ⟨-, -, -, -, -, current, merged, -, hmerged, rfl⟩ := prepareUpdate_eq_ok.mp h
  exact InputCrypto.stored_of_mergeMaskedSecure hmerged

theorem secureInputs_deleteInputs {inputs : Table Uuid RunInputPayload} (ids : List Uuid)
    (h : ∀ key p, inputs.lookup key = some p → InputCrypto.Stored p.pipelineVarsSecure) :
    ∀ key p, (deleteInputs env ids inputs).lookup key = some p →
      InputCrypto.Stored p.pipelineVarsSecure := by
  induction ids generalizing inputs with
  | nil => exact h
  | cons id ids ih =>
      apply ih
      split
      · exact h
      · exact SecureInputs.erase h

theorem secureInputs_serve (h : SecureInputs s) (call : ScheduleCall) :
    SecureInputs (serve settings cron adapter s call) := by
  cases call with
  | create env scheduleId request =>
      show SecureInputs (createSchedule settings cron adapter env scheduleId request s).2
      unfold createSchedule
      split
      · exact h
      · next runRequest hprepared =>
        exact secureInputs_storeThenSave h _ _ (stored_of_prepareCreate hprepared)
  | update env scheduleId request =>
      show SecureInputs (updateSchedule settings cron env scheduleId request s).2
      unfold updateSchedule
      split
      · exact h
      · next row runRequest hprepared =>
        exact secureInputs_storeThenSave h _ _ (stored_of_prepareUpdate hprepared)
  | deleteAll env =>
      show SecureInputs (deleteAllSchedules env s).2
      unfold deleteAllSchedules
      split
      · exact h
      · split
        · exact h
        · split
          · exact h
          · split
            · exact h
            · exact secureInputs_deleteInputs _ h
  | edit db => exact h
  | deleteInput scheduleId => exact SecureInputs.erase h

theorem secureInputs_history (h : SecureInputs s) (calls : List ScheduleCall) :
    SecureInputs (history settings cron adapter s calls) := by
  induction calls generalizing s with
  | nil => exact h
  | cons call calls ih => exact ih (secureInputs_serve h call)

end History

/-- The request with the fields as the API displays them. -/
def displayedRequest (row : ScheduledRun) (secure : Option Text) : UpdateScheduledRunRequest where
  name := row.name
  description := row.description
  cronExpression := row.cronExpression
  timezone := row.timezone
  enabled := row.enabled
  overlapPolicy := row.overlapPolicy
  profileId := row.profileId
  pipelineVars := row.pipelineVars
  pipelineVarsSecure := InputCrypto.maskSecureVars secure
  isDryRun := row.isDryRun
  logLevel := row.logLevel
  envVars := row.envVars
  pdeImage := row.pdeImage
  pipelineData := row.pipelineData

section Saving

variable (settings : Settings) (cron : CronLibrary) (env : CallEnv) (id : Uuid) (row : ScheduledRun)
  (s : Store)

/-- The call succeeds and leaves the stored secure text as it was. -/
def SavesUnchanged (secure : Option Text) : Prop :=
  ∃ s', updateSchedule settings cron env id (displayedRequest row secure) s = (.ok (), s') ∧
    (s'.inputs.lookup id).map RunInputPayload.pipelineVarsSecure = some secure

/-- What the call needs besides the secrets: the storage works, the profile is there, and the cron
expression is accepted again. -/
structure ChecksPass : Prop where
  accesses : ∀ access ∈ [Access.getSchedule, .getProfile, .loadInput, .storeInput, .commit, .refresh],
    env.fails access = false
  cronAccepted : validateCron settings cron row.cronExpression row.timezone env.checkedAt = .ok ()
  profile : (s.session.profiles.lookup row.profileId).isSome = true
  anchor : row.enabled = true → row.nextFireAt = none →
    ∃ next, nextFireAt cron row.cronExpression row.timezone env.anchoredAt = .ok next

variable {settings cron env id row s}

theorem updateRow_displayed_iff {secure : Option Text} {runRequest : CreateRunRequest}
    {stamp now : Instant} :
    (∃ saved, updateRow cron (displayedRequest row secure) runRequest stamp now row = .ok saved) ↔
      (row.enabled = true → row.nextFireAt = none →
        ∃ next, nextFireAt cron row.cronExpression row.timezone now = .ok next) := by
  unfold updateRow displayedRequest
  cases henabled : row.enabled with
  | false => simp
  | true =>
      cases hanchor : row.nextFireAt with
      | some planned => simp
      | none =>
          cases hnext : nextFireAt cron row.cronExpression row.timezone now with
          | error error => simp [bind, Except.bind]
          | ok next => simp [bind, Except.bind]

/-- The call succeeds when its checks pass, and stores the merged text. -/
theorem savesUnchanged_iff {payload : RunInputPayload} {merged : Option Text}
    (hrow : s.session.schedules.lookup id = some row) (hpayload : s.inputs.lookup id = some payload)
    (hmerged : InputCrypto.mergeMaskedSecure
      (InputCrypto.maskSecureVars payload.pipelineVarsSecure) payload.pipelineVarsSecure =
        .ok merged) :
    SavesUnchanged settings cron env id row s payload.pipelineVarsSecure ↔
      merged = payload.pipelineVarsSecure ∧ ChecksPass settings cron env row s := by
  constructor
  · rintro ⟨s', hupdate, hsecure⟩
    unfold updateSchedule at hupdate
    split at hupdate
    · cases hupdate
    · next row' runRequest hprepared =>
      obtain ⟨hget, hrow', hcron, hprofile, hload, current, merged', hcurrent, hmerged', rfl⟩ :=
        prepareUpdate_eq_ok.mp hprepared
      obtain rfl := Option.some.inj (hrow.symm.trans hrow')
      obtain rfl := Option.some.inj (hpayload.symm.trans hcurrent)
      have hsame : merged = merged' := Except.ok.inj (hmerged.symm.trans hmerged')
      subst hsame
      obtain ⟨hstore, hcommit, hrefresh, saved, hsaved, rfl⟩ := storeThenSave_eq_ok.mp hupdate
      obtain ⟨hgetProfile, hfound⟩ := ensureProfile_eq_ok.mp hprofile
      rw [Store.commit_inputs, Store.putSchedule_inputs, Store.storeInput_inputs,
        AList.lookup_insert, Option.map_some, Option.some.injEq] at hsecure
      refine ⟨hsecure, ?_, hcron, hfound, updateRow_displayed_iff.mp ⟨saved, hsaved⟩⟩
      simp only [List.mem_cons, List.not_mem_nil, or_false, forall_eq_or_imp, forall_eq]
      exact ⟨hget, hgetProfile, hload, hstore, hcommit, hrefresh⟩
  · rintro ⟨hkept, hchecks⟩
    have haccesses := hchecks.accesses
    simp only [List.mem_cons, List.not_mem_nil, or_false, forall_eq_or_imp, forall_eq] at haccesses
    obtain ⟨hget, hgetProfile, hload, hstore, hcommit, hrefresh⟩ := haccesses
    have hprepared : prepareUpdate settings cron env s id
        (displayedRequest row payload.pipelineVarsSecure) = .ok (row, updateRunRequest
          (displayedRequest row payload.pipelineVarsSecure) merged) :=
      prepareUpdate_eq_ok.mpr ⟨hget, hrow, hchecks.cronAccepted,
        ensureProfile_eq_ok.mpr ⟨hgetProfile, hchecks.profile⟩, hload, payload, merged, hpayload,
        hmerged, rfl⟩
    obtain ⟨saved, hsaved⟩ := updateRow_displayed_iff.mpr hchecks.anchor
    refine ⟨((s.storeInput id (RunInputPayload.fromCreateRequest (updateRunRequest
      (displayedRequest row payload.pipelineVarsSecure) merged))).putSchedule id saved).commit,
      ?_, ?_⟩
    · rw [updateSchedule, hprepared]
      exact storeThenSave_eq_ok.mpr ⟨hstore, hcommit, hrefresh, saved, hsaved, rfl⟩
    · rw [Store.commit_inputs, Store.putSchedule_inputs, Store.storeInput_inputs,
        AList.lookup_insert, Option.map_some, Option.some.injEq]
      exact hkept

end Saving

/-- After any history, saving a schedule as it is displayed keeps its secrets exactly when the other
checks pass and the stored text survives the mask; merging the mask back gives the text under the
same condition on it. -/
theorem displayed_save_iff_keepsSecrets (settings : Settings) (cron : CronLibrary)
    (adapter : RunTemplate → JsonObject → Except ScheduleService.Error CreateRunRequest)
    {start : Store} {calls : List ScheduleCall} (hstart : SecureInputs start) {id : Uuid}
    {row : ScheduledRun} {payload : RunInputPayload} (env : CallEnv)
    (hrow : (history settings cron adapter start calls).session.schedules.lookup id = some row)
    (hpayload : (history settings cron adapter start calls).inputs.lookup id = some payload) :
    (SavesUnchanged settings cron env id row (history settings cron adapter start calls)
        payload.pipelineVarsSecure ↔
      InputCrypto.KeepsSecrets payload.pipelineVarsSecure ∧
        ChecksPass settings cron env row (history settings cron adapter start calls)) ∧
      (InputCrypto.mergeMaskedSecure (InputCrypto.maskSecureVars payload.pipelineVarsSecure)
          payload.pipelineVarsSecure = .ok payload.pipelineVarsSecure ↔
        InputCrypto.KeepsSecrets payload.pipelineVarsSecure) := by
  have hstored : InputCrypto.Stored payload.pipelineVarsSecure :=
    secureInputs_history hstart calls id payload hpayload
  obtain ⟨merged, hmerged, hkeeps⟩ := InputCrypto.mergeMaskedSecure_maskSecureVars hstored
  constructor
  · rw [savesUnchanged_iff hrow hpayload hmerged, hkeeps]
  · rw [hmerged, Except.ok.injEq, hkeeps]

theorem secureInputs_sampleStore : SecureInputs sampleStore := by
  intro id payload hpayload
  cases hpayload

/-- The creation of a schedule with secrets. -/
def createWith (secure : Text) : ScheduleCall :=
  .create quietEnv none
    { name := "nightly".toList, cronExpression := "* * * * *".toList
      pipelineData := some "stages: []".toList, pipelineVarsSecure := some secure }

/-- The store after that creation, its row and its payload. -/
def createdStore (secure : Text) : Store :=
  history {} everyMinute noAdapter sampleStore [createWith secure]

def createdRow (displayed : Text) : ScheduledRun :=
  { sampleRow OverlapPolicy.allow with pipelineVarsSecure := some displayed }

def createdPayload (secure : Text) : RunInputPayload :=
  RunInputPayload.fromCreateRequest { sampleRunRequest with pipelineVarsSecure := some secure }

theorem checksPass_created {secure displayed : Text}
    (hprofiles : (createdStore secure).session.profiles = sampleDatabase.profiles) :
    ChecksPass {} everyMinute quietEnv (createdRow displayed) (createdStore secure) where
  accesses _ _ := rfl
  cronAccepted := rfl
  profile := by
    rw [hprofiles]
    rfl
  anchor _ hanchor := by cases hanchor

theorem displayed_save_iff_keepsSecrets_token :
    SavesUnchanged {} everyMinute quietEnv 1 (createdRow "TOKEN=[MASKED]".toList)
      (createdStore "TOKEN=real".toList) (some "TOKEN=real".toList) := by
  have hrow : (createdStore "TOKEN=real".toList).session.schedules.lookup 1 =
      some (createdRow "TOKEN=[MASKED]".toList) := by decide
  have hpayload : (createdStore "TOKEN=real".toList).inputs.lookup 1 =
      some (createdPayload "TOKEN=real".toList) := by decide
  have hlines : InputCrypto.secureLines (some "TOKEN=real".toList) = ["TOKEN=real".toList] := by
    decide
  have hkeeps : InputCrypto.KeepsSecrets (some "TOKEN=real".toList) := by
    refine ⟨?_, ?_⟩ <;> rw [hlines]
    · intro line hline heq
      rw [List.mem_singleton.mp hline] at heq
      exact absurd (by decide) heq
    · intro line hline other hother _ _ _
      rw [List.mem_singleton.mp hline, List.mem_singleton.mp hother]
  exact (displayed_save_iff_keepsSecrets {} everyMinute noAdapter secureInputs_sampleStore quietEnv
    hrow hpayload).1.mpr ⟨hkeeps, checksPass_created rfl⟩

/-- A secret without `=` is overwritten by the placeholder when its schedule is saved as it is
displayed. -/
theorem plain_secret_overwritten :
    ∃ s row payload, s = createdStore "secret".toList ∧ s.session.schedules.lookup 1 = some row ∧
      s.inputs.lookup 1 = some payload ∧
      row.pipelineVarsSecure = InputCrypto.maskSecureVars payload.pipelineVarsSecure ∧
      ChecksPass {} everyMinute quietEnv row s ∧
      ¬SavesUnchanged {} everyMinute quietEnv 1 row s payload.pipelineVarsSecure := by
  refine ⟨_, createdRow "[MASKED]".toList, createdPayload "secret".toList, rfl, by decide, by decide,
    by decide, checksPass_created rfl, ?_⟩
  rintro ⟨s', hupdate, hsecure⟩
  have hafter : ((updateSchedule {} everyMinute quietEnv 1
      (displayedRequest (createdRow "[MASKED]".toList) (some "secret".toList))
      (createdStore "secret".toList)).2.inputs.lookup 1).map RunInputPayload.pipelineVarsSecure =
      some (some "[MASKED]".toList) := by
    decide
  rw [show (createdPayload "secret".toList).pipelineVarsSecure = some "secret".toList from rfl]
    at hupdate hsecure
  rw [hupdate, hsecure] at hafter
  exact absurd hafter (by decide)

end PdeOperator
