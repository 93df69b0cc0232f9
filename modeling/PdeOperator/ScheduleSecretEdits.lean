import PdeOperator.InputCryptoEntries
import PdeOperator.ScheduleStore

/-! Edit histories of the secrets of one schedule: a creation and any number of updates that submit
`KEY=VALUE` lines. Each accepted call is an edit of the stored map of secrets, and a rejected one
changes nothing. -/

namespace PdeOperator
open Base ScheduleService InputCrypto

/-- The map after the submission of some entries: the placeholder keeps the value of its key, any
other value replaces it, and a key that is not submitted is dropped. -/
def editSecrets (submitted : SecretEntries) (before : Text → Option Text) (key : Text) : Option Text :=
  (submitted.find key).bind fun value => if value = maskedValue then before key else some value

/-- Every key that keeps its value has one. -/
def EditAllowed (submitted : SecretEntries) (before : Text → Option Text) : Prop :=
  ∀ key, submitted.find key = some maskedValue → (before key).isSome = true

/-- No submitted value is the placeholder. -/
def AllFresh (submitted : SecretEntries) : Prop := ∀ key, submitted.find key ≠ some maskedValue

theorem AllFresh.allowed {submitted : SecretEntries} (h : AllFresh submitted)
    (before : Text → Option Text) : EditAllowed submitted before :=
  fun key hmasked => absurd hmasked (h key)

theorem AllFresh.editSecrets {submitted : SecretEntries} (h : AllFresh submitted)
    (before : Text → Option Text) : editSecrets submitted before = submitted.find := by
  funext key
  cases hfind : submitted.find key with
  | none => rw [PdeOperator.editSecrets, hfind, Option.bind_none]
  | some value =>
      have hfresh : value ≠ maskedValue := fun heq => h key (hfind.trans (congrArg some heq))
      rw [PdeOperator.editSecrets, hfind, Option.bind_some, if_neg hfresh]

/-- An edit stores no placeholder if there was none before. -/
theorem editSecrets_ne_masked {submitted : SecretEntries} {before : Text → Option Text}
    (h : ∀ key, before key ≠ some maskedValue) (key : Text) :
    editSecrets submitted before key ≠ some maskedValue := by
  intro hmasked
  obtain ⟨value, -, hvalue⟩ := Option.bind_eq_some_iff.mp hmasked
  split at hvalue
  · exact h key hvalue
  · next hfresh => exact hfresh (Option.some.inj hvalue)

/-- The secrets stored for a schedule, as the merge reads them. -/
def storedSecrets (s : Store) (id : Uuid) (key : Text) : Option Text :=
  (s.inputs.lookup id).bind fun payload => (existingSecrets payload.pipelineVarsSecure).lookup key

/-- The resolved entries are the edited map. -/
theorem resolve_find {submitted : SecretEntries} {current : Option Text}
    (h : submitted.KeepsKnown current) : (submitted.resolve current).find =
      editSecrets submitted fun key => (existingSecrets current).lookup key := by
  funext key
  rw [SecretEntries.find_resolve, editSecrets]
  cases hfind : submitted.find key with
  | none => rfl
  | some value =>
      rw [Option.map_some, Option.bind_some, SecretEntries.merged]
      split
      · next hmasked =>
        obtain ⟨kept, hkept⟩ := Option.isSome_iff_exists.mp (h key (hfind.trans (congrArg some hmasked)))
        rw [hkept, Option.getD_some]
      · rfl

section History

variable (settings : Settings) (cron : CronLibrary)
  (adapter : RunTemplate → JsonObject → Except ScheduleService.Error CreateRunRequest)

/-- A creation of a schedule with plain `KEY=VALUE` lines. -/
structure SecretCreate where
  env : CallEnv
  scheduleId : Option Uuid
  request : CreateScheduledRunRequest
  secrets : SecretEntries
  submits : request.pipelineVarsSecure = some secrets.text

def SecretCreate.id (call : SecretCreate) : Uuid := call.scheduleId.getD call.env.newId

/-- Apart from the secrets the creation is accepted: the storage works, the schedule and its run
request are valid, the id is new. -/
structure SecretCreate.Valid (call : SecretCreate) (s : Store) : Prop where
  accesses : ∀ access, call.env.fails access = false
  new : s.session.schedules.lookup call.id = none
  cronAccepted : validateCron settings cron call.request.cronExpression call.request.timezone
    call.env.checkedAt = .ok ()
  plain : call.request.declarativeValues = none ∨ call.request.createdFromTemplateId = none
  pipelineData : Text.isBlank (call.request.pipelineData.getD []) = false
  profile : (s.session.profiles.lookup call.request.profileId).isSome = true
  anchor : call.request.enabled = true → ∃ next, nextFireAt cron call.request.cronExpression
    call.request.timezone call.env.anchoredAt = .ok next

/-- An update with `KEY=VALUE` lines. -/
structure SecretUpdate where
  env : CallEnv
  request : UpdateScheduledRunRequest
  secrets : SecretEntries
  submits : request.pipelineVarsSecure = some secrets.text

/-- Apart from the secrets the update is accepted. -/
structure SecretUpdate.Valid (call : SecretUpdate) (id : Uuid) (s : Store) : Prop where
  accesses : ∀ access, call.env.fails access = false
  cronAccepted : validateCron settings cron call.request.cronExpression call.request.timezone
    call.env.checkedAt = .ok ()
  profile : (s.session.profiles.lookup call.request.profileId).isSome = true
  anchor : ∀ row, s.session.schedules.lookup id = some row → call.request.enabled = true →
    (row.enabled = false ∨ row.cronExpression ≠ call.request.cronExpression ∨
      row.timezone ≠ call.request.timezone ∨ row.nextFireAt = none) →
    ∃ next, nextFireAt cron call.request.cronExpression call.request.timezone
      call.env.anchoredAt = .ok next

def serveCreate (call : SecretCreate) (s : Store) : Except ScheduleService.Error Unit × Store :=
  createSchedule settings cron adapter call.env call.scheduleId call.request s

def serveUpdate (id : Uuid) (call : SecretUpdate) (s : Store) :
    Except ScheduleService.Error Unit × Store :=
  updateSchedule settings cron call.env id call.request s

/-- The store after a sequence of updates. -/
def afterUpdates (id : Uuid) (calls : List SecretUpdate) (s : Store) : Store :=
  calls.foldl (fun s call => (serveUpdate settings cron id call s).2) s

/-- Every update of the sequence is valid in the store that it finds. -/
def AllValidUpdates (id : Uuid) (s : Store) (calls : List SecretUpdate) : Prop :=
  ∀ before call after, calls = before ++ call :: after →
    call.Valid settings cron id (afterUpdates settings cron id before s)

variable {settings cron adapter} {id : Uuid} {s : Store}

/-- The schedule exists, and its stored text is a list of `KEY=VALUE` lines without placeholders. -/
def HoldsSecrets (s : Store) (id : Uuid) : Prop :=
  (∃ row, s.session.schedules.lookup id = some row) ∧
    ∃ payload m, s.inputs.lookup id = some payload ∧
      payload.pipelineVarsSecure = SecretEntries.stored m ∧ AllFresh m

theorem storedSecrets_eq {payload : RunInputPayload} {m : SecretEntries}
    (hpayload : s.inputs.lookup id = some payload)
    (hsecure : payload.pipelineVarsSecure = m.stored) : storedSecrets s id = m.find := by
  funext key
  rw [storedSecrets, hpayload, Option.bind_some, hsecure, SecretEntries.lookup_existingSecrets]

theorem HoldsSecrets.ne_masked (h : HoldsSecrets s id) (key : Text) :
    storedSecrets s id key ≠ some maskedValue := by
  obtain ⟨-, payload, m, hpayload, hsecure, hfresh⟩ := h
  rw [storedSecrets_eq hpayload hsecure]
  exact hfresh key

/-- A saved call holds the entries that it has stored. -/
theorem holds_of_saved {runRequest : CreateRunRequest} {saved : ScheduledRun} {m : SecretEntries}
    (hsecure : runRequest.pipelineVarsSecure = m.stored) (hfresh : AllFresh m) :
    let s' := ((s.storeInput id (RunInputPayload.fromCreateRequest runRequest)).putSchedule id
      saved).commit
    HoldsSecrets s' id ∧ storedSecrets s' id = m.find := by
  have hpayload : (((s.storeInput id (RunInputPayload.fromCreateRequest runRequest)).putSchedule id
      saved).commit).inputs.lookup id = some (RunInputPayload.fromCreateRequest runRequest) := by
    rw [Store.commit_inputs, Store.putSchedule_inputs, Store.storeInput_inputs, AList.lookup_insert]
  refine ⟨⟨⟨saved, ?_⟩, _, m, hpayload, hsecure, hfresh⟩, storedSecrets_eq hpayload hsecure⟩
  rw [Store.commit_session, Store.putSchedule_schedules, AList.lookup_insert]

theorem editAllowed_iff {call : SecretUpdate} {payload : RunInputPayload} {m : SecretEntries}
    (hpayload : s.inputs.lookup id = some payload)
    (hsecure : payload.pipelineVarsSecure = m.stored) :
    EditAllowed call.secrets (storedSecrets s id) ↔
      call.secrets.KeepsKnown payload.pipelineVarsSecure := by
  rw [EditAllowed, storedSecrets_eq hpayload hsecure, SecretEntries.KeepsKnown, hsecure]
  simp only [SecretEntries.lookup_existingSecrets]

/-- The row is computed whenever the next occurrence that it needs exists. -/
theorem exists_updateRow {request : UpdateScheduledRunRequest} {runRequest : CreateRunRequest}
    {stamp now : Instant} {row : ScheduledRun}
    (h : request.enabled = true → (row.enabled = false ∨ row.cronExpression ≠ request.cronExpression ∨
      row.timezone ≠ request.timezone ∨ row.nextFireAt = none) →
      ∃ next, nextFireAt cron request.cronExpression request.timezone now = .ok next) :
    ∃ saved, updateRow cron request runRequest stamp now row = .ok saved := by
  unfold updateRow
  dsimp only
  cases henabled : request.enabled with
  | false => exact ⟨_, rfl⟩
  | true =>
      rw [Bool.not_true, if_neg Bool.false_ne_true]
      split
      · next hneeded =>
        obtain ⟨next, hnext⟩ := h henabled (by simpa [or_assoc] using hneeded)
        exact ⟨_, bind_eq_ok.mpr ⟨next, hnext, rfl⟩⟩
      · exact ⟨_, rfl⟩

/-- An update that keeps only known keys is accepted and edits the stored map. -/
theorem serveUpdate_allowed {call : SecretUpdate} (hholds : HoldsSecrets s id)
    (hvalid : call.Valid settings cron id s)
    (hallowed : EditAllowed call.secrets (storedSecrets s id)) :
    (serveUpdate settings cron id call s).1 = .ok () ∧
      storedSecrets (serveUpdate settings cron id call s).2 id =
        editSecrets call.secrets (storedSecrets s id) ∧
      HoldsSecrets (serveUpdate settings cron id call s).2 id := by
  have hne := hholds.ne_masked
  obtain ⟨⟨row, hrow⟩, payload, m, hpayload, hsecure, -⟩ := hholds
  have hknown := (editAllowed_iff hpayload hsecure).mp hallowed
  have hfind : (call.secrets.resolve payload.pipelineVarsSecure).find =
      editSecrets call.secrets (storedSecrets s id) := by
    rw [resolve_find hknown, storedSecrets_eq hpayload hsecure, hsecure]
    simp only [SecretEntries.lookup_existingSecrets]
  have hprepared : prepareUpdate settings cron call.env s id call.request =
      .ok (row, updateRunRequest call.request
        (call.secrets.resolve payload.pipelineVarsSecure).stored) :=
    prepareUpdate_eq_ok.mpr ⟨hvalid.accesses _, hrow, hvalid.cronAccepted,
      ensureProfile_eq_ok.mpr ⟨hvalid.accesses _, hvalid.profile⟩, hvalid.accesses _, payload, _,
      hpayload, call.submits ▸ SecretEntries.mergeMaskedSecure_known hknown, rfl⟩
  obtain ⟨saved, hsaved⟩ : ∃ saved, updateRow cron call.request (updateRunRequest call.request
      (call.secrets.resolve payload.pipelineVarsSecure).stored) call.env.stampedAt
        call.env.anchoredAt row = .ok saved := exists_updateRow (hvalid.anchor row hrow)
  have hserved : serveUpdate settings cron id call s = (.ok (), ((s.storeInput id
      (RunInputPayload.fromCreateRequest (updateRunRequest call.request
        (call.secrets.resolve payload.pipelineVarsSecure).stored))).putSchedule id saved).commit) := by
    rw [serveUpdate, updateSchedule, hprepared]
    exact storeThenSave_eq_ok.mpr ⟨hvalid.accesses _, hvalid.accesses _, hvalid.accesses _, saved,
      hsaved, rfl⟩
  have hfresh : AllFresh (call.secrets.resolve payload.pipelineVarsSecure) := fun key => by
    rw [hfind]
    exact editSecrets_ne_masked hne key
  rw [hserved]
  obtain ⟨hheld, hstored⟩ := @holds_of_saved id s (updateRunRequest call.request
    (call.secrets.resolve payload.pipelineVarsSecure).stored) saved _ rfl hfresh
  exact ⟨rfl, hstored.trans hfind, hheld⟩

/-- An update that keeps an unknown key is rejected and changes nothing. -/
theorem serveUpdate_refused {call : SecretUpdate} (hholds : HoldsSecrets s id)
    (hrefused : ¬EditAllowed call.secrets (storedSecrets s id)) :
    (serveUpdate settings cron id call s).1 ≠ .ok () ∧
      (serveUpdate settings cron id call s).2 = s := by
  obtain ⟨-, payload, m, hpayload, hsecure, -⟩ := hholds
  cases hprepared : prepareUpdate settings cron call.env s id call.request with
  | error error =>
      rw [serveUpdate, updateSchedule, hprepared]
      exact ⟨nofun, rfl⟩
  | ok prepared =>
      obtain ⟨row, runRequest⟩ := prepared
      obtain ⟨-, -, -, -, -, current, merged, hcurrent, hmerged, -⟩ :=
        prepareUpdate_eq_ok.mp hprepared
      obtain rfl := Option.some.inj (hpayload.symm.trans hcurrent)
      rw [call.submits] at hmerged
      exact absurd ((editAllowed_iff hpayload hsecure).mpr
        (SecretEntries.keepsKnown_of_mergeMaskedSecure hmerged)) hrefused

/-- Updates keep the stored text in its form. -/
theorem holds_serveUpdate {call : SecretUpdate} (hholds : HoldsSecrets s id)
    (hvalid : call.Valid settings cron id s) :
    HoldsSecrets (serveUpdate settings cron id call s).2 id := by
  by_cases hallowed : EditAllowed call.secrets (storedSecrets s id)
  · exact (serveUpdate_allowed hholds hvalid hallowed).2.2
  · rwa [(serveUpdate_refused hholds hallowed).2]

theorem holds_afterUpdates {calls : List SecretUpdate} (hholds : HoldsSecrets s id)
    (hvalid : AllValidUpdates settings cron id s calls) :
    HoldsSecrets (afterUpdates settings cron id calls s) id := by
  induction calls generalizing s with
  | nil => exact hholds
  | cons call calls ih =>
      refine ih (holds_serveUpdate hholds (hvalid [] call calls rfl)) ?_
      rintro before next after rfl
      exact hvalid (call :: before) next after rfl

theorem exists_createRow {request : CreateScheduledRunRequest} {runRequest : CreateRunRequest}
    {stamp now : Instant} (h : request.enabled = true →
      ∃ next, nextFireAt cron request.cronExpression request.timezone now = .ok next) :
    ∃ saved, createRow cron request runRequest stamp now = .ok saved := by
  unfold createRow
  cases henabled : request.enabled with
  | false => exact ⟨_, rfl⟩
  | true =>
      obtain ⟨next, hnext⟩ := h henabled
      refine ⟨_, bind_eq_ok.mpr ⟨some next, ?_, rfl⟩⟩
      rw [hnext]
      rfl

/-- A creation without placeholders is accepted and stores the submitted map. -/
theorem serveCreate_fresh {call : SecretCreate} (hvalid : call.Valid settings cron s)
    (hfresh : AllFresh call.secrets) :
    (serveCreate settings cron adapter call s).1 = .ok () ∧
      storedSecrets (serveCreate settings cron adapter call s).2 call.id = call.secrets.find ∧
      HoldsSecrets (serveCreate settings cron adapter call s).2 call.id := by
  have hknown : call.secrets.KeepsKnown none := fun key hmasked => absurd hmasked (hfresh key)
  have hfind : (call.secrets.resolve none).find = call.secrets.find :=
    (resolve_find hknown).trans (hfresh.editSecrets _)
  have hresolved : resolveRunRequest (declarativeRunRequest adapter call.env s.session) call.request =
      .ok (plainRunRequest call.request) := by
    have hblank : Text.isBlank (plainRunRequest call.request).pipelineData = false :=
      hvalid.pipelineData
    unfold resolveRunRequest
    split
    · next values templateId hvalues htemplate =>
      rcases hvalid.plain with hnone | hnone
      · rw [hnone] at hvalues
        cases hvalues
      · rw [hnone] at htemplate
        cases htemplate
    · show (if _ then _ else _) = _
      rw [hblank]
      rfl
  have hmerged : InputCrypto.mergeMaskedSecure (plainRunRequest call.request).pipelineVarsSecure none =
      .ok (call.secrets.resolve none).stored := by
    rw [show (plainRunRequest call.request).pipelineVarsSecure = some call.secrets.text from
      call.submits]
    exact SecretEntries.mergeMaskedSecure_known hknown
  have hprepared : prepareCreate settings cron adapter call.env s.session call.request =
      .ok { plainRunRequest call.request with
        pipelineVarsSecure := (call.secrets.resolve none).stored } := by
    refine bind_eq_ok.mpr ⟨(), hvalid.cronAccepted, bind_eq_ok.mpr ⟨_, hresolved, ?_⟩⟩
    refine bind_eq_ok.mpr ⟨(), ensureProfile_eq_ok.mpr ⟨hvalid.accesses _, hvalid.profile⟩, ?_⟩
    exact bind_eq_ok.mpr ⟨_, mapError_eq_ok.mpr hmerged, rfl⟩
  obtain ⟨saved, hsaved⟩ : ∃ saved, createRow cron call.request { plainRunRequest call.request with
      pipelineVarsSecure := (call.secrets.resolve none).stored } call.env.stampedAt
        call.env.anchoredAt = .ok saved := exists_createRow hvalid.anchor
  have hserved : serveCreate settings cron adapter call s = (.ok (), ((s.storeInput call.id
      (RunInputPayload.fromCreateRequest { plainRunRequest call.request with
        pipelineVarsSecure := (call.secrets.resolve none).stored })).putSchedule call.id
          saved).commit) := by
    rw [serveCreate, createSchedule, hprepared]
    exact storeThenSave_eq_ok.mpr ⟨hvalid.accesses _, hvalid.accesses _, hvalid.accesses _, saved,
      hsaved, rfl⟩
  rw [hserved]
  have hresolvedFresh : AllFresh (call.secrets.resolve none) := fun key => by
    rw [hfind]
    exact hfresh key
  obtain ⟨hheld, hstored⟩ := @holds_of_saved call.id s { plainRunRequest call.request with
    pipelineVarsSecure := (call.secrets.resolve none).stored } saved _ rfl hresolvedFresh
  exact ⟨rfl, hstored.trans hfind, hheld⟩

variable (settings cron adapter)

/-- An edit history: each update is accepted exactly when the keys that it keeps are stored, an
accepted one edits the stored map, and a rejected one changes nothing. -/
theorem secret_edit_history {create : SecretCreate} (hcreate : create.Valid settings cron s)
    (hfresh : AllFresh create.secrets) {updates : List SecretUpdate}
    (hupdates : AllValidUpdates settings cron create.id
      (serveCreate settings cron adapter create s).2 updates) :
    let s₁ := (serveCreate settings cron adapter create s).2
    (serveCreate settings cron adapter create s).1 = .ok () ∧
      storedSecrets s₁ create.id = create.secrets.find ∧ HoldsSecrets s₁ create.id ∧
      ∀ before call after, updates = before ++ call :: after →
        let now := afterUpdates settings cron create.id before s₁
        let result := serveUpdate settings cron create.id call now
        (result.1 = .ok () ↔ EditAllowed call.secrets (storedSecrets now create.id)) ∧
        (result.1 = .ok () → storedSecrets result.2 create.id =
          editSecrets call.secrets (storedSecrets now create.id)) ∧
        (result.1 ≠ .ok () → result.2 = now) ∧
        HoldsSecrets result.2 create.id ∧
        ∀ key, storedSecrets result.2 create.id key ≠ some maskedValue := by
  obtain ⟨haccepted, hstored, hholds⟩ :=
    @serveCreate_fresh settings cron adapter s create hcreate hfresh
  refine ⟨haccepted, hstored, hholds, ?_⟩
  rintro before call after rfl
  have hbefore : AllValidUpdates settings cron create.id
      (serveCreate settings cron adapter create s).2 before := by
    rintro earlier next later rfl
    exact hupdates earlier next (later ++ call :: after) (by simp)
  have hnow := holds_afterUpdates hholds hbefore
  have hcall := hupdates before call after rfl
  have hnext := holds_serveUpdate hnow hcall
  by_cases hallowed : EditAllowed call.secrets (storedSecrets
      (afterUpdates settings cron create.id before (serveCreate settings cron adapter create s).2)
      create.id)
  · obtain ⟨hok, hedited, -⟩ := serveUpdate_allowed hnow hcall hallowed
    exact ⟨iff_of_true hok hallowed, fun _ => hedited, fun hrejected => absurd hok hrejected, hnext,
      hnext.ne_masked⟩
  · obtain ⟨hrejected, hsame⟩ := @serveUpdate_refused settings cron create.id _ call hnow hallowed
    exact ⟨iff_of_false hrejected hallowed, fun hok => absurd hok hrejected, fun _ => hsame, hnext,
      hnext.ne_masked⟩

end History

/-- Two secrets with the given values. -/
def twoSecrets (token key : Text) (h : Text.IsLine token ∧ Text.IsLine key) : SecretEntries where
  entries := [("TOKEN".toList, token), ("KEY".toList, key)]
  nodup := by
    show ["TOKEN".toList, "KEY".toList].Nodup
    decide
  noEquals := by
    simp only [List.mem_cons, List.not_mem_nil, or_false, forall_eq_or_imp, forall_eq]
    decide
  isLine := by
    simp only [List.mem_cons, List.not_mem_nil, or_false, forall_eq_or_imp, forall_eq]
    exact ⟨⟨by decide, h.1⟩, by decide, h.2⟩

/-- A schedule created with two secrets. -/
def createTwo : SecretCreate where
  env := quietEnv
  scheduleId := none
  request :=
    { name := "nightly".toList, cronExpression := "* * * * *".toList
      pipelineData := some "stages: []".toList, pipelineVarsSecure := some "TOKEN=real\nKEY=old".toList }
  secrets := twoSecrets "real".toList "old".toList (by decide)
  submits := rfl

/-- Its update that keeps the token and replaces the key. -/
def keepToken : SecretUpdate where
  env := quietEnv
  request :=
    { name := "nightly".toList, cronExpression := "* * * * *".toList
      pipelineData := "stages: []".toList
      pipelineVarsSecure := some "TOKEN=[MASKED]\nKEY=new".toList }
  secrets := twoSecrets maskedValue "new".toList (by decide)
  submits := rfl

theorem secret_edit_history_keepToken :
    (serveCreate {} everyMinute noAdapter createTwo sampleStore).1 = .ok () ∧
      let now := (serveCreate {} everyMinute noAdapter createTwo sampleStore).2
      (serveUpdate {} everyMinute 1 keepToken now).1 = .ok () ∧
        storedSecrets (serveUpdate {} everyMinute 1 keepToken now).2 1 "TOKEN".toList =
          some "real".toList ∧
        storedSecrets (serveUpdate {} everyMinute 1 keepToken now).2 1 "KEY".toList =
          some "new".toList := by
  have hcreate : createTwo.Valid {} everyMinute sampleStore :=
    { accesses := fun _ => rfl, new := rfl, cronAccepted := rfl, plain := Or.inl rfl
      pipelineData := rfl, profile := rfl, anchor := fun _ => ⟨seconds 60, by decide⟩ }
  have hfresh : AllFresh createTwo.secrets := by
    intro key hmasked
    have hentry := SecretEntries.find_eq_some_iff.mp hmasked
    revert hentry
    simp only [createTwo, twoSecrets, List.mem_cons, List.not_mem_nil, or_false, Prod.mk.injEq]
    rintro (⟨-, h⟩ | ⟨-, h⟩) <;> exact absurd h (by decide)
  have hupdates : AllValidUpdates {} everyMinute createTwo.id
      (serveCreate {} everyMinute noAdapter createTwo sampleStore).2 [keepToken] := by
    intro before call after heq
    obtain ⟨rfl, rfl, rfl⟩ : before = [] ∧ call = keepToken ∧ after = [] := by
      cases before <;> simp_all
    exact ⟨fun _ => rfl, rfl, rfl, fun _ _ _ _ => ⟨seconds 60, by decide⟩⟩
  obtain ⟨haccepted, hstored, -, hhistory⟩ :=
    secret_edit_history {} everyMinute noAdapter hcreate hfresh hupdates
  obtain ⟨hiff, hedit, -⟩ := hhistory [] keepToken [] rfl
  have hallowed : EditAllowed keepToken.secrets (storedSecrets (serveCreate {} everyMinute noAdapter
      createTwo sampleStore).2 createTwo.id) := by
    rw [hstored]
    intro key hmasked
    have hentry := SecretEntries.find_eq_some_iff.mp hmasked
    revert hentry
    simp only [keepToken, twoSecrets, List.mem_cons, List.not_mem_nil, or_false, Prod.mk.injEq]
    rintro (⟨rfl, -⟩ | ⟨-, h⟩)
    · rfl
    · exact absurd h (by decide)
  have hok := hiff.mpr hallowed
  have hafter : storedSecrets (serveUpdate {} everyMinute 1 keepToken
      (serveCreate {} everyMinute noAdapter createTwo sampleStore).2).2 1 =
        editSecrets keepToken.secrets createTwo.secrets.find :=
    (hedit hok).trans (congrArg _ hstored)
  refine ⟨haccepted, hok, ?_, ?_⟩ <;> rw [hafter] <;> rfl

end PdeOperator
