import PdeOperator.ConfigImportAtomic
import PdeOperator.InputCryptoRoundTrip

/-! Importing the same configuration again. What the first import leaves of a document, whether it has
created or updated the row, is what an update with the same document finds and leaves; only the time of the
update changes. -/

namespace PdeOperator
open Base

/-- A row without the time of its last update. -/
def Profile.unstamped (row : Profile) : Profile := { row with updatedAt := 0 }

def ScheduledRun.unstamped (row : ScheduledRun) : ScheduledRun := { row with updatedAt := 0 }

theorem Profile.eq_of_unstamped {row other : Profile} (h : other.unstamped = row.unstamped) :
    other = { row with updatedAt := other.updatedAt } :=
  congrArg (fun bare : Profile => { bare with updatedAt := other.updatedAt }) h

theorem ScheduledRun.eq_of_unstamped {row other : ScheduledRun} (h : other.unstamped = row.unstamped) :
    other = { row with updatedAt := other.updatedAt } :=
  congrArg (fun bare : ScheduledRun => { bare with updatedAt := other.updatedAt }) h

namespace ConfigImport

/-- The documents are profiles and scheduled runs, each with an id of its own, and no secure text has two
values for a key. -/
structure Reimportable (docs : Documents) : Prop where
  noSimple : docs.simpleTemplates = []
  noDeclarative : docs.declarativeTemplates = []
  profiles : (docs.profiles.map CreateProfileRequest.id).Nodup
  explicit : ∀ request ∈ docs.scheduledRuns, request.id.isSome = true
  schedules : (docs.scheduledRuns.map ImportScheduledRunRequest.id).Nodup
  keys : ∀ request ∈ docs.scheduledRuns, InputCrypto.KeysOnce request.pipelineVarsSecure

/-- Neither the database nor the object store fails. -/
structure Env.Quiet (env : Env) : Prop where
  own : ∀ access, env.fails access = false
  calls : ∀ position access, (env.call position).fails access = false

/-- The cron checks of the documents end in the same way at both times. -/
def SameVerdicts (settings : Settings) (cron : CronLibrary) (docs : Documents) (env later : Env) : Prop :=
  ∀ (position : Nat) (request : ImportScheduledRunRequest) (base : ScheduledRunBase),
    docs.scheduledRuns[position]? = some request → request.toScheduledRunBase.validate = .ok base →
    ScheduleService.validateCron settings cron base.cronExpression base.timezone
        (later.call position).checkedAt =
      ScheduleService.validateCron settings cron base.cronExpression base.timezone
        (env.call position).checkedAt

/-- The session sees the same rows but for the times of their updates, and the same payloads. -/
structure SameRows (s t : Store) : Prop where
  profiles : ∀ id, (t.session.profiles.lookup id).map Profile.unstamped =
    (s.session.profiles.lookup id).map Profile.unstamped
  templates : t.session.templates = s.session.templates
  schedules : ∀ id, (t.session.schedules.lookup id).map ScheduledRun.unstamped =
    (s.session.schedules.lookup id).map ScheduledRun.unstamped
  inputs : ∀ id, t.inputs.lookup id = s.inputs.lookup id

theorem SameRows.refl (s : Store) : SameRows s s := ⟨fun _ => rfl, rfl, fun _ => rfl, fun _ => rfl⟩

/-- A payload and a row that are written again. -/
theorem SameRows.put {s u : Store} (hsame : SameRows s u) {key : Uuid} {row : ScheduledRun}
    {payload : RunInputPayload} (hrow : s.session.schedules.lookup key = some row)
    (hpayload : s.inputs.lookup key = some payload) (stamp : Instant) :
    SameRows s ((u.storeInput key payload).putSchedule key { row with updatedAt := stamp }).commit := by
  refine ⟨hsame.profiles, hsame.templates, fun id => ?_, fun id => ?_⟩
  · rw [Store.commit_session, Store.putSchedule_schedules, Store.storeInput_session]
    by_cases hid : id = key
    · rw [hid, AList.lookup_insert, hrow]
      rfl
    · rw [AList.lookup_insert_ne hid]
      exact hsame.schedules id
  · rw [Store.commit_inputs, Store.putSchedule_inputs, Store.storeInput_inputs]
    by_cases hid : id = key
    · rw [hid, AList.lookup_insert, hpayload]
    · rw [AList.lookup_insert_ne hid]
      exact hsame.inputs id

/-- Items at different places of a list with distinct keys have different keys. -/
theorem ne_of_nodup_map {α β : Type} {f : α → β} {xs : List α} (h : (xs.map f).Nodup) {j k : Nat} {x y : α}
    (hjk : j < k) (hx : xs[j]? = some x) (hy : xs[k]? = some y) : f x ≠ f y := by
  intro heq
  have hlen : k < (xs.map f).length := by
    rw [List.length_map]
    exact (List.getElem?_eq_some_iff.mp hy).1
  refine List.nodup_iff_getElem?_ne_getElem?.mp h j k hjk hlen ?_
  rw [List.getElem?_map, List.getElem?_map, hx, hy, Option.map_some, Option.map_some, heq]

section Profiles

variable {env : Env} {s t u : Store} {position : Nat} {request other : CreateProfileRequest}

/-- The row of a profile has the values of its document. -/
def ProfileApplied (request : CreateProfileRequest) (s : Store) : Prop :=
  validProfileId request.id = true ∧
    ∃ row, s.session.profiles.lookup request.id = some row ∧ row.pdeImage = request.pdeImage ∧
      row.envVars = request.envVars ∧ row.resources = request.resources

theorem profileApplied_upsertProfile (h : upsertProfile env position request s = (.ok (), t)) :
    ProfileApplied request t := by
  have hvalid : validProfileId request.id = true := by
    by_contra hinvalid
    rw [Bool.not_eq_true] at hinvalid
    exact upsertProfile_refused (Or.inl hinvalid) s t h
  rw [upsertProfile_ok position request s t h]
  refine ⟨hvalid, _, AList.lookup_insert _, ?_⟩
  cases s.session.profiles.lookup request.id with
  | none => exact ⟨rfl, rfl, rfl⟩
  | some row => exact ⟨rfl, rfl, rfl⟩

theorem ProfileApplied.upsertProfile_other (hne : other.id ≠ request.id) (happlied : ProfileApplied other s)
    (h : upsertProfile env position request s = (.ok (), t)) : ProfileApplied other t := by
  obtain ⟨hvalid, row, hrow, hvalues⟩ := happlied
  rw [upsertProfile_ok position request s t h]
  exact ⟨hvalid, row, (AList.lookup_insert_ne hne).trans hrow, hvalues⟩

/-- A profile that is applied is upserted to itself. -/
theorem ProfileApplied.upsertProfile_again (happlied : ProfileApplied request s) (hsame : SameRows s u)
    (hget : env.fails (.getProfile position) = false) :
    ∃ v, upsertProfile env position request u = (.ok (), v) ∧ SameRows s v := by
  obtain ⟨hvalid, row, hrow, himage, henv, hresources⟩ := happlied
  refine ⟨_, upsertProfile_accepted ?_ u, ?_, hsame.templates, hsame.schedules, hsame.inputs⟩
  · rintro (hinvalid | hfails)
    · rw [hvalid] at hinvalid
      cases hinvalid
    · rw [hget] at hfails
      cases hfails
  intro id
  by_cases hid : id = request.id
  · subst hid
    have hother := hsame.profiles request.id
    rw [hrow, Option.map_some, Option.map_eq_some_iff] at hother
    obtain ⟨other, hother, hunstamped⟩ := hother
    have hlookup : (putProfile env position request u).session.profiles.lookup request.id =
        some (upsertedProfile env position request (some other)) := by
      rw [← hother]
      exact AList.lookup_insert _
    rw [hlookup, hrow, Option.map_some, Option.map_some, Profile.eq_of_unstamped hunstamped]
    refine congrArg some ?_
    rw [upsertedProfile, Profile.unstamped, Profile.unstamped, ← himage, ← henv, ← hresources]
  · have hlookup : (putProfile env position request u).session.profiles.lookup id =
        u.session.profiles.lookup id := AList.lookup_insert_ne hid
    rw [hlookup]
    exact hsame.profiles id

end Profiles

section Rows

open ScheduleService

variable {cron : CronLibrary} {update : UpdateScheduledRunRequest} {secure : Option Text} {stamp now : Instant}
  {base row saved : ScheduledRun}

/-- The row has the values of the update with the secrets, which the merge of the update keeps. -/
structure RowApplied (update : UpdateScheduledRunRequest) (secure : Option Text) (row : ScheduledRun) :
    Prop where
  values : applyRequest update.toScheduledRunBase (updateRunRequest update secure) row = row
  switch : row.enabled = update.enabled
  anchor : row.nextFireAt.isSome = update.enabled
  secrets : InputCrypto.mergeMaskedSecure update.pipelineVarsSecure secure = .ok secure

/-- A row that is saved with the values of the update, after the creation and after an update. -/
theorem rowApplied_of_saved
    (hsaved : RowSaved cron (applyRequest update.toScheduledRunBase (updateRunRequest update secure) base)
      stamp now update.enabled saved)
    (hsecrets : InputCrypto.mergeMaskedSecure update.pipelineVarsSecure secure = .ok secure) :
    RowApplied update secure saved := by
  refine ⟨?_, hsaved.enabled_eq, hsaved.isSome_nextFireAt, hsecrets⟩
  generalize update.enabled = enabled at hsaved
  cases hsaved <;> rfl

theorem RowApplied.stamped (h : RowApplied update secure row) (stamp : Instant) :
    RowApplied update secure { row with updatedAt := stamp } := by
  refine ⟨?_, h.switch, h.anchor, h.secrets⟩
  exact congrArg (fun row : ScheduledRun => { row with updatedAt := stamp }) h.values

/-- An update with the same values keeps the anchor, or the absence of one. -/
theorem RowApplied.updateRow_again (h : RowApplied update secure row) :
    updateRow cron update (updateRunRequest update secure) stamp now row =
      .ok { row with updatedAt := stamp } := by
  have hcron : row.cronExpression = update.cronExpression :=
    (congrArg ScheduledRun.cronExpression h.values).symm
  have htimezone : row.timezone = update.timezone := (congrArg ScheduledRun.timezone h.values).symm
  have hswitch := h.switch
  have hanchor := h.anchor
  unfold updateRow
  dsimp only
  rw [h.values, hcron, htimezone]
  cases henabled : update.enabled with
  | false =>
      rw [henabled] at hswitch hanchor
      have hnone : row.nextFireAt = none := Option.isNone_iff_eq_none.mp (Option.isSome_eq_false_iff.mp hanchor)
      rw [Bool.not_false, if_pos rfl]
      simp only [hswitch, hnone]
  | true =>
      rw [henabled] at hswitch hanchor
      rw [Bool.not_true, if_neg Bool.false_ne_true, if_neg]
      · simp only [hswitch]
      · rw [hswitch, bne_self_eq_false, bne_self_eq_false, ← Option.not_isSome, hanchor]
        exact Bool.false_ne_true

end Rows

section Schedules

open ScheduleService

variable {settings : Settings} {cron : CronLibrary}
  {adapter : RunTemplate → JsonObject → Except ScheduleService.Error CreateRunRequest} {env : Env}
  {s t u : Store} {position : Nat} {request : ImportScheduledRunRequest} {key : Uuid}
  {update : UpdateScheduledRunRequest} {secure : Option Text} {row : ScheduledRun}

/-- The row and the payload of a schedule have the values of its document. -/
structure ScheduleApplied (request : ImportScheduledRunRequest) (key : Uuid)
    (update : UpdateScheduledRunRequest) (secure : Option Text) (row : ScheduledRun) (s : Store) : Prop where
  named : request.id = some key
  checked : updateRequest request = .ok update
  found : s.session.schedules.lookup key = some row
  applied : RowApplied update secure row
  stored : s.inputs.lookup key =
    some (RunInputPayload.fromCreateRequest (updateRunRequest update secure))
  profile : (s.session.profiles.lookup update.profileId).isSome = true

/-- What an upsert that has not raised has prepared and written. -/
theorem upsertSchedule_ok (h : upsertSchedule settings cron adapter env position request s = (.ok (), t)) :
    ∃ key runRequest saved,
      prepareUpsert settings cron adapter env position request s = .ok (key, runRequest, .ok saved) ∧
      t = ((s.storeInput key (RunInputPayload.fromCreateRequest runRequest)).putSchedule key saved).commit := by
  rw [upsertSchedule_eq] at h
  split at h
  · cases h
  · next key runRequest row hprepare =>
    cases hsave : storeThenSave (env.call position) key runRequest row s with
    | mk result v =>
        simp only [Program.mapError, hsave] at h
        cases result with
        | error e => cases h
        | ok value =>
            cases h
            obtain ⟨-, -, -, saved, rfl, ht⟩ := storeThenSave_eq_ok.mp hsave
            exact ⟨key, runRequest, saved, hprepare, ht⟩

/-- The update that the validators make of a document whose creation they accept. -/
theorem updateRequest_of_validate {base : ScheduledRunBase}
    (hbase : request.toScheduledRunBase.validate = .ok base)
    (hblank : Text.isBlank request.pipelineData = false) :
    updateRequest request = .ok { toScheduledRunBase := base, pipelineData := request.pipelineData } := by
  have hcheck : UpdateScheduledRunRequest.validate request.toUpdateScheduledRunRequest =
      .ok { toScheduledRunBase := base, pipelineData := request.pipelineData } := by
    refine bind_eq_ok.mpr ⟨base, hbase, ?_⟩
    rw [hblank]
    rfl
  exact mapError_eq_ok.mpr hcheck

/-- The validators leave the secure text alone. -/
theorem pipelineVarsSecure_of_validate {base checked : ScheduledRunBase} (h : base.validate = .ok checked) :
    checked.pipelineVarsSecure = base.pipelineVarsSecure := by
  obtain ⟨name, -, h⟩ := bind_eq_ok.mp h
  obtain ⟨cronExpression, -, h⟩ := bind_eq_ok.mp h
  obtain ⟨timezone, -, h⟩ := bind_eq_ok.mp h
  obtain ⟨overlapPolicy, -, h⟩ := bind_eq_ok.mp h
  cases h
  rfl

theorem validate_of_updateRequest (h : updateRequest request = .ok update) :
    request.toScheduledRunBase.validate = .ok update.toScheduledRunBase := by
  obtain ⟨base, hbase, h⟩ := bind_eq_ok.mp (mapError_eq_ok.mp h)
  split at h
  · cases h
  · cases h
    exact hbase

/-- What a document names, if its row is there. -/
theorem existingId_eq_some {id : Uuid} :
    existingId s request = some id ↔ request.id = some id ∧ (s.session.schedules.lookup id).isSome = true := by
  rw [existingId, Option.filter_eq_some_iff]

theorem createRequest_ok {create : CreateScheduledRunRequest} (h : createRequest request = .ok create) :
    ∃ base, request.toScheduledRunBase.validate = .ok base ∧
      create = { toScheduledRunBase := base, pipelineData := some request.pipelineData } := by
  unfold createRequest at h
  split at h
  · cases h
  · next base hbase => exact ⟨base, hbase, (Except.ok.inj h).symm⟩

/-- Without declarative values the values of the request are those of the run. -/
theorem resolveRunRequest_plain {base : ScheduledRunBase} {pipelineData : Text} {runRequest : CreateRunRequest}
    {declarative : Uuid → JsonObject → Except ScheduleService.Error CreateRunRequest}
    (h : resolveRunRequest declarative { toScheduledRunBase := base, pipelineData := some pipelineData } =
      .ok runRequest) :
    Text.isBlank pipelineData = false ∧
      runRequest = plainRunRequest { toScheduledRunBase := base, pipelineData := some pipelineData } := by
  obtain ⟨plain, hplain, h⟩ := bind_eq_ok.mp h
  obtain rfl := Except.ok.inj hplain
  dsimp only at h
  split at h
  · cases h
  · next hblank => exact ⟨Bool.eq_false_iff.mpr hblank, (Except.ok.inj h).symm⟩

/-- The secrets of a document come out of a second merge as they have come out of the first. -/
theorem mergeMaskedSecure_of_validate {base : ScheduledRunBase} {existing : Option Text}
    (hbase : request.toScheduledRunBase.validate = .ok base)
    (honce : InputCrypto.KeysOnce request.pipelineVarsSecure)
    (h : InputCrypto.mergeMaskedSecure base.pipelineVarsSecure existing = .ok secure) :
    InputCrypto.mergeMaskedSecure base.pipelineVarsSecure secure = .ok secure := by
  rw [pipelineVarsSecure_of_validate hbase] at h ⊢
  exact InputCrypto.mergeMaskedSecure_again honce h

/-- The update that is prepared for a document whose row is there. -/
theorem prepareUpdate_applied {id : Uuid} {runRequest : CreateRunRequest} {saved : ScheduledRun}
    (honce : InputCrypto.KeysOnce request.pipelineVarsSecure) (hupdate : updateRequest request = .ok update)
    (hprepare : prepareUpdate settings cron (env.call position) s id update = .ok (row, runRequest))
    (hrow : updateRow cron update runRequest (env.call position).stampedAt (env.call position).anchoredAt row =
      .ok saved) :
    ∃ secure, runRequest = updateRunRequest update secure ∧ RowApplied update secure saved ∧
      (s.session.profiles.lookup update.profileId).isSome = true ∧
      validateCron settings cron update.cronExpression update.timezone (env.call position).checkedAt =
        .ok () := by
  obtain ⟨-, -, hcron, hprofile, -, current, secure, -, hmerged, rfl⟩ := prepareUpdate_eq_ok.mp hprepare
  have hagain := mergeMaskedSecure_of_validate (validate_of_updateRequest hupdate) honce hmerged
  exact ⟨secure, rfl, rowApplied_of_saved (updateRow_saved hrow) hagain, (ensureProfile_eq_ok.mp hprofile).2,
    hcron⟩

/-- The creation that is prepared for another document, as an update of it. -/
theorem prepareCreate_applied {create : CreateScheduledRunRequest} {runRequest : CreateRunRequest}
    {saved : ScheduledRun} (honce : InputCrypto.KeysOnce request.pipelineVarsSecure)
    (hcreate : createRequest request = .ok create)
    (hprepare : prepareCreate settings cron adapter (env.call position) s.session create = .ok runRequest)
    (hrow : createRow cron create runRequest (env.call position).stampedAt (env.call position).anchoredAt =
      .ok saved) :
    ∃ update secure, updateRequest request = .ok update ∧
      runRequest = updateRunRequest update secure ∧ RowApplied update secure saved ∧
      (s.session.profiles.lookup update.profileId).isSome = true ∧
      validateCron settings cron update.cronExpression update.timezone (env.call position).checkedAt =
        .ok () := by
  obtain ⟨base, hbase, rfl⟩ := createRequest_ok hcreate
  obtain ⟨_, hcron, h⟩ := bind_eq_ok.mp hprepare
  obtain ⟨resolved, hresolved, h⟩ := bind_eq_ok.mp h
  obtain ⟨_, hprofile, h⟩ := bind_eq_ok.mp h
  obtain ⟨secure, hmerged, h⟩ := bind_eq_ok.mp h
  obtain rfl := Except.ok.inj h
  obtain ⟨hblank, rfl⟩ := resolveRunRequest_plain hresolved
  have hagain := mergeMaskedSecure_of_validate hbase honce (mapError_eq_ok.mp hmerged)
  obtain ⟨blank, -, hsaved⟩ := createRow_saved hrow
  exact ⟨{ toScheduledRunBase := base, pipelineData := request.pipelineData }, secure,
    updateRequest_of_validate hbase hblank, rfl, rowApplied_of_saved hsaved hagain,
    (ensureProfile_eq_ok.mp hprofile).2, hcron⟩

/-- The creation or the update that is prepared for a document, in one form. -/
theorem prepareUpsert_applied (hnamed : request.id = some key)
    (honce : InputCrypto.KeysOnce request.pipelineVarsSecure) {other : Uuid} {runRequest : CreateRunRequest}
    {saved : ScheduledRun}
    (h : prepareUpsert settings cron adapter env position request s = .ok (other, runRequest, .ok saved)) :
    other = key ∧ ∃ update secure, updateRequest request = .ok update ∧
      runRequest = updateRunRequest update secure ∧ RowApplied update secure saved ∧
      (s.session.profiles.lookup update.profileId).isSome = true ∧
      validateCron settings cron update.cronExpression update.timezone (env.call position).checkedAt =
        .ok () := by
  unfold prepareUpsert at h
  split at h
  · cases h
  · split at h
    · next id hid =>
      obtain ⟨update, hupdate, h⟩ := bind_eq_ok.mp h
      obtain ⟨⟨row, prepared⟩, hprepare, h⟩ := bind_eq_ok.mp h
      simp only [Except.ok.injEq, Prod.mk.injEq] at h
      obtain ⟨rfl, rfl, hrow⟩ := h
      obtain ⟨secure, happlied⟩ := prepareUpdate_applied honce hupdate (mapError_eq_ok.mp hprepare) hrow
      refine ⟨?_, update, secure, hupdate, happlied⟩
      exact Option.some.inj ((existingId_eq_some.mp hid).1.symm.trans hnamed)
    · obtain ⟨create, hcreate, h⟩ := bind_eq_ok.mp h
      obtain ⟨prepared, hprepare, h⟩ := bind_eq_ok.mp h
      simp only [Except.ok.injEq, Prod.mk.injEq] at h
      obtain ⟨rfl, rfl, hrow⟩ := h
      refine ⟨?_, prepareCreate_applied honce hcreate (mapError_eq_ok.mp hprepare) hrow⟩
      rw [hnamed]
      rfl

/-- An upsert leaves the values of its document. -/
theorem scheduleApplied_upsertSchedule (hnamed : request.id = some key)
    (honce : InputCrypto.KeysOnce request.pipelineVarsSecure)
    (h : upsertSchedule settings cron adapter env position request s = (.ok (), t)) :
    ∃ update secure row, ScheduleApplied request key update secure row t ∧
      validateCron settings cron update.cronExpression update.timezone (env.call position).checkedAt =
        .ok () := by
  obtain ⟨other, runRequest, saved, hprepare, rfl⟩ := upsertSchedule_ok h
  obtain ⟨rfl, update, secure, hupdate, rfl, happlied, hprofile, hcron⟩ :=
    prepareUpsert_applied hnamed honce hprepare
  exact ⟨update, secure, saved, ⟨hnamed, hupdate, AList.lookup_insert _, happlied, AList.lookup_insert _,
    hprofile⟩, hcron⟩

/-- The upsert of another document leaves them alone. -/
theorem ScheduleApplied.upsertSchedule_other {other : ImportScheduledRunRequest} {id : Uuid}
    (happlied : ScheduleApplied other id update secure row s) (hnamed : request.id = some key)
    (honce : InputCrypto.KeysOnce request.pipelineVarsSecure) (hne : id ≠ key)
    (h : upsertSchedule settings cron adapter env position request s = (.ok (), t)) :
    ScheduleApplied other id update secure row t := by
  obtain ⟨written, runRequest, saved, hprepare, rfl⟩ := upsertSchedule_ok h
  obtain ⟨rfl, -⟩ := prepareUpsert_applied hnamed honce hprepare
  refine ⟨happlied.named, happlied.checked, ?_, happlied.applied, ?_, happlied.profile⟩
  · exact (AList.lookup_insert_ne hne).trans happlied.found
  · exact (AList.lookup_insert_ne hne).trans happlied.stored

theorem profiles_upsertSchedule
    (h : upsertSchedule settings cron adapter env position request s = (.ok (), t)) :
    t.session.profiles = s.session.profiles := by
  obtain ⟨written, runRequest, saved, -, rfl⟩ := upsertSchedule_ok h
  rfl

/-- Up to the times of the updates the values of a document are in the other store, too. -/
theorem ScheduleApplied.of_sameRows (happlied : ScheduleApplied request key update secure row s)
    (hsame : SameRows s u) : ∃ stamp, ScheduleApplied request key update secure { row with updatedAt := stamp } u := by
  have hrow := hsame.schedules key
  rw [happlied.found, Option.map_some, Option.map_eq_some_iff] at hrow
  obtain ⟨other, hother, hunstamped⟩ := hrow
  rw [ScheduledRun.eq_of_unstamped hunstamped] at hother
  refine ⟨other.updatedAt, happlied.named, happlied.checked, hother, happlied.applied.stamped _, ?_, ?_⟩
  · rw [hsame.inputs, happlied.stored]
  · have hprofile := congrArg Option.isSome (hsame.profiles update.profileId)
    rw [Option.isSome_map, Option.isSome_map] at hprofile
    rw [hprofile]
    exact happlied.profile

/-- A document that is applied is upserted to itself. -/
theorem ScheduleApplied.upsertSchedule_again (happlied : ScheduleApplied request key update secure row s)
    (hsame : SameRows s u) (hquiet : env.Quiet)
    (hcron : validateCron settings cron update.cronExpression update.timezone (env.call position).checkedAt =
      .ok ()) :
    ∃ v, upsertSchedule settings cron adapter env position request u = (.ok (), v) ∧ SameRows s v := by
  obtain ⟨stamp, hfound⟩ := happlied.of_sameRows hsame
  have hid : existingId u request = some key :=
    existingId_eq_some.mpr ⟨hfound.named, by rw [hfound.found]; rfl⟩
  have hupdate : prepareUpdate settings cron (env.call position) u key update =
      .ok ({ row with updatedAt := stamp }, updateRunRequest update secure) :=
    prepareUpdate_eq_ok.mpr ⟨hquiet.calls position _, hfound.found, hcron,
      ensureProfile_eq_ok.mpr ⟨hquiet.calls position _, hfound.profile⟩, hquiet.calls position _,
      _, secure, hfound.stored, hfound.applied.secrets, rfl⟩
  have hprepare : prepareUpsert settings cron adapter env position request u =
      .ok (key, updateRunRequest update secure,
        .ok { row with updatedAt := (env.call position).stampedAt }) := by
    rw [prepareUpsert, hquiet.own, Bool.and_false, if_neg Bool.false_ne_true, hid]
    refine bind_eq_ok.mpr ⟨update, hfound.checked, bind_eq_ok.mpr ⟨_, mapError_eq_ok.mpr hupdate, ?_⟩⟩
    dsimp only
    rw [hfound.applied.updateRow_again]
  have hsave : storeThenSave (env.call position) key (updateRunRequest update secure)
      (.ok { row with updatedAt := (env.call position).stampedAt }) u =
        (.ok (), ((u.storeInput key (RunInputPayload.fromCreateRequest (updateRunRequest update secure))).putSchedule
          key { row with updatedAt := (env.call position).stampedAt }).commit) :=
    storeThenSave_eq_ok.mpr ⟨hquiet.calls position .storeInput, hquiet.calls position .commit,
      hquiet.calls position .refresh, _, rfl, rfl⟩
  refine ⟨_, ?_, hsame.put happlied.found happlied.stored (env.call position).stampedAt⟩
  rw [upsertSchedule_eq, hprepare]
  simp only [Program.mapError, hsave]
  rfl

end Schedules

/-! ### The import -/

section Import

open ScheduleService

variable {lib : Library} {settings : Settings} {cron : CronLibrary}
  {adapter : RunTemplate → JsonObject → Except ScheduleService.Error CreateRunRequest} {env later : Env}
  {s t u : Store} {yamlText : Text} {docs : Documents}

theorem stageDocuments_profiles (hdocs : Reimportable docs) :
    stageDocuments env docs s = Program.forEach (upsertProfile env) 0 docs.profiles s := by
  rw [stageDocuments, hdocs.noSimple, hdocs.noDeclarative]
  rcases Program.bind_cases (Program.forEach (upsertProfile env) 0 docs.profiles)
    (fun _ => Program.forEach (addSimpleTemplate env) 0 [] >>= fun _ =>
      Program.forEach (addDeclarativeTemplate env) 0 []) s with
    ⟨e, mid, hloop, hs⟩ | ⟨_, mid, hloop, hs⟩
  · exact hs.trans hloop.symm
  · exact hs.trans hloop.symm

/-- A merge import that has not raised has run its two loops and has committed. -/
theorem importConfigFromYaml_merge_ok (hparse : parseDocuments lib yamlText = .ok docs)
    (hdocs : Reimportable docs) :
    importConfigFromYaml lib settings cron adapter env yamlText .merge s = (.ok (), t) ↔
      ∃ staged written, Program.forEach (upsertProfile env) 0 docs.profiles s = (.ok (), staged) ∧
        Program.forEach (upsertSchedule settings cron adapter env) 0 docs.scheduledRuns staged =
          (.ok (), written) ∧
        env.fails .commit = false ∧ t = written.commit := by
  have hcommit : ∀ {written}, commit env written = (.ok (), t) ↔
      env.fails .commit = false ∧ t = written.commit := by
    intro written
    rw [commit, Program.check_bind]
    cases env.fails .commit with
    | true => simp
    | false =>
        simp only [Bool.false_eq_true, if_false, true_and]
        exact ⟨fun h => (Prod.mk.inj h).2.symm, fun h => h ▸ rfl⟩
  have himport : importConfigFromYaml lib settings cron adapter env yamlText .merge s =
      (stageDocuments env docs >>= fun _ =>
        Program.forEach (upsertSchedule settings cron adapter env) 0 docs.scheduledRuns >>= fun _ =>
          commit env) s := by
    simp only [importConfigFromYaml, Program.ofExcept_bind, hparse]
    rfl
  rw [himport, Program.bind_eq_ok]
  constructor
  · rintro ⟨_, staged, hstaged, h⟩
    obtain ⟨_, written, hwritten, h⟩ := Program.bind_eq_ok.mp h
    exact ⟨staged, written, (stageDocuments_profiles hdocs).symm.trans hstaged, hwritten, hcommit.mp h⟩
  · rintro ⟨staged, written, hstaged, hwritten, h⟩
    refine ⟨(), staged, (stageDocuments_profiles hdocs).trans hstaged, ?_⟩
    exact Program.bind_eq_ok.mpr ⟨(), written, hwritten, hcommit.mpr h⟩

theorem ProfileApplied.congr {request : CreateProfileRequest} (happlied : ProfileApplied request s)
    (h : t.session.profiles = s.session.profiles) : ProfileApplied request t := by
  rw [ProfileApplied, h]
  exact happlied

/-- After the import every profile is applied. -/
theorem profileApplied_of_import (hdocs : Reimportable docs) (hparse : parseDocuments lib yamlText = .ok docs)
    (h : importConfigFromYaml lib settings cron adapter env yamlText .merge s = (.ok (), t)) :
    ∀ (position : Nat) (request : CreateProfileRequest), docs.profiles[position]? = some request →
      ProfileApplied request t := by
  obtain ⟨staged, written, hstaged, hwritten, -, rfl⟩ := (importConfigFromYaml_merge_ok hparse hdocs).mp h
  intro position request hrequest
  have hstagedApplied : ProfileApplied request staged := by
    refine Program.forEach_establishes (Q := fun _ request s => ProfileApplied request s) ?_ ?_ hstaged
      position request hrequest
    · exact fun k x u u' _ hturn => profileApplied_upsertProfile hturn
    · intro j k x y u u' hjk hx hy hturn happlied
      exact happlied.upsertProfile_other (ne_of_nodup_map hdocs.profiles hjk hx hy) hturn
  have hwrittenApplied : ProfileApplied request written :=
    Program.forEach_keeps (fun k x u u' _ hturn happlied => happlied.congr (profiles_upsertSchedule hturn))
      hwritten hstagedApplied
  exact hwrittenApplied.congr rfl

/-- After the import every schedule is applied, and its cron expression has been checked. -/
theorem scheduleApplied_of_import (hdocs : Reimportable docs) (hparse : parseDocuments lib yamlText = .ok docs)
    (h : importConfigFromYaml lib settings cron adapter env yamlText .merge s = (.ok (), t)) :
    ∀ (position : Nat) (request : ImportScheduledRunRequest), docs.scheduledRuns[position]? = some request →
      ∃ key update secure row,
      ScheduleApplied request key update secure row t ∧
        validateCron settings cron update.cronExpression update.timezone (env.call position).checkedAt =
          .ok () := by
  obtain ⟨staged, written, -, hwritten, -, rfl⟩ := (importConfigFromYaml_merge_ok hparse hdocs).mp h
  have hnamed : ∀ {k : Nat} {request : ImportScheduledRunRequest}, docs.scheduledRuns[k]? = some request →
      ∃ key, request.id = some key :=
    fun hrequest => Option.isSome_iff_exists.mp (hdocs.explicit _ (List.mem_of_getElem? hrequest))
  have honce : ∀ {k : Nat} {request : ImportScheduledRunRequest}, docs.scheduledRuns[k]? = some request →
      InputCrypto.KeysOnce request.pipelineVarsSecure :=
    fun hrequest => hdocs.keys _ (List.mem_of_getElem? hrequest)
  intro position request hrequest
  have hwrittenApplied : ∃ key update secure row, ScheduleApplied request key update secure row written ∧
      validateCron settings cron update.cronExpression update.timezone (env.call position).checkedAt =
        .ok () := by
    refine Program.forEach_establishes (Q := fun position request s => ∃ key update secure row,
      ScheduleApplied request key update secure row s ∧
        validateCron settings cron update.cronExpression update.timezone (env.call position).checkedAt =
          .ok ()) ?_ ?_ hwritten position request hrequest
    · intro k x u u' hx hturn
      rw [Nat.zero_add] at hturn
      obtain ⟨key, hkey⟩ := hnamed hx
      exact ⟨key, scheduleApplied_upsertSchedule hkey (honce hx) hturn⟩
    · rintro j k x y u u' hjk hx hy hturn ⟨id, update, secure, row, happlied, hcron⟩
      obtain ⟨key, hkey⟩ := hnamed hy
      have hne : id ≠ key := by
        rintro rfl
        exact ne_of_nodup_map hdocs.schedules hjk hx hy (happlied.named.trans hkey.symm)
      exact ⟨id, update, secure, row, happlied.upsertSchedule_other hkey (honce hy) hne hturn, hcron⟩
  obtain ⟨key, update, secure, row, happlied, hcron⟩ := hwrittenApplied
  exact ⟨key, update, secure, row, ⟨happlied.named, happlied.checked, happlied.found, happlied.applied,
    happlied.stored, happlied.profile⟩, hcron⟩

/-- The committed rows are the same but for the times of their updates, and so are the stored payloads. -/
structure Reapplied (s t : Store) : Prop where
  profiles : ∀ id, (t.committed.profiles.lookup id).map Profile.unstamped =
    (s.committed.profiles.lookup id).map Profile.unstamped
  templates : t.committed.templates = s.committed.templates
  schedules : ∀ id, (t.committed.schedules.lookup id).map ScheduledRun.unstamped =
    (s.committed.schedules.lookup id).map ScheduledRun.unstamped
  inputs : ∀ id, t.inputs.lookup id = s.inputs.lookup id

/-- **Re-import.** A merge import that follows another one of the same text is accepted and changes nothing. -/
theorem importConfigFromYaml_again (hparse : parseDocuments lib yamlText = .ok docs) (hdocs : Reimportable docs)
    (hfirst : importConfigFromYaml lib settings cron adapter env yamlText .merge s = (.ok (), t))
    (hverdicts : SameVerdicts settings cron docs env later) (hquiet : later.Quiet) :
    ∃ u, importConfigFromYaml lib settings cron adapter later yamlText .merge t = (.ok (), u) ∧
      Reapplied t u := by
  have hprofiles := profileApplied_of_import hdocs hparse hfirst
  have hschedules := scheduleApplied_of_import hdocs hparse hfirst
  obtain ⟨staged, hstaged, hsame⟩ : ∃ staged,
      Program.forEach (upsertProfile later) 0 docs.profiles t = (.ok (), staged) ∧ SameRows t staged := by
    refine Program.forEach_of_invariant (fun k request u hrequest hsame => ?_) (SameRows.refl t)
    exact (hprofiles k request hrequest).upsertProfile_again hsame (hquiet.own _)
  obtain ⟨written, hwritten, hsame⟩ : ∃ written,
      Program.forEach (upsertSchedule settings cron adapter later) 0 docs.scheduledRuns staged =
        (.ok (), written) ∧ SameRows t written := by
    refine Program.forEach_of_invariant (fun k request u hrequest hsame => ?_) hsame
    obtain ⟨key, update, secure, row, happlied, hcron⟩ := hschedules k request hrequest
    rw [Nat.zero_add]
    refine happlied.upsertSchedule_again hsame hquiet ?_
    exact (hverdicts k request _ hrequest (validate_of_updateRequest happlied.checked)).trans hcron
  refine ⟨written.commit, ?_, ?_⟩
  · exact (importConfigFromYaml_merge_ok hparse hdocs).mpr ⟨staged, written, hstaged, hwritten, hquiet.own _, rfl⟩
  · obtain ⟨_, first, -, -, -, rfl⟩ := (importConfigFromYaml_merge_ok hparse hdocs).mp hfirst
    exact ⟨hsame.profiles, hsame.templates, hsame.schedules, hsame.inputs⟩

end Import

def deployText : Text :=
  "kind: Profile\nid: default\npde_image: img:1\n---\nkind: ScheduledRun
id: 00000000-0000-0000-0000-000000000007\nname: Deploy\ncron_expression: '* * * * *'
pipeline_data: 'stages: []'\npipeline_vars_secure: API_TOKEN=plaintext-secret\n".toList

def deployProfile : CreateProfileRequest where
  id := "default".toList
  pdeImage := "img:1".toList

def deploySchedule : ImportScheduledRunRequest where
  id := some 7
  name := "Deploy".toList
  cronExpression := "* * * * *".toList
  pipelineData := "stages: []".toList
  pipelineVarsSecure := some "API_TOKEN=plaintext-secret".toList

def deployDocs : Documents where
  profiles := [deployProfile]
  scheduledRuns := [deploySchedule]

/-- The documents as they are loaded. -/
def deployYaml : List Json :=
  [.obj [("kind".toList, .str "Profile".toList), ("id".toList, .str "default".toList),
      ("pde_image".toList, .str "img:1".toList)],
    .obj [("kind".toList, .str "ScheduledRun".toList),
      ("id".toList, .str "00000000-0000-0000-0000-000000000007".toList),
      ("name".toList, .str "Deploy".toList), ("cron_expression".toList, .str "* * * * *".toList),
      ("pipeline_data".toList, .str "stages: []".toList),
      ("pipeline_vars_secure".toList, .str "API_TOKEN=plaintext-secret".toList)]]

/-- The libraries as they treat the text. -/
def deployLibrary : Library where
  gitLabCiLoad yamlText := if yamlText = deployText then .ok deployYaml else .error .other
  safeLoad _ := .error .other
  coerceProfile payload :=
    if Json.get payload "pde_image".toList = some (.str "img:1".toList) then some deployProfile else none
  coerceSimpleTemplate _ := none
  coerceSchedule payload :=
    if Json.get payload "name".toList = some (.str "Deploy".toList) then some deploySchedule else none
  resourcesValid _ := true
  fromDocument _ := none

theorem parseDocuments_deploy : parseDocuments deployLibrary deployText = .ok deployDocs := by
  have hload (yamlText : Text) : deployLibrary.gitLabCiLoad yamlText =
      if yamlText = deployText then .ok deployYaml else .error .other := rfl
  rw [parseDocuments, loadAll, hload, if_pos rfl]
  rfl

set_option maxRecDepth 2000 in
theorem exists_importConfigFromYaml_deploy :
    ∃ t, importConfigFromYaml deployLibrary {} everyMinute noAdapter sampleEnv deployText .merge sampleStore =
      (.ok (), t) := by
  have hpair (imported : Except Error Unit × Store) (h : imported.1 = .ok ()) :
      ∃ t, imported = (.ok (), t) := ⟨imported.2, Prod.ext h rfl⟩
  refine hpair _ ?_
  rw [importConfigFromYaml, parseDocuments_deploy]
  rfl

/-- The second import, an hour later, leaves the secret, the anchor and the switch of the first. -/
theorem importConfigFromYaml_again_deploy :
    ∃ t u,
      importConfigFromYaml deployLibrary {} everyMinute noAdapter sampleEnv deployText .merge sampleStore =
        (.ok (), t) ∧
      importConfigFromYaml deployLibrary {} everyMinute noAdapter laterEnv deployText .merge t = (.ok (), u) ∧
        Reapplied t u := by
  have hdocs : Reimportable deployDocs := by
    refine ⟨rfl, rfl, List.nodup_singleton _, ?_, List.nodup_singleton _, ?_⟩
    · exact fun request hrequest => List.mem_singleton.mp hrequest ▸ rfl
    · intro request hrequest
      obtain rfl := List.mem_singleton.mp hrequest
      decide
  have hverdicts : SameVerdicts {} everyMinute deployDocs sampleEnv laterEnv :=
    fun position request base _ _ => rfl
  have hquiet : laterEnv.Quiet := ⟨fun _ => rfl, fun _ _ => rfl⟩
  obtain ⟨t, hfirst⟩ := exists_importConfigFromYaml_deploy
  obtain ⟨u, hagain⟩ := importConfigFromYaml_again parseDocuments_deploy hdocs hfirst hverdicts hquiet
  exact ⟨t, u, hfirst, hagain⟩

end ConfigImport
end PdeOperator
