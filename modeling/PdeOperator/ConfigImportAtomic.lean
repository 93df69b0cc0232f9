import PdeOperator.ConfigImport

/-! When an import that raises leaves everything as it was: exactly when it raises before its first
commit, without having stored another payload. -/

namespace PdeOperator.ConfigImport
open Base

/-- The committed tables and the stored payloads have the same contents. -/
structure Unchanged (s s' : Store) : Prop where
  profiles : ∀ id, s'.committed.profiles.lookup id = s.committed.profiles.lookup id
  templates : ∀ id, s'.committed.templates.lookup id = s.committed.templates.lookup id
  schedules : ∀ id, s'.committed.schedules.lookup id = s.committed.schedules.lookup id
  inputs : ∀ id, s'.inputs.lookup id = s.inputs.lookup id

/-- Nothing has been committed or stored. -/
def SameDurable (s s' : Store) : Prop := s'.committed = s.committed ∧ s'.inputs = s.inputs

theorem SameDurable.unchanged {s s' : Store} (h : SameDurable s s') : Unchanged s s' := by
  obtain ⟨hcommitted, hinputs⟩ := h
  refine ⟨?_, ?_, ?_, ?_⟩ <;> intro id
  · rw [hcommitted]
  · rw [hcommitted]
  · rw [hcommitted]
  · rw [hinputs]

section Phases

variable (lib : Library) (settings : Settings) (cron : CronLibrary)
  (adapter : RunTemplate → JsonObject → Except ScheduleService.Error CreateRunRequest) (env : Env)

/-- The session after the bulk deletes, when there is no schedule to delete. -/
def purgedStore (mode : Mode) (s : Store) : Store :=
  match mode with
  | .merge => s
  | .replace =>
      { s with session :=
        { s.session with profiles := deleteOtherProfiles s.session.profiles, templates := ∅ } }

def putProfile (position : Nat) (request : CreateProfileRequest) (s : Store) : Store :=
  { s with session := { s.session with
      profiles := s.session.profiles.insert request.id
        (upsertedProfile env position request (s.session.profiles.lookup request.id)) } }

def putSimpleTemplate (position : Nat) (request : CreateSimpleRunTemplateRequest) (s : Store) :
    Store :=
  { s with session := { s.session with
      templates := s.session.templates.insert (env.simpleId position)
        (buildSimpleTemplate env request) } }

def putDeclarativeTemplate (position : Nat) (contract : DeclarativeRunTemplate) (s : Store) :
    Store :=
  { s with session := { s.session with
      templates := s.session.templates.insert (env.declarativeId position)
        (buildDeclarativeTemplate env contract) } }

/-- The store before the first scheduled run. -/
def stagedStore (docs : Documents) (s : Store) : Store :=
  Program.sweep (putDeclarativeTemplate env) 0 docs.declarativeTemplates
    (Program.sweep (putSimpleTemplate env) 0 docs.simpleTemplates
      (Program.sweep (putProfile env) 0 docs.profiles s))

/-- The checks of a scheduled run before its payload is stored: the id under which it is stored, its
payload and the row that is to be saved. -/
def prepareUpsert (position : Nat) (request : ImportScheduledRunRequest) (s : Store) :
    Except Error (Uuid × CreateRunRequest × Except ScheduleService.Error ScheduledRun) :=
  if request.id.isSome && env.fails (.getSchedule position) then .error .database
  else match existingId s request with
    | some id => do
        let update ← updateRequest request
        let (row, runRequest) ← (ScheduleService.prepareUpdate settings cron (env.call position) s id
          update).mapError .schedule
        .ok (id, runRequest, ScheduleService.updateRow cron update runRequest
          (env.call position).stampedAt (env.call position).anchoredAt row)
    | none => do
        let create ← createRequest request
        let runRequest ← (ScheduleService.prepareCreate settings cron adapter (env.call position)
          s.session create).mapError .schedule
        .ok (request.id.getD (env.call position).newId, runRequest, ScheduleService.createRow cron
          create runRequest (env.call position).stampedAt (env.call position).anchoredAt)

/-- The first scheduled run is rejected: by its checks, by the object store, or by the session when
the payload that it has stored was there before. -/
inductive FirstRejected (request : ImportScheduledRunRequest) (s : Store) : Prop where
  | checks {e} (h : prepareUpsert settings cron adapter env 0 request s = .error e)
  | store {id runRequest row}
      (h : prepareUpsert settings cron adapter env 0 request s = .ok (id, runRequest, row))
      (hstore : (env.call 0).fails .storeInput = true)
  | save {id runRequest row}
      (h : prepareUpsert settings cron adapter env 0 request s = .ok (id, runRequest, row))
      (hsame : s.inputs.lookup id = some (RunInputPayload.fromCreateRequest runRequest))
      (hsave : (∃ e, row = .error e) ∨ (env.call 0).fails .commit = true)

/-- A profile that is refused: its id is not valid or the session does not read it. -/
def ProfileRefused (position : Nat) (request : CreateProfileRequest) : Prop :=
  validProfileId request.id = false ∨ env.fails (.getProfile position) = true

/-- The bulk deletes fail before they are committed. -/
def PurgeFails (s : Store) : Prop :=
  env.fails .deleteProfiles = true ∨ env.fails .deleteTemplates = true ∨
    env.purge.fails .listSchedules = true ∨
    (s.session.schedules.keys ≠ [] ∧
      (env.purge.fails .deleteRows = true ∨ env.purge.fails .commit = true))

/-- Schedules that are deleted are gone before anything else can raise. -/
inductive PurgeOutcome (s : Store) : Except Error Unit × Store → Prop where
  | fails {e t} (h : PurgeFails env s) (hsame : SameDurable s t) : PurgeOutcome s (.error e, t)
  | empty (h : ¬PurgeFails env s) (hempty : s.session.schedules.keys = []) :
      PurgeOutcome s (.ok (), purgedStore .replace s)
  | deleted {t} (h : ¬PurgeFails env s) (hkeys : s.session.schedules.keys ≠ [])
      (hcommitted : t.committed.schedules = ∅) (hsession : t.session.schedules = ∅) :
      PurgeOutcome s (.ok (), t)

/-- Where an import has to raise to leave everything as it was. -/
inductive RaisesBeforeWriting (yamlText : Text) (mode : Mode) (s : Store) : Prop where
  | parsing {e} (h : parseDocuments lib yamlText = .error e)
  | purging (hmode : mode = .replace) (h : PurgeFails env s)
  | staging {docs position request} (hparse : parseDocuments lib yamlText = .ok docs)
      (hpurge : mode = .merge ∨ s.session.schedules.keys = [])
      (hrequest : docs.profiles[position]? = some request)
      (h : ProfileRefused env position request)
  | noSchedules {docs} (hparse : parseDocuments lib yamlText = .ok docs)
      (hpurge : mode = .merge ∨ s.session.schedules.keys = []) (h : docs.scheduledRuns = [])
  | firstSchedule {docs request rest} (hparse : parseDocuments lib yamlText = .ok docs)
      (hpurge : mode = .merge ∨ s.session.schedules.keys = [])
      (hrequest : docs.scheduledRuns = request :: rest)
      (h : FirstRejected settings cron adapter env request
        (stagedStore env docs (purgedStore mode s)))

/-- The clock is ahead of the stamps of all committed schedules. -/
def ClockAhead (s : Store) : Prop :=
  ∀ position id row, s.committed.schedules.lookup id = some row →
    row.updatedAt < (env.call position).stampedAt

variable {lib settings cron adapter env} {s t : Store}

/-- The staging keeps what every change of the session that leaves the schedules alone keeps. -/
theorem keeps_stageDocuments {I : Store → Prop}
    (hI : ∀ f : Database → Database, (∀ db, (f db).schedules = db.schedules) →
      Program.Keeps (inSession f) I) (docs : Documents) :
    Program.Keeps (stageDocuments env docs) I := by
  have hprofile : ∀ position request, Program.Keeps (upsertProfile env position request) I := by
    intro position request
    refine Program.Keeps.bind (Program.keeps_check _ _) fun _ => ?_
    exact Program.Keeps.bind (Program.keeps_check _ _) fun _ => hI _ fun _ => rfl
  refine Program.Keeps.bind (Program.keeps_forEach hprofile 0 _) fun _ => ?_
  have hsimple : ∀ position request, Program.Keeps (addSimpleTemplate env position request) I :=
    fun _ _ => hI _ fun _ => rfl
  refine Program.Keeps.bind (Program.keeps_forEach hsimple 0 _) fun _ => ?_
  have hdeclarative : ∀ position contract,
      Program.Keeps (addDeclarativeTemplate env position contract) I :=
    fun _ _ => hI _ fun _ => rfl
  exact Program.keeps_forEach hdeclarative 0 _

theorem sameDurable_inSession (s : Store) (f : Database → Database) :
    Program.Keeps (inSession f) (SameDurable s) := fun _ h => h

theorem upsertProfile_refused {position : Nat} {request : CreateProfileRequest}
    (h : ProfileRefused env position request) (s t : Store) :
    upsertProfile env position request s ≠ (.ok (), t) := by
  simp only [upsertProfile, Program.check_bind]
  rcases h with hid | hget
  · simp [hid]
  · split
    · simp
    · simp

theorem upsertProfile_accepted {position : Nat} {request : CreateProfileRequest}
    (h : ¬ProfileRefused env position request) (s : Store) :
    upsertProfile env position request s = (.ok (), putProfile env position request s) := by
  rw [ProfileRefused, not_or, Bool.not_eq_false, Bool.not_eq_true] at h
  simp only [upsertProfile, Program.check_bind]
  simp [h.1, h.2, inSession, Program.update, putProfile]

theorem upsertProfile_ok (position : Nat) (request : CreateProfileRequest) (s t : Store)
    (h : upsertProfile env position request s = (.ok (), t)) :
    t = putProfile env position request s := by
  by_cases hrefused : ProfileRefused env position request
  · exact absurd h (upsertProfile_refused hrefused s t)
  · rw [upsertProfile_accepted hrefused] at h
    cases h
    rfl

theorem addSimpleTemplate_ok (position : Nat) (request : CreateSimpleRunTemplateRequest)
    (s t : Store) (h : addSimpleTemplate env position request s = (.ok (), t)) :
    t = putSimpleTemplate env position request s := by
  cases h
  rfl

theorem addDeclarativeTemplate_ok (position : Nat) (contract : DeclarativeRunTemplate)
    (s t : Store) (h : addDeclarativeTemplate env position contract s = (.ok (), t)) :
    t = putDeclarativeTemplate env position contract s := by
  cases h
  rfl

/-- The staging ends without an exception only in the staged store. -/
theorem stageDocuments_ok {docs : Documents} (h : stageDocuments env docs s = (.ok (), t)) :
    t = stagedStore env docs s := by
  rw [stageDocuments] at h
  rcases Program.bind_cases (Program.forEach (upsertProfile env) 0 docs.profiles) _ s with
    ⟨e, u, -, hs⟩ | ⟨_, u, hu, hs⟩
  · cases hs.symm.trans h
  · replace h := hs.symm.trans h
    have hprofiles : u = Program.sweep (putProfile env) 0 docs.profiles s :=
      Program.forEach_ok upsertProfile_ok hu
    rcases Program.bind_cases (Program.forEach (addSimpleTemplate env) 0 docs.simpleTemplates) _ u
      with ⟨e, v, -, hs⟩ | ⟨_, v, hv, hs⟩
    · cases hs.symm.trans h
    · have hsimple : v = Program.sweep (putSimpleTemplate env) 0 docs.simpleTemplates u :=
        Program.forEach_ok addSimpleTemplate_ok hv
      have hdeclarative := Program.forEach_ok addDeclarativeTemplate_ok (hs.symm.trans h)
      rw [stagedStore, ← hprofiles, ← hsimple]
      exact hdeclarative

/-- The staging raises only at a profile that is refused. -/
theorem profileRefused_of_stageDocuments {docs : Documents} {e : Error}
    (h : stageDocuments env docs s = (.error e, t)) : ∃ position request,
      docs.profiles[position]? = some request ∧ ProfileRefused env position request := by
  rw [stageDocuments] at h
  rcases Program.bind_cases (Program.forEach (upsertProfile env) 0 docs.profiles) _ s with
    ⟨_, u, hu, -⟩ | ⟨_, u, -, hs⟩
  · obtain ⟨position, request, mid, hrequest, hmid⟩ := Program.forEach_error hu
    refine ⟨position, request, hrequest, ?_⟩
    by_contra haccepted
    rw [Nat.zero_add, upsertProfile_accepted haccepted] at hmid
    cases hmid
  · replace h := hs.symm.trans h
    rcases Program.bind_cases (Program.forEach (addSimpleTemplate env) 0 docs.simpleTemplates) _ u
      with ⟨_, v, hv, -⟩ | ⟨_, v, -, hs⟩
    · obtain ⟨position, request, mid, -, hmid⟩ := Program.forEach_error hv
      cases hmid
    · obtain ⟨position, request, mid, -, hmid⟩ := Program.forEach_error (hs.symm.trans h)
      cases hmid

/-- A profile that is refused makes the staging raise. -/
theorem stageDocuments_refused {docs : Documents} {position : Nat} {request : CreateProfileRequest}
    (hrequest : docs.profiles[position]? = some request) (h : ProfileRefused env position request)
    (s t : Store) : stageDocuments env docs s ≠ (.ok (), t) := by
  intro hok
  rcases Program.bind_cases (Program.forEach (upsertProfile env) 0 docs.profiles) _ s with
    ⟨e, u, -, hs⟩ | ⟨_, u, hu, -⟩
  · cases hs.symm.trans hok
  · refine Program.forEach_raises hrequest (fun v w => ?_) s u hu
    rw [Nat.zero_add]
    exact upsertProfile_refused h v w

theorem purgeOutcome {result : Except Error Unit × Store} (h : purge env s = result) :
    PurgeOutcome env s result := by
  rw [← h]
  simp only [purge, Program.check_bind, Program.update_bind, inSession]
  cases hprofiles : env.fails .deleteProfiles with
  | true => exact .fails (Or.inl hprofiles) ⟨rfl, rfl⟩
  | false =>
    cases htemplates : env.fails .deleteTemplates with
    | true => exact .fails (Or.inr (Or.inl htemplates)) ⟨rfl, rfl⟩
    | false =>
      simp only [Bool.false_eq_true, if_false, Program.mapError, ScheduleService.deleteAllSchedules]
      cases hlist : env.purge.fails .listSchedules with
      | true => exact .fails (Or.inr (Or.inr (Or.inl hlist))) ⟨rfl, rfl⟩
      | false =>
        cases hkeys : s.session.schedules.keys with
        | nil =>
            refine .empty ?_ hkeys
            simp [PurgeFails, hprofiles, htemplates, hlist, hkeys]
        | cons id ids =>
            have hne : s.session.schedules.keys ≠ [] := by simp [hkeys]
            cases hrows : env.purge.fails .deleteRows with
            | true => exact .fails (Or.inr (Or.inr (Or.inr ⟨hne, Or.inl hrows⟩))) ⟨rfl, rfl⟩
            | false =>
              cases hcommit : env.purge.fails .commit with
              | true => exact .fails (Or.inr (Or.inr (Or.inr ⟨hne, Or.inr hcommit⟩))) ⟨rfl, rfl⟩
              | false =>
                  refine .deleted ?_ hne rfl rfl
                  simp [PurgeFails, hprofiles, htemplates, hlist, hrows, hcommit]

/-- `_upsert_schedule` is its checks followed by the storing of the payload and the saving. -/
theorem upsertSchedule_eq (position : Nat) (request : ImportScheduledRunRequest) (s : Store) :
    upsertSchedule settings cron adapter env position request s =
      match prepareUpsert settings cron adapter env position request s with
      | .error e => (.error e, s)
      | .ok (id, runRequest, row) =>
          Program.mapError .schedule
            (ScheduleService.storeThenSave (env.call position) id runRequest row) s := by
  simp only [upsertSchedule, Program.check_bind, Program.read_bind, prepareUpsert]
  split
  · rfl
  · cases hid : existingId s request with
    | some id =>
        simp only [Program.ofExcept_bind]
        cases hupdate : updateRequest request with
        | error e => rfl
        | ok update =>
            simp only [Program.mapError, ScheduleService.updateSchedule]
            cases hprepare : ScheduleService.prepareUpdate settings cron (env.call position) s id
              update with
            | error e => simp [hprepare, Except.mapError, Except.bind, bind]
            | ok prepared => simp [hprepare, Except.mapError, Except.bind, bind]
    | none =>
        simp only [Program.ofExcept_bind]
        cases hcreate : createRequest request with
        | error e => rfl
        | ok create =>
            simp only [Program.mapError, ScheduleService.createSchedule]
            cases hprepare : ScheduleService.prepareCreate settings cron adapter (env.call position)
              s.session create with
            | error e => simp [hprepare, Except.mapError, Except.bind, bind]
            | ok prepared => simp [hprepare, Except.mapError, Except.bind, bind]

/-- A row that is saved bears the time of the call. -/
theorem prepareUpsert_updatedAt {position : Nat} {request : ImportScheduledRunRequest} {id : Uuid}
    {runRequest : CreateRunRequest} {row : Except ScheduleService.Error ScheduledRun}
    {saved : ScheduledRun}
    (h : prepareUpsert settings cron adapter env position request s = .ok (id, runRequest, row))
    (hsaved : row = .ok saved) : saved.updatedAt = (env.call position).stampedAt := by
  subst hsaved
  unfold prepareUpsert at h
  split at h
  · cases h
  · split at h
    · obtain ⟨update, -, h⟩ := bind_eq_ok.mp h
      obtain ⟨⟨current, prepared⟩, -, h⟩ := bind_eq_ok.mp h
      simp only [Except.ok.injEq, Prod.mk.injEq] at h
      exact (ScheduleService.updateRow_saved h.2.2).updatedAt_eq
    · obtain ⟨create, -, h⟩ := bind_eq_ok.mp h
      obtain ⟨prepared, -, h⟩ := bind_eq_ok.mp h
      simp only [Except.ok.injEq, Prod.mk.injEq] at h
      obtain ⟨blank, -, hrow⟩ := ScheduleService.createRow_saved h.2.2
      exact hrow.updatedAt_eq

/-- The row is later than the one that was committed before. -/
def Later (s : Store) (id : Uuid) (row : ScheduledRun) : Prop :=
  ∀ old, s.committed.schedules.lookup id = some old → old.updatedAt < row.updatedAt

/-- The database has another row for the schedule than was committed before, or has lost it. -/
def Differs (s : Store) (id : Uuid) (db : Database) : Prop :=
  match db.schedules.lookup id with
  | some row => Later s id row
  | none => (s.committed.schedules.lookup id).isSome = true

theorem Differs.ne {id : Uuid} {db : Database} (h : Differs s id db) :
    db.schedules.lookup id ≠ s.committed.schedules.lookup id := by
  intro hsame
  unfold Differs at h
  rw [hsame] at h
  cases hold : s.committed.schedules.lookup id with
  | none =>
      rw [hold] at h
      cases h
  | some old =>
      rw [hold] at h
      exact absurd (h old hold) (lt_irrefl _)

theorem differs_insert {id : Uuid} {row : ScheduledRun} (h : Later s id row) (db : Database) :
    Differs s id { db with schedules := db.schedules.insert id row } := by
  show match (db.schedules.insert id row).lookup id with
    | some row => Later s id row
    | none => _
  rw [AList.lookup_insert]
  exact h

theorem Differs.insert {id key : Uuid} {row : ScheduledRun} {db : Database} (h : Differs s id db)
    (hrow : Later s key row) :
    Differs s id { db with schedules := db.schedules.insert key row } := by
  by_cases hkey : id = key
  · rw [hkey]
    exact differs_insert hrow db
  · show match (db.schedules.insert key row).lookup id with
      | some row => Later s id row
      | none => _
    rw [AList.lookup_insert_ne hkey]
    exact h

/-- The schedule has been written or deleted for good. -/
def Moved (s : Store) (id : Uuid) (t : Store) : Prop := Differs s id t.committed ∧ Differs s id t.session

theorem Moved.not_unchanged {id : Uuid} (h : Moved s id t) : ¬Unchanged s t :=
  fun hsame => h.1.ne (hsame.schedules id)

/-- The rows that the import saves are later than those before it. -/
theorem later_of_prepareUpsert (hclock : ClockAhead env s) {position : Nat}
    {request : ImportScheduledRunRequest} {id : Uuid} {runRequest : CreateRunRequest}
    {row : Except ScheduleService.Error ScheduledRun} {saved : ScheduledRun}
    (h : prepareUpsert settings cron adapter env position request t = .ok (id, runRequest, row))
    (hsaved : row = .ok saved) : Later s id saved := by
  intro old hold
  rw [prepareUpsert_updatedAt h hsaved]
  exact hclock position id old hold

theorem keeps_upsertSchedule (hclock : ClockAhead env s) (id : Uuid) (position : Nat)
    (request : ImportScheduledRunRequest) :
    Program.Keeps (upsertSchedule settings cron adapter env position request) (Moved s id) := by
  intro t h
  rw [upsertSchedule_eq]
  cases hprepare : prepareUpsert settings cron adapter env position request t with
  | error e => exact h
  | ok prepared =>
      obtain ⟨key, runRequest, row⟩ := prepared
      obtain ⟨result, hresult⟩ : ∃ result, ScheduleService.storeThenSave (env.call position) key
        runRequest row t = result := ⟨_, rfl⟩
      simp only [Program.mapError, hresult]
      cases ScheduleService.saveOutcome hresult with
      | notStored => exact h
      | noRow => exact h
      | notCommitted _ hrow => exact ⟨h.1, h.2.insert (later_of_prepareUpsert hclock hprepare hrow)⟩
      | committed _ _ hrow =>
          have hlater := later_of_prepareUpsert hclock hprepare hrow
          exact ⟨h.2.insert hlater, h.2.insert hlater⟩

theorem keeps_commit (id : Uuid) : Program.Keeps (commit env) (Moved s id) :=
  Program.Keeps.bind (Program.keeps_check _ _) fun _ => Program.keeps_update fun _ h => ⟨h.2, h.2⟩

/-- Storing a payload changes nothing exactly when it was there before. -/
theorem unchanged_storeInput_iff {u : Store} {id : Uuid} {payload : RunInputPayload}
    (hsame : SameDurable s u) (hcommitted : t.committed = u.committed)
    (hinputs : t.inputs = u.inputs.insert id payload) :
    Unchanged s t ↔ u.inputs.lookup id = some payload := by
  obtain ⟨hdb, hu⟩ := hsame
  constructor
  · intro hunchanged
    have hinput := hunchanged.inputs id
    rw [hinputs, AList.lookup_insert] at hinput
    rw [hu]
    exact hinput.symm
  · intro hpayload
    refine ⟨?_, ?_, ?_, ?_⟩ <;> intro key
    · rw [hcommitted, hdb]
    · rw [hcommitted, hdb]
    · rw [hcommitted, hdb]
    · rw [hinputs]
      by_cases hkey : key = id
      · rw [hkey, AList.lookup_insert, ← hu, hpayload]
      · rw [AList.lookup_insert_ne hkey, hu]

theorem FirstRejected.unchanged {u : Store} (hsame : SameDurable s u)
    {request : ImportScheduledRunRequest} (h : FirstRejected settings cron adapter env request u) :
    ∃ e t, upsertSchedule settings cron adapter env 0 request u = (.error e, t) ∧ Unchanged s t := by
  rw [upsertSchedule_eq]
  cases h with
  | checks h => exact ⟨_, u, by rw [h], hsame.unchanged⟩
  | @store id runRequest row h hstore =>
      rw [h]
      refine ⟨.schedule (.inputStorage id), u, ?_, hsame.unchanged⟩
      simp [Program.mapError, ScheduleService.storeThenSave, hstore, Except.mapError]
  | @save id runRequest row h hpayload hsave =>
      rw [h]
      obtain ⟨result, hresult⟩ : ∃ result, ScheduleService.storeThenSave (env.call 0) id runRequest
        row u = result := ⟨_, rfl⟩
      simp only [Program.mapError, hresult]
      cases ScheduleService.saveOutcome hresult with
      | notStored => exact ⟨_, _, rfl, hsame.unchanged⟩
      | noRow =>
          refine ⟨_, _, rfl, (unchanged_storeInput_iff hsame ?_ ?_).mpr hpayload⟩ <;> rfl
      | notCommitted =>
          refine ⟨_, _, rfl, (unchanged_storeInput_iff hsame ?_ ?_).mpr hpayload⟩ <;> rfl
      | committed _ _ hrow hcommit =>
          rcases hsave with ⟨e, he⟩ | hfails
          · cases he.symm.trans hrow
          · cases hfails.symm.trans hcommit

/-- A first scheduled run that is not rejected leaves a trace, also when it raises. -/
theorem changed_of_not_firstRejected (hclock : ClockAhead env s) {u : Store}
    (hsame : SameDurable s u) {request : ImportScheduledRunRequest}
    (h : ¬FirstRejected settings cron adapter env request u) {result : Except Error Unit}
    (hresult : upsertSchedule settings cron adapter env 0 request u = (result, t)) :
    (∃ id, Moved s id t) ∨ (∃ e, result = .error e) ∧ ¬Unchanged s t := by
  rw [upsertSchedule_eq] at hresult
  cases hprepare : prepareUpsert settings cron adapter env 0 request u with
  | error e => exact absurd (.checks hprepare) h
  | ok prepared =>
      obtain ⟨id, runRequest, row⟩ := prepared
      have hpayload : (∃ e, row = .error e) ∨ (env.call 0).fails .commit = true →
          u.inputs.lookup id ≠ some (RunInputPayload.fromCreateRequest runRequest) :=
        fun hsave hlookup => h (.save hprepare hlookup hsave)
      obtain ⟨saved, hsaved⟩ : ∃ saved, ScheduleService.storeThenSave (env.call 0) id runRequest
        row u = saved := ⟨_, rfl⟩
      simp only [hprepare, Program.mapError, hsaved] at hresult
      cases ScheduleService.saveOutcome hsaved with
      | notStored hstore => exact absurd (.store hprepare hstore) h
      | noRow _ hrow =>
          cases hresult
          have hnew := hpayload (Or.inl ⟨_, hrow⟩)
          refine Or.inr ⟨⟨_, rfl⟩, mt (unchanged_storeInput_iff hsame ?_ ?_).mp hnew⟩ <;> rfl
      | notCommitted _ _ hcommit =>
          cases hresult
          have hnew := hpayload (Or.inr hcommit)
          refine Or.inr ⟨⟨_, rfl⟩, mt (unchanged_storeInput_iff hsame ?_ ?_).mp hnew⟩ <;> rfl
      | committed _ _ hrow =>
          cases hresult
          have hlater := later_of_prepareUpsert hclock hprepare hrow
          exact Or.inl ⟨id, differs_insert hlater _, differs_insert hlater _⟩

/-! ### The whole import -/

theorem moved_inSession (s : Store) (id : Uuid) {f : Database → Database}
    (hf : ∀ db, (f db).schedules = db.schedules) : Program.Keeps (inSession f) (Moved s id) := by
  intro t h
  refine ⟨h.1, ?_⟩
  have hsession : Differs s id t.session := h.2
  show Differs s id (f t.session)
  unfold Differs
  rw [hf]
  exact hsession

/-- The scheduled runs and the last commit, from a store in which nothing has been written yet. The
clock matters only for telling a rewritten schedule from the old one. -/
theorem unchanged_schedules {u : Store} (hsame : SameDurable s u)
    {runs : List ImportScheduledRunRequest} {e : Error}
    (h : (Program.forEach (upsertSchedule settings cron adapter env) 0 runs >>= fun _ =>
      commit env) u = (.error e, t)) :
    ((runs = [] ∨ ∃ request rest, runs = request :: rest ∧
      FirstRejected settings cron adapter env request u) → Unchanged s t) ∧
    (ClockAhead env s → Unchanged s t → runs = [] ∨ ∃ request rest, runs = request :: rest ∧
      FirstRejected settings cron adapter env request u) := by
  cases runs with
  | nil =>
      have hcommit : commit env u = (.error e, t) := h
      simp only [commit, Program.check_bind] at hcommit
      split at hcommit
      · cases hcommit
        exact ⟨fun _ => hsame.unchanged, fun _ _ => Or.inl rfl⟩
      · cases hcommit
  | cons request rest =>
      obtain ⟨⟨result, mid⟩, hfirst⟩ :
        ∃ r, upsertSchedule settings cron adapter env 0 request u = r := ⟨_, rfl⟩
      by_cases hrejected : FirstRejected settings cron adapter env request u
      · obtain ⟨e', t', hraises, hunchanged⟩ := hrejected.unchanged hsame
        cases (Program.forEach_cons_error hraises _).symm.trans h
        exact ⟨fun _ => hunchanged, fun _ _ => Or.inr ⟨request, rest, rfl, hrejected⟩⟩
      · refine ⟨?_, fun hclock hunchanged => ?_⟩
        · rintro (hnil | ⟨first, others, hcons, hfirstRejected⟩)
          · cases hnil
          · cases hcons
            exact absurd hfirstRejected hrejected
        have hchanged := changed_of_not_firstRejected hclock hsame hrejected hfirst
        refine absurd hunchanged ?_
        cases result with
        | error e' =>
            cases (Program.forEach_cons_error hfirst _).symm.trans h
            rcases hchanged with ⟨id, hmoved⟩ | ⟨-, hchanged⟩
            · exact hmoved.not_unchanged
            · exact hchanged
        | ok a =>
            rcases hchanged with ⟨id, hmoved⟩ | ⟨⟨e', he'⟩, -⟩
            · have hkeeps : Program.Keeps (Program.forEach (upsertSchedule settings cron adapter env) 1
                  rest >>= fun _ => commit env) (Moved s id) :=
                Program.Keeps.bind (Program.keeps_forEach (keeps_upsertSchedule hclock id) 1 rest)
                  fun _ => keeps_commit id
              have hlast := hkeeps mid hmoved
              rw [(Program.forEach_cons_ok hfirst _).symm.trans h] at hlast
              exact hlast.not_unchanged
            · cases he'

/-- The import after its bulk deletes, from a store in which nothing has been written yet. -/
theorem unchanged_of_sameDurable {yamlText : Text} {mode : Mode}
    {docs : Documents} (hparse : parseDocuments lib yamlText = .ok docs)
    (hpurge : mode = .merge ∨ s.session.schedules.keys = [])
    (hkept : mode = .replace → ¬PurgeFails env s) (hsame : SameDurable s (purgedStore mode s))
    {e : Error}
    (h : (stageDocuments env docs >>= fun _ =>
      Program.forEach (upsertSchedule settings cron adapter env) 0 docs.scheduledRuns >>= fun _ =>
        commit env) (purgedStore mode s) = (.error e, t)) :
    (RaisesBeforeWriting lib settings cron adapter env yamlText mode s → Unchanged s t) ∧
    (ClockAhead env s → Unchanged s t →
      RaisesBeforeWriting lib settings cron adapter env yamlText mode s) := by
  have hkeeps : Program.Keeps (stageDocuments env docs) (SameDurable s) :=
    keeps_stageDocuments (fun f _ => sameDurable_inSession s f) docs
  have hstaging := hkeeps _ hsame
  rcases Program.bind_cases (stageDocuments env docs) _ (purgedStore mode s) with
    ⟨e', u, hu, hs⟩ | ⟨_, u, hu, hs⟩
  · cases hs.symm.trans h
    rw [hu] at hstaging
    obtain ⟨position, request, hrequest, hrefused⟩ := profileRefused_of_stageDocuments hu
    exact ⟨fun _ => hstaging.unchanged, fun _ _ => .staging hparse hpurge hrequest hrefused⟩
  · rw [hu] at hstaging
    obtain rfl : u = stagedStore env docs (purgedStore mode s) := stageDocuments_ok hu
    obtain ⟨hsufficient, hnecessary⟩ := unchanged_schedules hstaging (hs.symm.trans h)
    refine ⟨fun hraises => hsufficient ?_, fun hclock hunchanged => ?_⟩
    · cases hraises with
      | parsing hfails => cases hparse.symm.trans hfails
      | purging hmode hfails => exact absurd hfails (hkept hmode)
      | staging hparse' _ hrequest hrefused =>
          cases hparse.symm.trans hparse'
          exact absurd hu (stageDocuments_refused hrequest hrefused _ _)
      | noSchedules hparse' _ hnil =>
          cases hparse.symm.trans hparse'
          exact Or.inl hnil
      | firstSchedule hparse' _ hcons hrejected =>
          cases hparse.symm.trans hparse'
          exact Or.inr ⟨_, _, hcons, hrejected⟩
    · rcases hnecessary hclock hunchanged with hnil | ⟨request, rest, hcons, hrejected⟩
      · exact .noSchedules hparse hpurge hnil
      · exact .firstSchedule hparse hpurge hcons hrejected

theorem sameDurable_purgedStore (mode : Mode) (s : Store) : SameDurable s (purgedStore mode s) := by
  cases mode <;> exact ⟨rfl, rfl⟩

/-- Schedules that the bulk deletes have deleted are moved. -/
theorem exists_moved (hrest : s.AtRest) (hkeys : s.session.schedules.keys ≠ [])
    (hcommitted : t.committed.schedules = ∅) (hsession : t.session.schedules = ∅) :
    ∃ id, Moved s id t := by
  obtain ⟨id, hid⟩ := List.exists_mem_of_ne_nil _ hkeys
  have hisSome : (s.committed.schedules.lookup id).isSome = true := by
    rw [← hrest]
    exact AList.lookup_isSome.mpr hid
  have hdiffers : ∀ db : Database, db.schedules = ∅ → Differs s id db := by
    intro db hdb
    unfold Differs
    rw [hdb, AList.lookup_empty]
    exact hisSome
  exact ⟨id, hdiffers _ hcommitted, hdiffers _ hsession⟩

/-- **Config import.** An import that raises before anything has been written leaves the database and
the stored payloads as they were, and, from a session without open changes and with a clock that has
moved on, no other import that raises does. -/
theorem importConfigFromYaml_unchanged_iff {yamlText : Text} {mode : Mode} {e : Error}
    (h : importConfigFromYaml lib settings cron adapter env yamlText mode s = (.error e, t)) :
    (RaisesBeforeWriting lib settings cron adapter env yamlText mode s → Unchanged s t) ∧
    (s.AtRest → ClockAhead env s →
      (Unchanged s t ↔ RaisesBeforeWriting lib settings cron adapter env yamlText mode s)) := by
  suffices hboth : (RaisesBeforeWriting lib settings cron adapter env yamlText mode s →
      Unchanged s t) ∧ (s.AtRest → ClockAhead env s → Unchanged s t →
        RaisesBeforeWriting lib settings cron adapter env yamlText mode s) from
    ⟨hboth.1, fun hrest hclock => ⟨hboth.2 hrest hclock, hboth.1⟩⟩
  simp only [importConfigFromYaml, Program.ofExcept_bind] at h
  cases hparse : parseDocuments lib yamlText with
  | error e' =>
      rw [hparse] at h
      cases h
      exact ⟨fun _ => SameDurable.unchanged ⟨rfl, rfl⟩, fun _ _ _ => .parsing hparse⟩
  | ok docs =>
      rw [hparse] at h
      cases mode with
      | merge =>
          obtain ⟨hsufficient, hnecessary⟩ := unchanged_of_sameDurable hparse (Or.inl rfl) nofun
            (sameDurable_purgedStore .merge s) h
          exact ⟨hsufficient, fun _ => hnecessary⟩
      | replace =>
          rcases Program.bind_cases (purge env) _ s with ⟨e', u, hu, hs⟩ | ⟨_, u, hu, hs⟩
          · cases hs.symm.trans h
            cases purgeOutcome hu with
            | fails hfails hsame => exact ⟨fun _ => hsame.unchanged, fun _ _ _ => .purging rfl hfails⟩
          · have hafter := hs.symm.trans h
            cases purgeOutcome hu with
            | empty hworks hempty =>
                obtain ⟨hsufficient, hnecessary⟩ := unchanged_of_sameDurable hparse (Or.inr hempty)
                  (fun _ => hworks) (sameDurable_purgedStore .replace s) hafter
                exact ⟨hsufficient, fun _ => hnecessary⟩
            | deleted hworks hkeys hcommitted hsession =>
                refine ⟨fun hraises => ?_, fun hrest hclock hunchanged => ?_⟩
                · cases hraises with
                  | parsing hfails => cases hparse.symm.trans hfails
                  | purging _ hfails => exact absurd hfails hworks
                  | staging _ hpurge | noSchedules _ hpurge | firstSchedule _ hpurge =>
                      exact absurd (hpurge.resolve_left nofun) hkeys
                · obtain ⟨id, hmoved⟩ := exists_moved hrest hkeys hcommitted hsession
                  have hkeeps : Program.Keeps (stageDocuments env docs >>= fun _ =>
                      Program.forEach (upsertSchedule settings cron adapter env) 0
                        docs.scheduledRuns >>= fun _ => commit env) (Moved s id) := by
                    refine Program.Keeps.bind (keeps_stageDocuments
                      (fun f hf => moved_inSession s id hf) docs) fun _ => ?_
                    exact Program.Keeps.bind (Program.keeps_forEach
                      (keeps_upsertSchedule hclock id) 0 _) fun _ => keeps_commit id
                  have hlast := hkeeps u hmoved
                  rw [hafter] at hlast
                  exact absurd hunchanged hlast.not_unchanged

end Phases

/-- A document of kind `ScheduledRun`, as text and as it is loaded. -/
def scheduleText (name cronExpression : Text) : Text :=
  "---\nkind: ScheduledRun\nname: ".toList ++ name ++ "\ncron_expression: '".toList ++
    cronExpression ++ "'\npipeline_data: 'stages: []'\n".toList

def scheduleDocument (name cronExpression : Text) : Json :=
  .obj [("kind".toList, .str "ScheduledRun".toList), ("name".toList, .str name),
    ("cron_expression".toList, .str cronExpression),
    ("pipeline_data".toList, .str "stages: []".toList)]

def importText (documents : List (Text × Text)) : Text :=
  documents.flatMap fun document => scheduleText document.1 document.2

/-- The libraries as they treat one text of such documents. -/
def scheduleLibrary (documents : List (Text × Text)) : Library where
  gitLabCiLoad yamlText :=
    if yamlText = importText documents then
      .ok (documents.map fun document => scheduleDocument document.1 document.2)
    else .error .other
  safeLoad _ := .error .other
  coerceProfile _ := none
  coerceSimpleTemplate _ := none
  coerceSchedule payload :=
    match Json.get payload "name".toList, Json.get payload "cron_expression".toList,
      Json.get payload "pipeline_data".toList with
    | some (.str name), some (.str cronExpression), some (.str pipelineData) =>
        some { name, cronExpression, pipelineData }
    | _, _, _ => none
  resourcesValid _ := true
  fromDocument _ := none

/-- No failures, and a new id for each call. -/
def sampleEnv : Env where
  fails _ := false
  purge := quietEnv
  call position := { quietEnv with newId := BitVec.ofNat 128 (position + 1) }
  profileNow _ := 0
  now := 0
  dbNow := 0
  simpleId := BitVec.ofNat 128
  declarativeId := BitVec.ofNat 128

def importSample (documents : List (Text × Text)) : Except Error Unit × Store :=
  importConfigFromYaml (scheduleLibrary documents) {} everyMinute noAdapter sampleEnv
    (importText documents) .merge sampleStore

/-- The invalid document of the test. -/
def badDocument : Text × Text := ("hourly".toList, "0 * *".toList)

def goodDocument : Text × Text := ("nightly".toList, "* * * * *".toList)

/-- The store after an import of the valid document. -/
def nightlyStore : Store := (importSample [goodDocument]).2

def laterEnv : Env :=
  { sampleEnv with call := fun position => { sampleEnv.call position with stampedAt := 3600 } }

def importLater : Except Error Unit × Store :=
  importConfigFromYaml (scheduleLibrary [badDocument]) {} everyMinute noAdapter laterEnv
    (importText [badDocument]) .merge nightlyStore

set_option maxRecDepth 2000 in
theorem importLater_eq : importLater =
    (.error (.schedule (.cron (.fieldCount 3 "0 * *".toList))), nightlyStore) := rfl

set_option maxRecDepth 2000 in
theorem clockAhead_nightlyStore : ClockAhead laterEnv nightlyStore := by
  intro position id row hrow
  have hrows : ∀ x ∈ nightlyStore.committed.schedules.entries, x.2.updatedAt = 0 := by decide
  have hupdated : row.updatedAt = 0 := hrows _ (AList.mem_lookup_iff.mp hrow)
  have hlater : (0 : Instant) < 3600 := by decide
  exact hupdated ▸ hlater

set_option maxRecDepth 2000 in
/-- A single document with an invalid cron expression leaves everything as it was, the schedule that
was there included. -/
theorem importSample_bad_unchanged : Unchanged nightlyStore importLater.2 := by
  rw [importLater_eq]
  have hrest : nightlyStore.AtRest := rfl
  refine ((importConfigFromYaml_unchanged_iff importLater_eq).2 hrest clockAhead_nightlyStore).mpr ?_
  have hrejected : FirstRejected {} everyMinute noAdapter laterEnv
      { name := "hourly".toList, cronExpression := "0 * *".toList
        pipelineData := "stages: []".toList } nightlyStore :=
    .checks (e := .schedule (.cron (.fieldCount 3 "0 * *".toList))) rfl
  exact .firstSchedule rfl (Or.inl rfl) rfl hrejected

set_option maxRecDepth 2000 in
/-- The same document after a valid one: the import raises, and the valid schedule stays. -/
theorem importSample_good_bad :
    (importSample [goodDocument, badDocument]).1 =
        .error (.schedule (.cron (.fieldCount 3 "0 * *".toList))) ∧
      ¬Unchanged sampleStore (importSample [goodDocument, badDocument]).2 := by
  refine ⟨rfl, fun h => ?_⟩
  have hcreated :
      ((importSample [goodDocument, badDocument]).2.committed.schedules.lookup 1).isSome = true := rfl
  rw [h.schedules 1] at hcreated
  cases hcreated

end PdeOperator.ConfigImport
