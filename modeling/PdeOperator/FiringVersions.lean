import PdeOperator.FiringClaims

/-! The parameters of a fired run: the row and the stored payload of a schedule are two halves of one
accepted request as long as its writes come one at a time, are carried through, and keep away from
a fire that is between its two reads. -/

namespace PdeOperator.Firing
open Base

/-- The row of a schedule as `_apply_request` fills it from an accepted request. -/
structure RowOf (version : CreateRunRequest) (row : ScheduledRun) : Prop where
  profileId : row.profileId = version.profileId
  pdeImage : row.pdeImage = ScheduleService.normalizeImage version.pdeImage
  envVars : row.envVars = version.envVars

/-- All parameters of a run request come from one accepted request. -/
structure UsesVersion (version request : CreateRunRequest) : Prop where
  profileId : request.profileId = version.profileId
  pdeImage : request.pdeImage = ScheduleService.normalizeImage version.pdeImage
  envVars : request.envVars = version.envVars
  payload : RunInputPayload.fromCreateRequest request = RunInputPayload.fromCreateRequest version

theorem RowOf.of_same {version : CreateRunRequest} {row row' : ScheduledRun}
    (h : RowOf version row) (hsame : SameParams row row') : RowOf version row' :=
  ⟨hsame.profileId.trans h.profileId, hsame.pdeImage.trans h.pdeImage,
    hsame.envVars.trans h.envVars⟩

namespace World

variable (w : World)

/-- The row and the payload of a schedule come from one accepted request. -/
def Version (id : Uuid) (row : ScheduledRun) (payload : RunInputPayload) : Prop :=
  ∃ version, (id, version) ∈ w.accepted ∧ RowOf version row ∧
    payload = RunInputPayload.fromCreateRequest version

/-- A run request takes all its parameters from one accepted request. -/
def Fits (id : Uuid) (request : CreateRunRequest) : Prop :=
  ∃ version, (id, version) ∈ w.accepted ∧ UsesVersion version request

theorem Version.fits {w : World} {id : Uuid} {row : ScheduledRun} {payload : RunInputPayload}
    (h : w.Version id row payload) : w.Fits id (ScheduleService.fireRequest row payload) := by
  obtain ⟨version, hmem, hrow, rfl⟩ := h
  exact ⟨version, hmem, hrow.profileId, hrow.pdeImage, hrow.envVars, rfl⟩

end World

/-- Every run that a fire commits takes its parameters from one accepted request. -/
def UsesOneVersion (w : World) (a : Act) : Prop :=
  ∀ origin id new, inserts w a = some (origin, id, new) → w.Fits id new.request

inductive Role where
  /-- The payload is stored and the row, which an update has read before, is to be committed. -/
  | stores (id : Uuid) (version : CreateRunRequest) (read : Option ScheduledRun)
  /-- A fire has read the row and is going to load the payload. -/
  | reads (id : Uuid) (row : ScheduledRun)
  /-- A fire has made its request and is going to commit the run. -/
  | requests (id : Uuid) (request : CreateRunRequest)

def Call.role : Call → Option Role
  | .updating id _ row (.stored version) => some (.stores id version (some row))
  | .creating id _ version true => some (.stores id version none)
  | .fire _ id row .read => some (.reads id row)
  | .fire _ id _ (.loaded request) => some (.requests id request)
  | .fire _ id _ (.added new) => some (.requests id new.request)
  | .fire _ id _ (.recording _ _ _ _ (some new)) => some (.requests id new.request)
  | _ => none

namespace World

variable (w : World)

def role (c : Nat) : Option Role := (w.calls c).bind Call.role

/-- A write of the schedule is between its two halves. -/
def Storing (id : Uuid) : Prop := ∃ c version read, w.role c = some (.stores id version read)

/-- A fire of the schedule is between its two reads. -/
def Reading (id : Uuid) : Prop := ∃ c row, w.role c = some (.reads id row)

end World

/-- The columns that an update is not going to write have the values that it read. -/
structure Keeps (version : CreateRunRequest) (read current : ScheduledRun) : Prop where
  profileId : read.profileId = version.profileId → current.profileId = read.profileId
  pdeImage : read.pdeImage = ScheduleService.normalizeImage version.pdeImage →
    current.pdeImage = read.pdeImage
  envVars : read.envVars = version.envVars → current.envVars = read.envVars

/-- Writes of a schedule come one at a time and are carried through; none of them stores its payload
while a fire is between its reads, and no fire reads the row while one has stored its payload only. -/
def OneAtATime (w : World) : Act → Prop
  | .fireRead c => ∀ now id todo, w.calls c = some (.firing now (id :: todo)) → ¬w.Storing id
  | .triggerRead _ id _ => ¬w.Storing id
  | .updateStore c => ∀ id request row version,
      w.calls c = some (.updating id request row (.loaded version)) →
      ¬w.Storing id ∧ ¬w.Reading id ∧
        ∀ current, w.schedules.lookup id = some current → Keeps version row current
  | .createStore c => ∀ id request version,
      w.calls c = some (.creating id request version false) → ¬w.Storing id ∧ ¬w.Reading id
  | .crash c => ∀ id version read, w.role c ≠ some (.stores id version read)
  | _ => True

/-- The two halves of every schedule belong together, except between the two halves of a write. -/
structure Versioned (w : World) : Prop where
  unique : ∀ {c c' id version version' read read'}, w.role c = some (.stores id version read) →
    w.role c' = some (.stores id version' read') → c = c'
  apart : ∀ {id}, w.Storing id → ¬w.Reading id
  settled : ∀ {id row payload}, w.schedules.lookup id = some row →
    w.inputs.lookup id = some payload → ¬w.Storing id → w.Version id row payload
  stored : ∀ {c id version read payload}, w.role c = some (.stores id version read) →
    w.inputs.lookup id = some payload → payload = RunInputPayload.fromCreateRequest version
  keeps : ∀ {c id version read current}, w.role c = some (.stores id version (some read)) →
    w.schedules.lookup id = some current → Keeps version read current
  reading : ∀ {c id row payload}, w.role c = some (.reads id row) →
    w.inputs.lookup id = some payload → w.Version id row payload
  requested : ∀ {c id request}, w.role c = some (.requests id request) → w.Fits id request

/-! ### What a step makes of the two halves -/

/-- The role of a call after a step that neither stores a payload nor commits a row with new
parameters. -/
inductive NewRole (w : World) (c : Nat) : Option Role → Prop where
  | kept : NewRole w c (w.role c)
  | ended (hfree : ∀ id version read, w.role c ≠ some (.stores id version read)) : NewRole w c none
  | read {id row} (hfree : w.role c = none) (hrow : w.schedules.lookup id = some row)
      (hstoring : ¬w.Storing id) : NewRole w c (some (.reads id row))
  | loaded {id row payload} (hrole : w.role c = some (.reads id row))
      (hpayload : w.inputs.lookup id = some payload) :
      NewRole w c (some (.requests id (ScheduleService.fireRequest row payload)))

/-- A step stores a payload, commits a row that belongs to a stored payload, or does neither. -/
inductive Move (w w' : World) : Prop where
  | stored {c id version read} (hrole : w.role c = none)
      (hroles : w'.role = Function.update w.role c (some (.stores id version read)))
      (hinputs : w'.inputs = w.inputs.insert id (RunInputPayload.fromCreateRequest version))
      (hrows : w'.schedules = w.schedules) (haccepted : w'.accepted = w.accepted)
      (hstoring : ¬w.Storing id) (hreading : ¬w.Reading id)
      (hkeeps : ∀ row current, read = some row → w.schedules.lookup id = some current →
        Keeps version row current)
  | committed {c id version read} (hrole : w.role c = some (.stores id version read))
      (hroles : w'.role = Function.update w.role c none) (hinputs : w'.inputs = w.inputs)
      (hothers : ∀ key, key ≠ id → w'.schedules.lookup key = w.schedules.lookup key)
      (hrow : ∀ row', w'.schedules.lookup id = some row' → RowOf version row')
      (haccepted : w'.accepted = (id, version) :: w.accepted)
  | other
      (hinputs : ∀ id payload, w'.inputs.lookup id = some payload →
        w.inputs.lookup id = some payload)
      (hrows : ∀ id row', w'.schedules.lookup id = some row' →
        ∃ row, w.schedules.lookup id = some row ∧ SameParams row row')
      (haccepted : w'.accepted = w.accepted)
      (hroles : ∀ c, NewRole w c (w'.role c))

section Invariant

variable {w w' : World}

theorem World.Version.mono {id : Uuid} {row : ScheduledRun} {payload : RunInputPayload}
    (h : w.Version id row payload) (haccepted : w.accepted ⊆ w'.accepted) :
    w'.Version id row payload := by
  obtain ⟨version, hmem, hrow, hpayload⟩ := h
  exact ⟨version, haccepted hmem, hrow, hpayload⟩

theorem World.Fits.mono {id : Uuid} {request : CreateRunRequest} (h : w.Fits id request)
    (haccepted : w.accepted ⊆ w'.accepted) : w'.Fits id request := by
  obtain ⟨version, hmem, huses⟩ := h
  exact ⟨version, haccepted hmem, huses⟩

/-- The role of a call after a step that gives one call a new role. -/
theorem role_update {roles : Nat → Option Role} {c c' : Nat} {new : Option Role} {role : Role}
    (h : Function.update roles c new c' = some role) :
    (c' = c ∧ new = some role) ∨ (c' ≠ c ∧ roles c' = some role) := by
  by_cases hc : c' = c
  · subst hc
    rw [Function.update_self] at h
    exact Or.inl ⟨rfl, h⟩
  · rw [Function.update_of_ne hc] at h
    exact Or.inr ⟨hc, h⟩

/-- What a call writes after a step that lets one call begin a write: its own write, or one from before,
of another schedule. -/
theorem stores_of_update {c c' : Nat} {id key : Uuid} {version version' : CreateRunRequest}
    {read read' : Option ScheduledRun}
    (hroles : w'.role = Function.update w.role c (some (.stores id version read)))
    (hstoring : ¬w.Storing id) (h : w'.role c' = some (.stores key version' read')) :
    (c' = c ∧ key = id ∧ version' = version ∧ read' = read) ∨
      (key ≠ id ∧ w.role c' = some (.stores key version' read')) := by
  rw [hroles] at h
  rcases role_update h with ⟨hc, hnew⟩ | ⟨-, hold⟩
  · cases hnew
    exact Or.inl ⟨hc, rfl, rfl, rfl⟩
  · refine Or.inr ⟨?_, hold⟩
    rintro rfl
    exact hstoring ⟨_, _, _, hold⟩

/-- The roles other than writes are those from before. -/
theorem role_of_update {c c' : Nat} {id : Uuid} {version : CreateRunRequest} {read : Option ScheduledRun}
    {role : Role} (hroles : w'.role = Function.update w.role c (some (.stores id version read)))
    (h : w'.role c' = some role) (hother : role ≠ .stores id version read) : w.role c' = some role := by
  rw [hroles] at h
  rcases role_update h with ⟨-, hnew⟩ | ⟨-, hold⟩
  · exact absurd (Option.some.inj hnew).symm hother
  · exact hold

theorem versioned_stored (hinv : Versioned w) {c : Nat} {id : Uuid} {version : CreateRunRequest}
    {read : Option ScheduledRun} (hrole : w.role c = none)
    (hroles : w'.role = Function.update w.role c (some (.stores id version read)))
    (hinputs : w'.inputs = w.inputs.insert id (RunInputPayload.fromCreateRequest version))
    (hrows : w'.schedules = w.schedules) (haccepted : w'.accepted = w.accepted)
    (hstoring : ¬w.Storing id) (hreading : ¬w.Reading id)
    (hkeeps : ∀ row current, read = some row → w.schedules.lookup id = some current →
      Keeps version row current) : Versioned w' := by
  have hgrow : w.accepted ⊆ w'.accepted := by
    rw [haccepted]
    exact List.Subset.refl _
  have hself : w'.Storing id := ⟨c, version, read, by rw [hroles, Function.update_self]⟩
  have hkept : ∀ {key}, w.Storing key → w'.Storing key := by
    rintro key ⟨c', version', read', hc'⟩
    have hne : c' ≠ c := by
      rintro rfl
      rw [hrole] at hc'
      cases hc'
    exact ⟨c', version', read', by rw [hroles, Function.update_of_ne hne]; exact hc'⟩
  have hother : ∀ {key}, key ≠ id → w'.inputs.lookup key = w.inputs.lookup key := by
    intro key hne
    rw [hinputs, AList.lookup_insert_ne hne]
  constructor
  case unique =>
    intro c₁ c₂ key version₁ version₂ read₁ read₂ h₁ h₂
    rcases stores_of_update hroles hstoring h₁ with ⟨rfl, rfl, -, -⟩ | ⟨hne₁, hold₁⟩
    · rcases stores_of_update hroles hstoring h₂ with ⟨rfl, -⟩ | ⟨hne₂, -⟩
      · rfl
      · exact absurd rfl hne₂
    · rcases stores_of_update hroles hstoring h₂ with ⟨-, hkey, -⟩ | ⟨-, hold₂⟩
      · exact absurd hkey hne₁
      · exact hinv.unique hold₁ hold₂
  case apart =>
    rintro key ⟨c₁, version₁, read₁, h₁⟩ ⟨c₂, row, h₂⟩
    have hold₂ := role_of_update hroles h₂ nofun
    rcases stores_of_update hroles hstoring h₁ with ⟨-, rfl, -⟩ | ⟨-, hold₁⟩
    · exact hreading ⟨_, _, hold₂⟩
    · exact hinv.apart ⟨_, _, _, hold₁⟩ ⟨_, _, hold₂⟩
  case settled =>
    intro key row payload hrow hpayload hfree
    have hne : key ≠ id := by
      rintro rfl
      exact hfree hself
    rw [hrows] at hrow
    rw [hother hne] at hpayload
    exact (hinv.settled hrow hpayload fun hold => hfree (hkept hold)).mono hgrow
  case stored =>
    intro c₁ key version₁ read₁ payload h₁ hpayload
    rcases stores_of_update hroles hstoring h₁ with ⟨-, rfl, rfl, -⟩ | ⟨hne, hold⟩
    · rw [hinputs, AList.lookup_insert, Option.some.injEq] at hpayload
      exact hpayload.symm
    · rw [hother hne] at hpayload
      exact hinv.stored hold hpayload
  case keeps =>
    intro c₁ key version₁ read₁ current h₁ hcurrent
    rw [hrows] at hcurrent
    rcases stores_of_update hroles hstoring h₁ with ⟨-, rfl, rfl, hread⟩ | ⟨-, hold⟩
    · exact hkeeps _ _ hread.symm hcurrent
    · exact hinv.keeps hold hcurrent
  case reading =>
    intro c₁ key row payload h₁ hpayload
    have hold := role_of_update hroles h₁ nofun
    have hne : key ≠ id := by
      rintro rfl
      exact hreading ⟨_, _, hold⟩
    rw [hother hne] at hpayload
    exact (hinv.reading hold hpayload).mono hgrow
  case requested =>
    intro c₁ key request h₁
    exact (hinv.requested (role_of_update hroles h₁ nofun)).mono hgrow

theorem versioned_committed (hinv : Versioned w) {c : Nat} {id : Uuid} {version : CreateRunRequest}
    {read : Option ScheduledRun} (hrole : w.role c = some (.stores id version read))
    (hroles : w'.role = Function.update w.role c none) (hinputs : w'.inputs = w.inputs)
    (hothers : ∀ key, key ≠ id → w'.schedules.lookup key = w.schedules.lookup key)
    (hrow : ∀ row', w'.schedules.lookup id = some row' → RowOf version row')
    (haccepted : w'.accepted = (id, version) :: w.accepted) : Versioned w' := by
  have hgrow : w.accepted ⊆ w'.accepted := by
    rw [haccepted]
    exact List.subset_cons_self _ _
  have hold : ∀ {c' role}, w'.role c' = some role → c' ≠ c ∧ w.role c' = some role := by
    intro c' role h
    rw [hroles] at h
    rcases role_update h with ⟨-, hnew⟩ | hother
    · cases hnew
    · exact hother
  constructor
  case unique =>
    intro c₁ c₂ key version₁ version₂ read₁ read₂ h₁ h₂
    exact hinv.unique (hold h₁).2 (hold h₂).2
  case apart =>
    rintro key ⟨c₁, version₁, read₁, h₁⟩ ⟨c₂, row, h₂⟩
    exact hinv.apart ⟨_, _, _, (hold h₁).2⟩ ⟨_, _, (hold h₂).2⟩
  case settled =>
    intro key row payload hlookup hpayload hfree
    rw [hinputs] at hpayload
    by_cases hkey : key = id
    · subst hkey
      refine ⟨version, ?_, hrow row hlookup, hinv.stored hrole hpayload⟩
      rw [haccepted]
      exact List.mem_cons_self
    · rw [hothers key hkey] at hlookup
      refine (hinv.settled hlookup hpayload ?_).mono hgrow
      rintro ⟨c', version', read', hc'⟩
      have hne : c' ≠ c := by
        rintro rfl
        rw [hrole] at hc'
        cases hc'
        exact hkey rfl
      exact hfree ⟨c', version', read', by rw [hroles, Function.update_of_ne hne]; exact hc'⟩
  case stored =>
    intro c₁ key version₁ read₁ payload h₁ hpayload
    rw [hinputs] at hpayload
    exact hinv.stored (hold h₁).2 hpayload
  case keeps =>
    intro c₁ key version₁ read₁ current h₁ hcurrent
    have hne : key ≠ id := by
      rintro rfl
      exact (hold h₁).1 (hinv.unique (hold h₁).2 hrole)
    rw [hothers key hne] at hcurrent
    exact hinv.keeps (hold h₁).2 hcurrent
  case reading =>
    intro c₁ key row payload h₁ hpayload
    rw [hinputs] at hpayload
    exact (hinv.reading (hold h₁).2 hpayload).mono hgrow
  case requested =>
    intro c₁ key request h₁
    exact (hinv.requested (hold h₁).2).mono hgrow

/-- A call that is between the two halves of a write was there before. -/
theorem NewRole.stores {c : Nat} {role : Option Role} (h : NewRole w c role) {id : Uuid}
    {version : CreateRunRequest} {read : Option ScheduledRun}
    (hrole : role = some (.stores id version read)) : w.role c = some (.stores id version read) := by
  cases h with
  | kept => exact hrole
  | _ => cases hrole

theorem NewRole.keeps_stores {c : Nat} {role : Option Role} (h : NewRole w c role) {id : Uuid}
    {version : CreateRunRequest} {read : Option ScheduledRun}
    (hrole : w.role c = some (.stores id version read)) : role = some (.stores id version read) := by
  cases h with
  | kept => exact hrole
  | ended hfree => exact absurd hrole (hfree _ _ _)
  | read hfree hrow hstoring =>
      rw [hfree] at hrole
      cases hrole
  | loaded hreads hpayload =>
      rw [hreads] at hrole
      cases hrole

theorem versioned_other (hinv : Versioned w)
    (hinputs : ∀ id payload, w'.inputs.lookup id = some payload →
      w.inputs.lookup id = some payload)
    (hrows : ∀ id row', w'.schedules.lookup id = some row' →
      ∃ row, w.schedules.lookup id = some row ∧ SameParams row row')
    (haccepted : w'.accepted = w.accepted) (hroles : ∀ c, NewRole w c (w'.role c)) :
    Versioned w' := by
  have hgrow : w.accepted ⊆ w'.accepted := by
    rw [haccepted]
    exact List.Subset.refl _
  have hstoring : ∀ {id}, w'.Storing id → w.Storing id := by
    rintro id ⟨c, version, read, h⟩
    exact ⟨c, version, read, (hroles c).stores h⟩
  have hstoring' : ∀ {id}, w.Storing id → w'.Storing id := by
    rintro id ⟨c, version, read, h⟩
    exact ⟨c, version, read, (hroles c).keeps_stores h⟩
  constructor
  case unique =>
    intro c₁ c₂ key version₁ version₂ read₁ read₂ h₁ h₂
    exact hinv.unique ((hroles c₁).stores h₁) ((hroles c₂).stores h₂)
  case apart =>
    rintro key hwrite ⟨c, row, hc⟩
    have hnew := hroles c
    rw [hc] at hnew
    generalize hrole : some (Role.reads key row) = role at hnew
    cases hnew with
    | kept => exact hinv.apart (hstoring hwrite) ⟨c, row, hrole.symm⟩
    | ended hfree => cases hrole
    | read hfree hrow hfreeKey =>
        cases hrole
        exact hfreeKey (hstoring hwrite)
    | loaded hreads hpayload => cases hrole
  case settled =>
    intro key row' payload hrow' hpayload hfree
    obtain ⟨row, hrow, hsame⟩ := hrows key row' hrow'
    obtain ⟨version, hmem, hof, hversion⟩ := hinv.settled hrow (hinputs key payload hpayload)
      fun hold => hfree (hstoring' hold)
    exact ⟨version, hgrow hmem, hof.of_same hsame, hversion⟩
  case stored =>
    intro c key version read payload hc hpayload
    exact hinv.stored ((hroles c).stores hc) (hinputs key payload hpayload)
  case keeps =>
    intro c key version read current' hc hcurrent'
    obtain ⟨current, hcurrent, hsame⟩ := hrows key current' hcurrent'
    have hkeeps := hinv.keeps ((hroles c).stores hc) hcurrent
    exact ⟨fun h => hsame.profileId.trans (hkeeps.profileId h),
      fun h => hsame.pdeImage.trans (hkeeps.pdeImage h),
      fun h => hsame.envVars.trans (hkeeps.envVars h)⟩
  case reading =>
    intro c key row payload hc hpayload
    have hnew := hroles c
    rw [hc] at hnew
    generalize hrole : some (Role.reads key row) = role at hnew
    cases hnew with
    | kept => exact (hinv.reading hrole.symm (hinputs key payload hpayload)).mono hgrow
    | ended hfree => cases hrole
    | read hfree hrow hfreeKey =>
        cases hrole
        exact (hinv.settled hrow (hinputs key payload hpayload) hfreeKey).mono hgrow
    | loaded hreads hpayload => cases hrole
  case requested =>
    intro c key request hc
    have hnew := hroles c
    rw [hc] at hnew
    generalize hrole : some (Role.requests key request) = role at hnew
    cases hnew with
    | kept => exact (hinv.requested hrole.symm).mono hgrow
    | ended hfree => cases hrole
    | read hfree hrow hfreeKey => cases hrole
    | loaded hreads hpayload =>
        cases hrole
        exact (hinv.reading hreads hpayload).fits.mono hgrow

theorem versioned_move (hinv : Versioned w) (h : Move w w') : Versioned w' := by
  cases h with
  | stored hrole hroles hinputs hrows haccepted hstoring hreading hkeeps =>
      exact versioned_stored hinv hrole hroles hinputs hrows haccepted hstoring hreading hkeeps
  | committed hrole hroles hinputs hothers hrow haccepted =>
      exact versioned_committed hinv hrole hroles hinputs hothers hrow haccepted
  | other hinputs hrows haccepted hroles =>
      exact versioned_other hinv hinputs hrows haccepted hroles

end Invariant

section Step

variable {settings : Settings} {cron : CronLibrary}
  {declarative : Uuid → JsonObject → Except ScheduleService.Error CreateRunRequest}
  {w w' : World} {a : Act}

theorem role_of_calls {c : Nat} {move : Option Call} {role : Option Role}
    (hcalls : w'.calls = Function.update w.calls c move) (hrole : move.bind Call.role = role) :
    w'.role = Function.update w.role c role := by
  subst hrole
  funext c'
  unfold World.role
  rw [hcalls]
  by_cases hc : c' = c
  · subst hc
    rw [Function.update_self, Function.update_self]
  · rw [Function.update_of_ne hc, Function.update_of_ne hc]

theorem role_of_call {c : Nat} {call : Option Call} (hcall : w.calls c = call) :
    w.role c = call.bind Call.role := by
  rw [World.role, hcall]

/-- The acts that write the run parameters of a row. -/
def Act.writesParams : Act → Bool
  | .updateCommit .. | .createCommit .. => true
  | _ => false

theorem sameParams_of_step (h : Step settings cron w a w') (ha : a.writesParams = false) (id : Uuid)
    (row' : ScheduledRun) (hrow' : w'.schedules.lookup id = some row') :
    ∃ row, w.schedules.lookup id = some row ∧ SameParams row row' := by
  have hedit := edit_of_step h id
  rw [hrow'] at hedit
  generalize hafter : some row' = after at hedit
  cases hedit with
  | same => exact ⟨row', hafter.symm, SameParams.rfl⟩
  | claimed hclaim hdue =>
      cases hafter
      exact ⟨_, (ScheduleDispatcher.mem_selectDue hdue).1, sameParams_claimRow _ _ _⟩
  | recorded hrow hparams henabled =>
      cases hafter
      exact ⟨_, hrow, hparams⟩
  | updated hupdate hcall hwork hrow =>
      subst hupdate
      cases ha
  | enabled henable hcall hwork hrow =>
      cases hafter
      exact ⟨_, hrow, (setEnabledRow_ok hwork).1.writeBack⟩
  | deleted hdelete hcall => cases hafter
  | created hcreate hcall hrow' hrow =>
      subst hcreate
      cases ha

/-- A step that moves one call and touches neither payloads nor requests. -/
theorem Move.of_calls (h : Step settings cron w a w') (ha : a.writesParams = false) {c : Nat}
    {move : Option Call} (hcalls : w'.calls = Function.update w.calls c move)
    (hinputs : w'.inputs = w.inputs) (haccepted : w'.accepted = w.accepted)
    (hnew : NewRole w c (move.bind Call.role)) : Move w w' := by
  refine .other (fun id payload hpayload => ?_) (sameParams_of_step h ha) haccepted fun c' => ?_
  · rw [hinputs] at hpayload
    exact hpayload
  · rw [role_of_calls hcalls rfl]
    by_cases hc : c' = c
    · subst hc
      rw [Function.update_self]
      exact hnew
    · rw [Function.update_of_ne hc]
      exact .kept

/-- A call that held nothing of a write ends its role. -/
theorem NewRole.of_call {c : Nat} {call : Option Call} (hcall : w.calls c = call)
    (hfree : ∀ id version read, call.bind Call.role ≠ some (.stores id version read)) :
    NewRole w c none := by
  refine .ended fun id version read hrole => hfree id version read ?_
  rw [← role_of_call hcall]
  exact hrole

theorem NewRole.of_same {c : Nat} {call : Option Call} {role : Option Role}
    (hcall : w.calls c = call) (hrole : role = call.bind Call.role) : NewRole w c role := by
  rw [hrole, ← role_of_call hcall]
  exact .kept

/-- A fire that fails gives its request up, or keeps it in its session. -/
theorem role_of_failedStage {error : Text} {keepsRun : Bool} {stage stage' : FireStage}
    (h : failedStage settings error keepsRun stage = some stage') (origin : Origin) (id : Uuid)
    (row : ScheduledRun) :
    (Call.fire origin id row stage').role = none ∨
      (Call.fire origin id row stage').role = (Call.fire origin id row stage).role := by
  cases stage with
  | read =>
      cases h
      exact Or.inl rfl
  | loaded request =>
      cases h
      exact Or.inl rfl
  | added new =>
      simp only [failedStage] at h
      split at h
      · split at h
        · cases h
          exact Or.inr rfl
        · cases h
          exact Or.inl rfl
      · cases h
  | recording rolledBack status runId error' pending =>
      cases status <;> cases h
      exact Or.inl rfl

theorem fire_role_ne_stores {origin : Origin} {key : Uuid} {row : ScheduledRun} {stage : FireStage}
    (id : Uuid) (version : CreateRunRequest) (read : Option ScheduledRun) :
    (some (Call.fire origin key row stage)).bind Call.role ≠ some (.stores id version read) := by
  intro h
  cases stage with
  | recording rolledBack status runId error pending => cases pending <;> cases h
  | _ => cases h

theorem rowOf_updateRow {request : UpdateScheduledRunRequest} {version : CreateRunRequest}
    {stamp now : Instant} {row work : ScheduledRun}
    (h : ScheduleService.updateRow cron request version stamp now row = .ok work) :
    RowOf version work := by
  have happlied : RowOf version
      (ScheduleService.applyRequest request.toScheduledRunBase version row) := ⟨rfl, rfl, rfl⟩
  exact happlied.of_same (updateRow_ok h).2

theorem RowOf.writeBack {version : CreateRunRequest} {read work current : ScheduledRun}
    (hwork : RowOf version work) (hkeeps : Keeps version read current) :
    RowOf version (writeBack read work current) := by
  obtain ⟨hprofile, himage, henv⟩ := hwork
  refine ⟨?_, ?_, ?_⟩
  · rw [ScheduledRun.writeBack_profileId, ← hprofile]
    exact column_eq_work fun h => hkeeps.profileId (h.trans hprofile)
  · rw [ScheduledRun.writeBack_pdeImage, ← himage]
    exact column_eq_work fun h => hkeeps.pdeImage (h.trans himage)
  · rw [ScheduledRun.writeBack_envVars, ← henv]
    exact column_eq_work fun h => hkeeps.envVars (h.trans henv)

theorem move_of_updateCommit (hinv : Versioned w) {c : Nat} {stamp now : Instant} {id : Uuid}
    {request : UpdateScheduledRunRequest} {row work : ScheduledRun} {version : CreateRunRequest}
    {schedules : Table Uuid ScheduledRun}
    (hcall : w.calls c = some (.updating id request row (.stored version)))
    (hwork : ScheduleService.updateRow cron request version stamp now row = .ok work)
    (hflush : w.schedules.flush ⟨id, row, work⟩ = some schedules) :
    Move w ({ w with schedules, accepted := (id, version) :: w.accepted }.finish c) := by
  have hrole : w.role c = some (.stores id version (some row)) := role_of_call hcall
  refine .committed hrole (role_of_calls rfl rfl) rfl (fun key hkey => ?_) (fun row' hrow' => ?_) rfl
  · exact Table.lookup_flush_of_ne hflush hkey
  · have hafter : schedules.lookup id = (w.schedules.lookup id).map (writeBack row work) :=
      Table.lookup_flush_self hflush
    obtain ⟨current, hcurrent, rfl⟩ := Option.map_eq_some_iff.mp (hafter.symm.trans hrow')
    exact (rowOf_updateRow hwork).writeBack (hinv.keeps hrole hcurrent)

theorem move_of_createCommit {c : Nat} {stamp now : Instant} {id : Uuid}
    {request : CreateScheduledRunRequest} {row : ScheduledRun} {version : CreateRunRequest}
    (hcall : w.calls c = some (.creating id request version true))
    (hcreate : ScheduleService.createRow cron request version stamp now = .ok row) :
    Move w ({ w with
      schedules := w.schedules.insert id row
      accepted := (id, version) :: w.accepted }.finish c) := by
  refine .committed (role_of_call hcall) (role_of_calls rfl rfl) rfl (fun key hkey => ?_)
    (fun row' hrow' => ?_) rfl
  · exact AList.lookup_insert_ne hkey
  · rw [finish_schedules, AList.lookup_insert, Option.some.injEq] at hrow'
    subst hrow'
    obtain ⟨-, -, hprofile, himage, henv⟩ := createRow_ok hcreate
    exact ⟨hprofile, himage, henv⟩

theorem role_rest (origin : Origin) : origin.rest.bind Call.role = none := by
  cases origin <;> rfl

theorem move_of_deleteInput {c : Nat} {id : Uuid}
    (hcall : w.calls c = some (.deleting id false)) :
    Move w { w.spawn c (.deleting id true) with inputs := w.inputs.erase id } := by
  refine .other (fun key payload hpayload => ?_) (fun key row hrow => ⟨row, hrow, SameParams.rfl⟩) rfl
    fun c' => ?_
  · dsimp only at hpayload
    by_cases hkey : key = id
    · subst hkey
      rw [AList.lookup_erase] at hpayload
      cases hpayload
    · rw [AList.lookup_erase_ne hkey] at hpayload
      exact hpayload
  · rw [role_of_calls (w := w) rfl rfl]
    by_cases hc : c' = c
    · subst hc
      rw [Function.update_self]
      exact .of_same hcall rfl
    · rw [Function.update_of_ne hc]
      exact .kept

/-- A step that changes neither schedules nor calls. -/
theorem Move.of_idle (hrows : w'.schedules = w.schedules) (hcalls : w'.calls = w.calls)
    (hinputs : w'.inputs = w.inputs) (haccepted : w'.accepted = w.accepted) : Move w w' := by
  refine .other (fun id payload hpayload => ?_) (fun id row hrow => ?_) haccepted fun c => ?_
  · rw [← hinputs]
    exact hpayload
  · rw [hrows] at hrow
    exact ⟨row, hrow, SameParams.rfl⟩
  · have hrole : w'.role c = w.role c := by rw [World.role, World.role, hcalls]
    rw [hrole]
    exact .kept

theorem move_of_step (hinv : Versioned w) (hok : OneAtATime w a) (h : Step settings cron w a w') :
    Move w w' := by
  have hstep := h
  cases h with
  | fireRead hcall hrow =>
      refine .of_calls hstep rfl rfl rfl rfl ?_
      exact .read (role_of_call hcall) hrow (hok _ _ _ hcall)
  | triggerRead hcall hrow =>
      refine .of_calls hstep rfl rfl rfl rfl ?_
      exact .read (role_of_call hcall) hrow hok
  | fireLoad hcall hpayload =>
      refine .of_calls hstep rfl rfl rfl rfl ?_
      exact .loaded (role_of_call hcall) hpayload
  | fireStore hcall hissued hprofile =>
      refine .of_calls hstep rfl rfl rfl rfl ?_
      exact .of_same hcall rfl
  | fireCommit hcall hrun =>
      refine .of_calls hstep rfl rfl rfl rfl ?_
      exact .of_call hcall fire_role_ne_stores
  | fireFail hcall hstage =>
      refine .of_calls hstep rfl rfl rfl rfl ?_
      rcases role_of_failedStage hstage _ _ _ with hnone | hsame
      · rw [Option.bind_some, hnone]
        exact .of_call hcall fire_role_ne_stores
      · exact .of_same hcall hsame
  | recordCommit hcall hflush =>
      rw [next_eq]
      rw [next_eq] at hstep
      refine .of_calls hstep rfl rfl rfl rfl ?_
      rw [role_rest]
      exact .of_call hcall fire_role_ne_stores
  | recordInsert hcall hflush hrun =>
      rw [next_eq]
      rw [next_eq] at hstep
      refine .of_calls hstep rfl rfl rfl rfl ?_
      rw [role_rest]
      exact .of_call hcall fire_role_ne_stores
  | updateStore hcall =>
      obtain ⟨hstoring, hreading, hkeeps⟩ := hok _ _ _ _ hcall
      refine .stored (role_of_call hcall) (role_of_calls rfl rfl) rfl rfl rfl hstoring hreading ?_
      rintro row current ⟨⟩ hcurrent
      exact hkeeps current hcurrent
  | updateCommit hcall hwork hflush => exact move_of_updateCommit hinv hcall hwork hflush
  | createStore hcall =>
      obtain ⟨hstoring, hreading⟩ := hok _ _ _ hcall
      refine .stored (role_of_call hcall) (role_of_calls rfl rfl) rfl rfl rfl hstoring hreading ?_
      intro row current hread
      cases hread
  | createCommit hcall hcreate hrow => exact move_of_createCommit hcall hcreate
  | deleteInput hcall => exact move_of_deleteInput hcall
  | crash hcall =>
      refine .of_calls hstep rfl rfl rfl rfl ?_
      exact .ended hok
  | setStatus hrun => exact .of_idle rfl rfl rfl rfl
  | deleteRun => exact .of_idle rfl rfl rfl rfl
  | editProfiles => exact .of_idle rfl rfl rfl rfl
  | _ =>
      refine .of_calls hstep rfl rfl rfl rfl ?_
      exact .of_call ‹_› fun id version read hrole => by cases hrole

end Step

theorem World.Quiet.role {w : World} (h : w.Quiet) (c : Nat) : w.role c = none := by
  rw [World.role, h c]
  rfl

theorem World.Quiet.not_storing {w : World} (h : w.Quiet) (id : Uuid) : ¬w.Storing id := by
  rintro ⟨c, version, read, hrole⟩
  rw [h.role c] at hrole
  cases hrole

/-- Every schedule has the two halves of an accepted request. -/
def World.Settled (w : World) : Prop :=
  ∀ id row payload, w.schedules.lookup id = some row → w.inputs.lookup id = some payload →
    w.Version id row payload

theorem World.Quiet.versioned {w : World} (h : w.Quiet) (hsettled : w.Settled) : Versioned w := by
  constructor
  case unique =>
    intro c c' id version version' read read' hrole
    rw [h.role c] at hrole
    cases hrole
  case apart =>
    intro id hstoring
    exact absurd hstoring (h.not_storing id)
  case settled =>
    intro id row payload hrow hpayload _
    exact hsettled id row payload hrow hpayload
  case stored =>
    intro c id version read payload hrole
    rw [h.role c] at hrole
    cases hrole
  case keeps =>
    intro c id version read current hrole
    rw [h.role c] at hrole
    cases hrole
  case reading =>
    intro c id row payload hrole
    rw [h.role c] at hrole
    cases hrole
  case requested =>
    intro c id request hrole
    rw [h.role c] at hrole
    cases hrole

theorem requests_of_inserts {w : World} {a : Act} {origin : Origin} {id : Uuid} {new : NewRun}
    (h : inserts w a = some (origin, id, new)) :
    ∃ c, w.role c = some (.requests id new.request) := by
  unfold inserts at h
  split at h
  · split at h
    · next hcall =>
      cases h
      exact ⟨_, role_of_call hcall⟩
    · cases h
  · split at h
    · next hcall =>
      cases h
      exact ⟨_, role_of_call hcall⟩
    · cases h
  · cases h

theorem sampleWorld_settled (overlapPolicy : Text) : (sampleWorld overlapPolicy).Settled := by
  intro id row payload hrow hpayload
  by_cases hid : id = 1
  · subst hid
    cases hrow
    cases hpayload
    exact ⟨sampleRunRequest, List.mem_singleton_self _, ⟨rfl, rfl, rfl⟩, rfl⟩
  · have hnone : (sampleWorld overlapPolicy).schedules.lookup id = none := by
      rw [AList.lookup_eq_none]
      intro hmem
      exact hid (List.mem_singleton.mp hmem)
    rw [hnone] at hrow
    cases hrow

/-- An edit of the schedule of `sampleWorld`: another pipeline and another image. -/
def sampleEdit : UpdateScheduledRunRequest :=
  { name := "nightly".toList, cronExpression := "* * * * *".toList
    pdeImage := some "pde:2".toList, pipelineData := "stages: [deploy]".toList }

/-- A fire reads the row, an edit is stored and committed, and the fire loads the payload. -/
def editBetweenReads : List Act :=
  [.triggerRead 0 1 0, .updateRead 1 1 sampleEdit 0, .updateLoad 1, .updateStore 1,
    .updateCommit 1 0 0, .fireLoad 0, .fireStore 0 2 0]

end PdeOperator.Firing
