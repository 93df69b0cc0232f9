import PdeOperator.FiringSystem

/-! Inversion of the steps of `FiringSystem`: one rule for each way in which a label can be taken,
with the call it continues and the world it leaves. -/

namespace PdeOperator.Firing
open Base

section Fields

variable (w : World) (c : Nat)

@[simp] theorem spawn_schedules (call : Call) : (w.spawn c call).schedules = w.schedules := rfl
@[simp] theorem spawn_inputs (call : Call) : (w.spawn c call).inputs = w.inputs := rfl
@[simp] theorem spawn_runs (call : Call) : (w.spawn c call).runs = w.runs := rfl
@[simp] theorem spawn_manual (call : Call) : (w.spawn c call).manual = w.manual := rfl
@[simp] theorem spawn_accepted (call : Call) : (w.spawn c call).accepted = w.accepted := rfl
@[simp] theorem spawn_calls (call : Call) :
    (w.spawn c call).calls = Function.update w.calls c (some call) := rfl
@[simp] theorem finish_schedules : (w.finish c).schedules = w.schedules := rfl
@[simp] theorem finish_inputs : (w.finish c).inputs = w.inputs := rfl
@[simp] theorem finish_runs : (w.finish c).runs = w.runs := rfl
@[simp] theorem finish_manual : (w.finish c).manual = w.manual := rfl
@[simp] theorem finish_accepted : (w.finish c).accepted = w.accepted := rfl
@[simp] theorem finish_calls : (w.finish c).calls = Function.update w.calls c none := rfl

variable (origin : Origin) (new : NewRun)

@[simp] theorem insertRun_schedules : (w.insertRun origin new).schedules = w.schedules := rfl
@[simp] theorem insertRun_inputs : (w.insertRun origin new).inputs = w.inputs := rfl
@[simp] theorem insertRun_runs :
    (w.insertRun origin new).runs = w.runs.insert new.runId new.run := rfl
@[simp] theorem insertRun_calls : (w.insertRun origin new).calls = w.calls := rfl
@[simp] theorem insertRun_accepted : (w.insertRun origin new).accepted = w.accepted := rfl
/-- What the call becomes after its fire. -/
def Origin.rest : Origin → Option Call
  | .tick now todo => some (.firing now todo)
  | .manual _ => none

theorem next_eq : w.next c origin =
    { w with calls := Function.update w.calls c origin.rest } := by
  cases origin <;> rfl

end Fields

section Step

variable (settings : Settings) (cron : CronLibrary)
  (declarative : Uuid → JsonObject → Except ScheduleService.Error CreateRunRequest)

/-- The row that `record_fire` compares its changes with. -/
def recordBase (w : World) (id : Uuid) (row : ScheduledRun) (rolledBack : Bool) : ScheduledRun :=
  if rolledBack then (w.schedules.lookup id).getD row else row

inductive Step (w : World) : Act → World → Prop where
  | claim {c now locked} (hcall : w.calls c = none) :
      Step w (.claim c now locked) ({ w with
        schedules := ScheduleDispatcher.claimedTable settings cron now w.active
          (due settings w now locked) w.schedules }.spawn c
        (.firing now ((ScheduleDispatcher.toFire settings cron now w.active
          (due settings w now locked)).map Prod.fst)))
  | fireRead {c now id todo row} (hcall : w.calls c = some (.firing now (id :: todo)))
      (hrow : w.schedules.lookup id = some row) :
      Step w (.fireRead c) (w.spawn c (.fire (.tick now todo) id row .read))
  | fireSkip {c now id todo} (hcall : w.calls c = some (.firing now (id :: todo)))
      (hrow : w.schedules.lookup id = none) :
      Step w (.fireRead c) (w.spawn c (.firing now todo))
  | triggerRead {c id now row} (hcall : w.calls c = none)
      (hrow : w.schedules.lookup id = some row) :
      Step w (.triggerRead c id now) (w.spawn c (.fire (.manual now) id row .read))
  | fireLoad {c origin id row payload} (hcall : w.calls c = some (.fire origin id row .read))
      (hpayload : w.inputs.lookup id = some payload) :
      Step w (.fireLoad c)
        (w.spawn c (.fire origin id row (.loaded (ScheduleService.fireRequest row payload))))
  | fireStore {c origin id row request runId createdAt profile}
      (hcall : w.calls c = some (.fire origin id row (.loaded request)))
      (hissued : runId ∉ w.issued) (hprofile : w.profiles.lookup request.profileId = some profile) :
      Step w (.fireStore c runId createdAt)
        { w.spawn c (.fire origin id row (.added ⟨runId, request,
            RunService.createRun settings runId request profile (some (scheduleTriggerRef id))
              createdAt⟩)) with
          runInputs := w.runInputs.insert runId (RunInputPayload.fromCreateRequest request)
          issued := runId :: w.issued }
  | fireCommit {c origin id row new started}
      (hcall : w.calls c = some (.fire origin id row (.added new)))
      (hrun : w.runs.lookup new.runId = none) :
      Step w (.fireCommit c started) ((w.insertRun origin (new.start settings started)).spawn c
        (.fire origin id row (.recording false .success (some new.runId) none none)))
  | fireFail {c now todo id row stage stage' error keepsRun}
      (hcall : w.calls c = some (.fire (.tick now todo) id row stage))
      (hstage : failedStage settings error keepsRun stage = some stage') :
      Step w (.fireFail c error keepsRun) (w.spawn c (.fire (.tick now todo) id row stage'))
  | recordCommit {c origin id row rolledBack status runId error schedules}
      (hcall : w.calls c = some
        (.fire origin id row (.recording rolledBack status runId error none)))
      (hflush : w.schedules.flush ⟨id, recordBase w id row rolledBack,
        ScheduleService.applyFireResult origin.now status runId error
          (recordBase w id row rolledBack)⟩ = some schedules) :
      Step w (.recordCommit c) ({ w with schedules }.next c origin)
  | recordInsert {c origin id row rolledBack status runId error new schedules}
      (hcall : w.calls c = some
        (.fire origin id row (.recording rolledBack status runId error (some new))))
      (hflush : w.schedules.flush ⟨id, recordBase w id row rolledBack,
        ScheduleService.applyFireResult origin.now status runId error
          (recordBase w id row rolledBack)⟩ = some schedules)
      (hrun : w.runs.lookup new.runId = none) :
      Step w (.recordCommit c) (({ w with schedules }.insertRun origin new).next c origin)
  | updateRead {c id request now row} (hcall : w.calls c = none)
      (hrow : w.schedules.lookup id = some row) :
      Step w (.updateRead c id request now) (w.spawn c (.updating id request row .read))
  | updateLoad {c id request row current merged}
      (hcall : w.calls c = some (.updating id request row .read))
      (hcurrent : w.inputs.lookup id = some current)
      (hmerged : InputCrypto.mergeMaskedSecure request.pipelineVarsSecure
        current.pipelineVarsSecure = .ok merged) :
      Step w (.updateLoad c) (w.spawn c (.updating id request row
        (.loaded (ScheduleService.updateRunRequest request merged))))
  | updateStore {c id request row runRequest}
      (hcall : w.calls c = some (.updating id request row (.loaded runRequest))) :
      Step w (.updateStore c) { w.spawn c (.updating id request row (.stored runRequest)) with
        inputs := w.inputs.insert id (RunInputPayload.fromCreateRequest runRequest) }
  | updateCommit {c stamp now id request row runRequest work schedules}
      (hcall : w.calls c = some (.updating id request row (.stored runRequest)))
      (hwork : ScheduleService.updateRow cron request runRequest stamp now row = .ok work)
      (hflush : w.schedules.flush ⟨id, row, work⟩ = some schedules) :
      Step w (.updateCommit c stamp now)
        ({ w with schedules, accepted := (id, runRequest) :: w.accepted }.finish c)
  | createRead {c id request now runRequest} (hcall : w.calls c = none) :
      Step w (.createRead c id request now) (w.spawn c (.creating id request runRequest false))
  | createStore {c id request runRequest}
      (hcall : w.calls c = some (.creating id request runRequest false)) :
      Step w (.createStore c) { w.spawn c (.creating id request runRequest true) with
        inputs := w.inputs.insert id (RunInputPayload.fromCreateRequest runRequest) }
  | createCommit {c stamp now id request runRequest row}
      (hcall : w.calls c = some (.creating id request runRequest true))
      (hcreate : ScheduleService.createRow cron request runRequest stamp now = .ok row)
      (hrow : w.schedules.lookup id = none) :
      Step w (.createCommit c stamp now) ({ w with
        schedules := w.schedules.insert id row
        accepted := (id, runRequest) :: w.accepted }.finish c)
  | enableRead {c id enabled row} (hcall : w.calls c = none)
      (hrow : w.schedules.lookup id = some row) :
      Step w (.enableRead c id enabled) (w.spawn c (.enabling id enabled row))
  | enableCommit {c stamp now id enabled row work schedules}
      (hcall : w.calls c = some (.enabling id enabled row))
      (hwork : ScheduleService.setEnabledRow cron enabled stamp now row = .ok work)
      (hflush : w.schedules.flush ⟨id, row, work⟩ = some schedules) :
      Step w (.enableCommit c stamp now) ({ w with schedules }.finish c)
  | deleteRead {c id} (hcall : w.calls c = none) :
      Step w (.deleteRead c id) (w.spawn c (.deleting id false))
  | deleteInput {c id} (hcall : w.calls c = some (.deleting id false)) :
      Step w (.deleteInput c) { w.spawn c (.deleting id true) with inputs := w.inputs.erase id }
  | deleteCommit {c id} (hcall : w.calls c = some (.deleting id true)) :
      Step w (.deleteCommit c) ({ w with schedules := w.schedules.erase id }.finish c)
  | crash {c call} (hcall : w.calls c = some call) : Step w (.crash c) (w.finish c)
  | setStatus {runId status run} (hrun : w.runs.lookup runId = some run) :
      Step w (.setStatus runId status)
        { w with runs := w.runs.insert runId { run with status } }
  | deleteRun {runId} : Step w (.deleteRun runId) { w with runs := w.runs.erase runId }
  | editProfiles {profiles} : Step w (.editProfiles profiles) { w with profiles }

variable {settings cron declarative} {w w' : World}

theorem step_claim {c : Nat} {now : Instant} {locked : Uuid → Bool}
    (h : claim settings cron w c now locked = some w') :
    Step settings cron w (.claim c now locked) w' := by
  simp only [claim, Option.bind_eq_bind, Option.bind_eq_some_iff, Option.guard_eq_some',
    Option.isNone_iff_eq_none] at h
  obtain ⟨-, hcall, h⟩ := h
  cases h
  exact .claim hcall

theorem step_fireRead {c : Nat} (h : fireRead w c = some w') :
    Step settings cron w (.fireRead c) w' := by
  unfold fireRead at h
  split at h
  · next now id todo hcall =>
    split at h
    · next row hrow =>
      cases h
      exact .fireRead hcall hrow
    · next hrow =>
      cases h
      exact .fireSkip hcall hrow
  · cases h

theorem step_triggerRead {c : Nat} {id : Uuid} {now : Instant}
    (h : triggerRead w c id now = some w') : Step settings cron w (.triggerRead c id now) w' := by
  simp only [triggerRead, Option.bind_eq_bind, Option.bind_eq_some_iff, Option.guard_eq_some',
    Option.isNone_iff_eq_none] at h
  obtain ⟨-, hcall, row, hrow, h⟩ := h
  cases h
  exact .triggerRead hcall hrow

theorem step_fireLoad {c : Nat} (h : fireLoad w c = some w') :
    Step settings cron w (.fireLoad c) w' := by
  unfold fireLoad at h
  split at h
  · next hcall =>
    obtain ⟨payload, hpayload, h⟩ := Option.bind_eq_some_iff.mp h
    cases h
    exact .fireLoad hcall hpayload
  · cases h

theorem step_fireStore {c : Nat} {runId : Uuid} {createdAt : Instant}
    (h : fireStore settings w c runId createdAt = some w') :
    Step settings cron w (.fireStore c runId createdAt) w' := by
  unfold fireStore at h
  split at h
  · next hcall =>
    simp only [Option.bind_eq_bind, Option.bind_eq_some_iff, Option.guard_eq_some',
      Bool.not_eq_true', List.contains_eq_mem, decide_eq_false_iff_not] at h
    obtain ⟨-, hissued, profile, hprofile, h⟩ := h
    cases h
    exact .fireStore hcall hissued hprofile
  · cases h

theorem step_fireCommit {c : Nat} {started : Instant}
    (h : fireCommit settings w c started = some w') :
    Step settings cron w (.fireCommit c started) w' := by
  unfold fireCommit at h
  split at h
  · next hcall =>
    simp only [Option.bind_eq_bind, Option.bind_eq_some_iff, Option.guard_eq_some',
      Option.isNone_iff_eq_none] at h
    obtain ⟨-, hrun, h⟩ := h
    cases h
    exact .fireCommit hcall hrun
  · cases h

theorem step_fireFail {c : Nat} {error : Text} {keepsRun : Bool}
    (h : fireFail settings w c error keepsRun = some w') :
    Step settings cron w (.fireFail c error keepsRun) w' := by
  unfold fireFail at h
  split at h
  · next hcall =>
    obtain ⟨stage', hstage, rfl⟩ := Option.map_eq_some_iff.mp h
    exact .fireFail hcall hstage
  · cases h

theorem step_recordCommit {c : Nat} (h : recordCommit w c = some w') :
    Step settings cron w (.recordCommit c) w' := by
  unfold recordCommit at h
  split at h
  · next origin id row rolledBack status runId error pending hcall =>
    obtain ⟨schedules, hflush, h⟩ := Option.bind_eq_some_iff.mp h
    cases pending with
    | none =>
        cases h
        exact .recordCommit hcall hflush
    | some new =>
        simp only [Option.bind_eq_bind, Option.bind_eq_some_iff, Option.guard_eq_some',
          Option.isNone_iff_eq_none] at h
        obtain ⟨-, hrun, h⟩ := h
        cases h
        exact .recordInsert hcall hflush hrun
  · cases h

theorem step_updateRead {c : Nat} {id : Uuid} {request : UpdateScheduledRunRequest}
    {now : Instant} (h : updateRead settings cron w c id request now = some w') :
    Step settings cron w (.updateRead c id request now) w' := by
  simp only [updateRead, Option.bind_eq_bind, Option.bind_eq_some_iff, Option.guard_eq_some',
    Option.isNone_iff_eq_none] at h
  obtain ⟨-, hcall, row, hrow, -, -, -, -, h⟩ := h
  cases h
  exact .updateRead hcall hrow

theorem step_updateLoad {c : Nat} (h : updateLoad w c = some w') :
    Step settings cron w (.updateLoad c) w' := by
  unfold updateLoad at h
  split at h
  · next hcall =>
    simp only [Option.bind_eq_bind, Option.bind_eq_some_iff, toOption_eq_some] at h
    obtain ⟨current, hcurrent, merged, hmerged, h⟩ := h
    cases h
    exact .updateLoad hcall hcurrent hmerged
  · cases h

theorem step_updateStore {c : Nat} (h : updateStore w c = some w') :
    Step settings cron w (.updateStore c) w' := by
  unfold updateStore at h
  split at h
  · next hcall =>
    cases h
    exact .updateStore hcall
  · cases h

theorem step_updateCommit {c : Nat} {stamp now : Instant}
    (h : updateCommit cron w c stamp now = some w') :
    Step settings cron w (.updateCommit c stamp now) w' := by
  unfold updateCommit at h
  split at h
  · next hcall =>
    simp only [Option.bind_eq_bind, Option.bind_eq_some_iff, toOption_eq_some] at h
    obtain ⟨work, hwork, schedules, hflush, h⟩ := h
    cases h
    exact .updateCommit hcall hwork hflush
  · cases h

theorem step_createRead {c : Nat} {id : Uuid} {request : CreateScheduledRunRequest}
    {now : Instant} (h : createRead settings cron declarative w c id request now = some w') :
    Step settings cron w (.createRead c id request now) w' := by
  simp only [createRead, Option.bind_eq_bind, Option.bind_eq_some_iff, Option.guard_eq_some',
    Option.isNone_iff_eq_none] at h
  obtain ⟨-, hcall, -, -, runRequest, -, -, -, secure, -, h⟩ := h
  cases h
  exact .createRead hcall

theorem step_createStore {c : Nat} (h : createStore w c = some w') :
    Step settings cron w (.createStore c) w' := by
  unfold createStore at h
  split at h
  · next hcall =>
    cases h
    exact .createStore hcall
  · cases h

theorem step_createCommit {c : Nat} {stamp now : Instant}
    (h : createCommit cron w c stamp now = some w') :
    Step settings cron w (.createCommit c stamp now) w' := by
  unfold createCommit at h
  split at h
  · next hcall =>
    simp only [Option.bind_eq_bind, Option.bind_eq_some_iff, Option.guard_eq_some',
      Option.isNone_iff_eq_none, toOption_eq_some] at h
    obtain ⟨row, hcreate, -, hrow, h⟩ := h
    cases h
    exact .createCommit hcall hcreate hrow
  · cases h

theorem step_enableRead {c : Nat} {id : Uuid} {enabled : Bool}
    (h : enableRead w c id enabled = some w') :
    Step settings cron w (.enableRead c id enabled) w' := by
  simp only [enableRead, Option.bind_eq_bind, Option.bind_eq_some_iff, Option.guard_eq_some',
    Option.isNone_iff_eq_none] at h
  obtain ⟨-, hcall, row, hrow, h⟩ := h
  cases h
  exact .enableRead hcall hrow

theorem step_enableCommit {c : Nat} {stamp now : Instant}
    (h : enableCommit cron w c stamp now = some w') :
    Step settings cron w (.enableCommit c stamp now) w' := by
  unfold enableCommit at h
  split at h
  · next hcall =>
    simp only [Option.bind_eq_bind, Option.bind_eq_some_iff, toOption_eq_some] at h
    obtain ⟨work, hwork, schedules, hflush, h⟩ := h
    cases h
    exact .enableCommit hcall hwork hflush
  · cases h

theorem step_deleteRead {c : Nat} {id : Uuid} (h : deleteRead w c id = some w') :
    Step settings cron w (.deleteRead c id) w' := by
  simp only [deleteRead, Option.bind_eq_bind, Option.bind_eq_some_iff, Option.guard_eq_some',
    Bool.and_eq_true, Option.isNone_iff_eq_none] at h
  obtain ⟨-, ⟨hcall, -⟩, h⟩ := h
  cases h
  exact .deleteRead hcall

theorem step_deleteInput {c : Nat} (h : deleteInput w c = some w') :
    Step settings cron w (.deleteInput c) w' := by
  unfold deleteInput at h
  split at h
  · next hcall =>
    cases h
    exact .deleteInput hcall
  · cases h

theorem step_deleteCommit {c : Nat} (h : deleteCommit w c = some w') :
    Step settings cron w (.deleteCommit c) w' := by
  unfold deleteCommit at h
  split at h
  · next hcall =>
    cases h
    exact .deleteCommit hcall
  · cases h

theorem step_crash {c : Nat} (h : crash w c = some w') : Step settings cron w (.crash c) w' := by
  simp only [crash, Option.bind_eq_bind, Option.bind_eq_some_iff, Option.guard_eq_some'] at h
  obtain ⟨-, hcall, h⟩ := h
  obtain ⟨call, hcall⟩ := Option.isSome_iff_exists.mp hcall
  cases h
  exact .crash hcall

theorem step_setStatus {runId : Uuid} {status : RunStatus}
    (h : setStatus w runId status = some w') :
    Step settings cron w (.setStatus runId status) w' := by
  obtain ⟨run, hrun, h⟩ := Option.bind_eq_some_iff.mp h
  cases h
  exact .setStatus hrun

/-- Every step is one of the rules. -/
theorem step_cases {a : Act} (h : (system settings cron declarative).step w a = some w') :
    Step settings cron w a w' := by
  cases a with
  | claim c now locked => exact step_claim h
  | fireRead c => exact step_fireRead h
  | triggerRead c id now => exact step_triggerRead h
  | fireLoad c => exact step_fireLoad h
  | fireStore c runId createdAt => exact step_fireStore h
  | fireCommit c started => exact step_fireCommit h
  | fireFail c error keepsRun => exact step_fireFail h
  | recordCommit c => exact step_recordCommit h
  | updateRead c id request now => exact step_updateRead h
  | updateLoad c => exact step_updateLoad h
  | updateStore c => exact step_updateStore h
  | updateCommit c stamp now => exact step_updateCommit h
  | createRead c id request now =>
      have hread : createRead settings cron declarative w c id request now = some w' := h
      exact step_createRead hread
  | createStore c => exact step_createStore h
  | createCommit c stamp now => exact step_createCommit h
  | enableRead c id enabled => exact step_enableRead h
  | enableCommit c stamp now => exact step_enableCommit h
  | deleteRead c id => exact step_deleteRead h
  | deleteInput c => exact step_deleteInput h
  | deleteCommit c => exact step_deleteCommit h
  | crash c => exact step_crash h
  | setStatus runId status => exact step_setStatus h
  | deleteRun runId =>
      cases h
      exact .deleteRun
  | editProfiles profiles =>
      cases h
      exact .editProfiles

end Step

end PdeOperator.Firing
