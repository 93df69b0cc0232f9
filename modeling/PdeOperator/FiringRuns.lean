import PdeOperator.FiringOverlap

/-! The last run of a schedule. Whatever ticks, triggers and edits come between, the run that a schedule
names as its last one is a run that the schedule has triggered itself. -/

namespace PdeOperator.Firing
open Base

variable {settings : Settings} {cron : CronLibrary}
  {declarative : Uuid → JsonObject → Except ScheduleService.Error CreateRunRequest} {w w' : World} {a : Act}
  {own own' : Uuid → Option Uuid} {id : Uuid} {row : ScheduledRun}

/-- The last run of a row is a run of its schedule, and a row that has fired names one. -/
structure RowLinked (own : Uuid → Option Uuid) (id : Uuid) (row : ScheduledRun) : Prop where
  fired : row.lastFireStatus = some .success → row.lastRunId.isSome = true
  own : ∀ runId, row.lastRunId = some runId → own runId = some id

/-- A run that is still to be committed is a run of its schedule. -/
structure NewLinked (own : Uuid → Option Uuid) (id : Uuid) (new : NewRun) : Prop where
  own : own new.runId = some id
  triggeredBy : new.run.triggeredBy = some (scheduleTriggerRef id)

/-- The run that a fire records is not the one that its schedule had before. -/
def StageLinked (own : Uuid → Option Uuid) (id : Uuid) (row : ScheduledRun) : FireStage → Prop
  | .read | .loaded _ => True
  | .added new => NewLinked own id new ∧ row.lastRunId ≠ some new.runId
  | .recording rolledBack status runId _ pending =>
      (status = .success → runId.isSome = true) ∧
        (∀ r, runId = some r → rolledBack = false ∧ own r = some id ∧ row.lastRunId ≠ some r) ∧
        ∀ new, pending = some new → NewLinked own id new

def CallLinked (own : Uuid → Option Uuid) : Call → Prop
  | .fire _ id row stage =>
      (∀ runId, row.lastRunId = some runId → own runId = some id) ∧ StageLinked own id row stage
  | _ => True

/-- `own` gives the schedule of each run that has been triggered by one. -/
structure Linked (own : Uuid → Option Uuid) (w : World) : Prop where
  issued : ∀ runId id, own runId = some id → runId ∈ w.issued
  known : ∀ runId run, w.runs.lookup runId = some run → runId ∈ w.issued
  runs : ∀ runId id run, own runId = some id → w.runs.lookup runId = some run →
    run.triggeredBy = some (scheduleTriggerRef id)
  rows : ∀ id row, w.schedules.lookup id = some row → RowLinked own id row
  calls : ∀ c call, w.calls c = some call → CallLinked own call

/-- More runs have a schedule, and those that had one keep it. -/
def Extends (own own' : Uuid → Option Uuid) : Prop := ∀ runId id, own runId = some id → own' runId = some id

theorem RowLinked.mono (h : RowLinked own id row) (hextends : Extends own own') : RowLinked own' id row :=
  ⟨h.fired, fun runId hrun => hextends _ _ (h.own runId hrun)⟩

theorem NewLinked.mono {new : NewRun} (h : NewLinked own id new) (hextends : Extends own own') :
    NewLinked own' id new :=
  ⟨hextends _ _ h.own, h.triggeredBy⟩

theorem StageLinked.mono {stage : FireStage} (h : StageLinked own id row stage) (hextends : Extends own own') :
    StageLinked own' id row stage := by
  cases stage with
  | read => trivial
  | loaded request => trivial
  | added new => exact ⟨h.1.mono hextends, h.2⟩
  | recording rolledBack status runId error pending =>
      obtain ⟨hstatus, hrun, hpending⟩ := h
      refine ⟨hstatus, fun r hr => ?_, fun new hnew => (hpending new hnew).mono hextends⟩
      obtain ⟨hrolled, hown, hne⟩ := hrun r hr
      exact ⟨hrolled, hextends _ _ hown, hne⟩

theorem CallLinked.mono {call : Call} (h : CallLinked own call) (hextends : Extends own own') :
    CallLinked own' call := by
  cases call with
  | fire origin id row stage => exact ⟨fun runId hrun => hextends _ _ (h.1 runId hrun), h.2.mono hextends⟩
  | _ => trivial

/-- What a session writes back without having changed the last run and the last status. -/
theorem RowLinked.writeBack_same {read work current : ScheduledRun} (h : RowLinked own id current)
    (hstatus : work.lastFireStatus = read.lastFireStatus) (hrun : work.lastRunId = read.lastRunId) :
    RowLinked own id (writeBack read work current) := by
  have hstatus' : (writeBack read work current).lastFireStatus = current.lastFireStatus :=
    column_kept hstatus _
  have hrun' : (writeBack read work current).lastRunId = current.lastRunId := column_kept hrun _
  exact ⟨fun hsuccess => by rw [hrun']; exact h.fired (hstatus' ▸ hsuccess),
    fun runId hlast => h.own runId (hrun' ▸ hlast)⟩

/-- What `record_fire` writes back. -/
theorem RowLinked.writeBack_record {read current : ScheduledRun} {now : Instant} {status : FireStatus}
    {runId : Option Uuid} {error : Option Text} (h : RowLinked own id current)
    (hstatus : status = .success → runId.isSome = true)
    (hrun : ∀ r, runId = some r → own r = some id ∧ read.lastRunId ≠ some r) :
    RowLinked own id
      (writeBack read (ScheduleService.applyFireResult now status runId error read) current) := by
  cases runId with
  | none =>
      have hrun' : (writeBack read (ScheduleService.applyFireResult now status none error read)
          current).lastRunId = current.lastRunId := column_kept rfl _
      have hstatus' : (writeBack read (ScheduleService.applyFireResult now status none error read)
          current).lastFireStatus = current.lastFireStatus ∨
          (writeBack read (ScheduleService.applyFireResult now status none error read)
            current).lastFireStatus = some status := column_eq_or _ _ _
      refine ⟨fun hsuccess => ?_, fun r hlast => h.own r (hrun' ▸ hlast)⟩
      rw [hrun']
      rcases hstatus' with hsame | hnew
      · exact h.fired (hsame ▸ hsuccess)
      · exact absurd (hstatus (Option.some.inj (hnew.symm.trans hsuccess))) Bool.false_ne_true
  | some r =>
      obtain ⟨hown, hne⟩ := hrun r rfl
      have hrun' : (writeBack read (ScheduleService.applyFireResult now status (some r) error read)
          current).lastRunId = some r :=
        column_eq_work fun hsame => absurd hsame hne
      refine ⟨fun _ => by rw [hrun']; rfl, fun r' hlast => ?_⟩
      obtain rfl := Option.some.inj (hrun'.symm.trans hlast)
      exact hown

/-- A row that is written back is linked when what is written is. -/
theorem rowLinked_flush {key : Uuid} {read work : ScheduledRun} {schedules : Table Uuid ScheduledRun}
    (hrows : ∀ id row, w.schedules.lookup id = some row → RowLinked own id row)
    (hflush : w.schedules.flush ⟨key, read, work⟩ = some schedules)
    (hwritten : ∀ current, RowLinked own key current → RowLinked own key (writeBack read work current))
    (hrow : schedules.lookup id = some row) : RowLinked own id row := by
  by_cases hid : id = key
  · subst hid
    have hlookup : schedules.lookup id = (w.schedules.lookup id).map (writeBack read work) :=
      Table.lookup_flush_self hflush
    rw [hlookup] at hrow
    obtain ⟨current, hcurrent, rfl⟩ := Option.map_eq_some_iff.mp hrow
    exact hwritten current (hrows id current hcurrent)
  · rw [Table.lookup_flush_of_ne hflush hid] at hrow
    exact hrows id row hrow

theorem rowLinked_claimRow {now : Instant} {isActive : Bool} (h : RowLinked own id row) :
    RowLinked own id (ScheduleDispatcher.claimRow settings cron now isActive row).1 := by
  unfold ScheduleDispatcher.claimRow
  split
  · exact ⟨nofun, h.own⟩
  · split
    · exact ⟨h.fired, h.own⟩
    · split
      · exact ⟨nofun, h.own⟩
      · split
        · exact ⟨nofun, h.own⟩
        · exact ⟨h.fired, h.own⟩

/-- Saving a row does not touch its last fire. -/
theorem lastFire_saved {base saved : ScheduledRun} {stamp now : Instant} {enabled : Bool}
    (h : ScheduleService.RowSaved cron base stamp now enabled saved) :
    saved.lastFireStatus = base.lastFireStatus ∧ saved.lastRunId = base.lastRunId := by
  cases h <;> exact ⟨rfl, rfl⟩

theorem unfired_createRow {request : CreateScheduledRunRequest} {runRequest : CreateRunRequest}
    {stamp now : Instant} (h : ScheduleService.createRow cron request runRequest stamp now = .ok row) :
    row.lastFireStatus = none ∧ row.lastRunId = none := by
  unfold ScheduleService.createRow at h
  dsimp only at h
  cases henabled : request.enabled with
  | false =>
      rw [henabled] at h
      obtain rfl := Except.ok.inj h
      exact ⟨rfl, rfl⟩
  | true =>
      rw [henabled, if_pos rfl] at h
      obtain ⟨anchor, -, hrow⟩ := bind_eq_ok.mp h
      obtain rfl := Except.ok.inj hrow
      exact ⟨rfl, rfl⟩

/-- No step takes a row away from its runs. -/
theorem rows_step (hinv : Linked own w) (h : Step settings cron w a w')
    (hrow : w'.schedules.lookup id = some row) : RowLinked own id row := by
  cases h with
  | claim hcall =>
      rename_i c now locked
      rcases ScheduleDispatcher.lookup_claimedTable_cases
        (ScheduleDispatcher.nodup_selectDue settings w.schedules locked now) id with
        ⟨-, hsame⟩ | ⟨due, hmem, hclaimed⟩
      · exact hinv.rows id row (hsame.symm.trans hrow)
      · obtain rfl := Option.some.inj (hclaimed.symm.trans hrow)
        obtain ⟨hlookup, -⟩ := ScheduleDispatcher.mem_selectDue hmem
        exact rowLinked_claimRow (hinv.rows id due hlookup)
  | recordCommit hcall hflush =>
      rw [next_eq] at hrow
      obtain ⟨-, hstatus, hrun, -⟩ := hinv.calls _ _ hcall
      refine rowLinked_flush hinv.rows hflush (fun current hcurrent => ?_) hrow
      refine hcurrent.writeBack_record hstatus fun r hr => ?_
      obtain ⟨rfl, hown, hne⟩ := hrun r hr
      exact ⟨hown, hne⟩
  | recordInsert hcall hflush hlookup =>
      rw [next_eq] at hrow
      obtain ⟨-, hstatus, hrun, -⟩ := hinv.calls _ _ hcall
      refine rowLinked_flush hinv.rows hflush (fun current hcurrent => ?_) hrow
      refine hcurrent.writeBack_record hstatus fun r hr => ?_
      obtain ⟨rfl, hown, hne⟩ := hrun r hr
      exact ⟨hown, hne⟩
  | updateCommit hcall hwork hflush =>
      obtain ⟨hstatus, hrun⟩ := lastFire_saved (ScheduleService.updateRow_saved hwork)
      exact rowLinked_flush hinv.rows hflush (fun current hcurrent => hcurrent.writeBack_same hstatus hrun) hrow
  | enableCommit hcall hwork hflush =>
      refine rowLinked_flush hinv.rows hflush (fun current hcurrent => ?_) hrow
      rcases ScheduleService.setEnabledRow_saved hwork with ⟨rfl, -⟩ | hsaved
      · exact hcurrent.writeBack_same rfl rfl
      · obtain ⟨hstatus, hrun⟩ := lastFire_saved hsaved
        exact hcurrent.writeBack_same hstatus hrun
  | createCommit hcall hcreate hnone =>
      rename_i c stamp now key request runRequest new
      by_cases hid : id = key
      · subst hid
        rw [finish_schedules, AList.lookup_insert] at hrow
        obtain rfl := Option.some.inj hrow
        obtain ⟨hstatus, hrun⟩ := unfired_createRow hcreate
        refine ⟨fun hsuccess => ?_, fun runId hlast => ?_⟩
        · cases hstatus.symm.trans hsuccess
        · cases hrun.symm.trans hlast
      · rw [finish_schedules, AList.lookup_insert_ne hid] at hrow
        exact hinv.rows id row hrow
  | deleteCommit hcall =>
      rename_i c key
      by_cases hid : id = key
      · subst hid
        rw [finish_schedules, AList.lookup_erase] at hrow
        cases hrow
      · rw [finish_schedules, AList.lookup_erase_ne hid] at hrow
        exact hinv.rows id row hrow
  | _ => exact hinv.rows id row hrow

/-- The run of a row in the table of runs, after one has been committed under its own schedule. -/
theorem Linked.runs_insert (h : Linked own w) {new : NewRun} (hnew : NewLinked own id new) {runId key : Uuid}
    {run : Run} (hkey : own runId = some key) (hrun : (w.runs.insert new.runId new.run).lookup runId = some run) :
    run.triggeredBy = some (scheduleTriggerRef key) := by
  by_cases hid : runId = new.runId
  · subst hid
    rw [AList.lookup_insert] at hrun
    obtain rfl := Option.some.inj hrun
    obtain rfl := Option.some.inj (hnew.own.symm.trans hkey)
    exact hnew.triggeredBy
  · rw [AList.lookup_insert_ne hid] at hrun
    exact h.runs _ _ _ hkey hrun

theorem Linked.known_insert (h : Linked own w) {new : NewRun} (hnew : NewLinked own id new) {runId : Uuid}
    {run : Run} (hrun : (w.runs.insert new.runId new.run).lookup runId = some run) : runId ∈ w.issued := by
  by_cases hid : runId = new.runId
  · subst hid
    exact h.issued _ _ hnew.own
  · rw [AList.lookup_insert_ne hid] at hrun
    exact h.known _ _ hrun

theorem newLinked_start {new : NewRun} {started : Instant} (h : NewLinked own id new) :
    NewLinked own id (new.start settings started) := by
  refine ⟨?_, (start_triggeredBy new started).trans h.triggeredBy⟩
  unfold NewRun.start
  split <;> exact h.own

/-- A fire that fails leaves no run behind that is not its own. -/
theorem stageLinked_failedStage {error : Text} {keepsRun : Bool} {stage stage' : FireStage}
    (h : StageLinked own id row stage) (hstage : failedStage settings error keepsRun stage = some stage') :
    StageLinked own id row stage' := by
  have hplain : ∀ rolledBack, StageLinked own id row
      (.recording rolledBack .failed none (some (error.take 500)) none) :=
    fun _ => ⟨nofun, fun _ hrun => (by cases hrun), fun _ hpending => (by cases hpending)⟩
  cases stage with
  | read =>
      obtain rfl := Option.some.inj hstage
      exact hplain _
  | loaded request =>
      obtain rfl := Option.some.inj hstage
      exact hplain _
  | added new =>
      simp only [failedStage] at hstage
      split at hstage
      · split at hstage
        · obtain rfl := Option.some.inj hstage
          refine ⟨nofun, fun _ hrun => (by cases hrun), fun pending hpending => ?_⟩
          obtain rfl := Option.some.inj hpending
          exact h.1
        · obtain rfl := Option.some.inj hstage
          exact hplain _
      · cases hstage
  | recording rolledBack status runId error' pending =>
      cases status with
      | success =>
          obtain rfl := Option.some.inj hstage
          exact hplain _
      | _ => cases hstage

/-- The call that a step moves is linked when its new state is. -/
theorem callLinked_update (hcalls : ∀ c call, w.calls c = some call → CallLinked own call) {c c' : Nat}
    {move : Option Call} {call : Call} (hmove : ∀ call, move = some call → CallLinked own call)
    (hcall : Function.update w.calls c move c' = some call) : CallLinked own call := by
  rcases calls_update hcall with ⟨-, hself⟩ | hother
  · exact hmove call hself
  · exact hcalls c' call hother

theorem callLinked_rest {origin : Origin} {call : Call} (h : origin.rest = some call) :
    CallLinked own call := by
  cases origin <;> cases h
  trivial

/-- A step that issues no run keeps the owners of the runs. -/
theorem calls_step (hinv : Linked own w) (h : Step settings cron w a w')
    (hstore : ∀ c runId createdAt, a ≠ .fireStore c runId createdAt) {c : Nat} {call : Call}
    (hcall : w'.calls c = some call) : CallLinked own call := by
  cases h with
  | fireRead _ hrow =>
      refine callLinked_update hinv.calls (fun call hmove => ?_) hcall
      obtain rfl := Option.some.inj hmove
      exact ⟨(hinv.rows _ _ hrow).own, trivial⟩
  | triggerRead _ hrow =>
      refine callLinked_update hinv.calls (fun call hmove => ?_) hcall
      obtain rfl := Option.some.inj hmove
      exact ⟨(hinv.rows _ _ hrow).own, trivial⟩
  | fireLoad hold _ =>
      refine callLinked_update hinv.calls (fun call hmove => ?_) hcall
      obtain rfl := Option.some.inj hmove
      exact ⟨(hinv.calls _ _ hold).1, trivial⟩
  | fireStore _ _ _ => exact absurd rfl (hstore _ _ _)
  | fireCommit hold _ =>
      refine callLinked_update hinv.calls (fun call hmove => ?_) hcall
      obtain rfl := Option.some.inj hmove
      obtain ⟨hread, hnew, hne⟩ := hinv.calls _ _ hold
      refine ⟨hread, fun _ => rfl, fun r hr => ?_, fun _ hpending => (by cases hpending)⟩
      obtain rfl := Option.some.inj hr
      exact ⟨rfl, hnew.own, hne⟩
  | fireFail hold hstage =>
      refine callLinked_update hinv.calls (fun call hmove => ?_) hcall
      obtain rfl := Option.some.inj hmove
      obtain ⟨hread, hlinked⟩ := hinv.calls _ _ hold
      exact ⟨hread, stageLinked_failedStage hlinked hstage⟩
  | recordCommit _ _ =>
      rw [next_eq] at hcall
      exact callLinked_update hinv.calls (fun call hmove => callLinked_rest hmove) hcall
  | recordInsert _ _ _ =>
      rw [next_eq] at hcall
      exact callLinked_update hinv.calls (fun call hmove => callLinked_rest hmove) hcall
  | setStatus _ => exact hinv.calls _ _ hcall
  | deleteRun => exact hinv.calls _ _ hcall
  | editProfiles => exact hinv.calls _ _ hcall
  | _ =>
      refine callLinked_update hinv.calls (fun call hmove => ?_) hcall
      cases hmove <;> trivial

/-- The runs after a step that issues none. -/
theorem runs_step (hinv : Linked own w) (h : Step settings cron w a w')
    (hstore : ∀ c runId createdAt, a ≠ .fireStore c runId createdAt) :
    w'.issued = w.issued ∧ ∀ runId run, w'.runs.lookup runId = some run → runId ∈ w.issued ∧
      ∀ key, own runId = some key → run.triggeredBy = some (scheduleTriggerRef key) := by
  have hsame : ∀ runId run, w.runs.lookup runId = some run → runId ∈ w.issued ∧
      ∀ key, own runId = some key → run.triggeredBy = some (scheduleTriggerRef key) :=
    fun runId run hrun => ⟨hinv.known runId run hrun, fun key hkey => hinv.runs runId key run hkey hrun⟩
  cases h with
  | fireStore _ _ _ => exact absurd rfl (hstore _ _ _)
  | fireCommit hcall _ =>
      obtain ⟨-, hnew, -⟩ := hinv.calls _ _ hcall
      refine ⟨rfl, fun runId run hrun => ?_⟩
      exact ⟨hinv.known_insert (newLinked_start hnew) hrun,
        fun key hkey => hinv.runs_insert (newLinked_start hnew) hkey hrun⟩
  | recordCommit _ _ =>
      rw [next_eq]
      exact ⟨rfl, hsame⟩
  | recordInsert hcall _ _ =>
      obtain ⟨-, -, -, hpending⟩ := hinv.calls _ _ hcall
      rw [next_eq]
      refine ⟨rfl, fun runId run hrun => ?_⟩
      exact ⟨hinv.known_insert (hpending _ rfl) hrun, fun key hkey => hinv.runs_insert (hpending _ rfl) hkey hrun⟩
  | setStatus hold =>
      rename_i other status old
      refine ⟨rfl, fun runId run hrun => ?_⟩
      by_cases hid : runId = other
      · subst hid
        obtain rfl := Option.some.inj ((AList.lookup_insert _).symm.trans hrun)
        exact hsame runId old hold
      · exact hsame runId run ((AList.lookup_insert_ne hid).symm.trans hrun)
  | deleteRun =>
      rename_i other
      refine ⟨rfl, fun runId run hrun => ?_⟩
      by_cases hid : runId = other
      · subst hid
        cases (AList.lookup_erase _ _).symm.trans hrun
      · exact hsame runId run ((AList.lookup_erase_ne hid).symm.trans hrun)
  | _ => exact ⟨rfl, hsame⟩

/-- A step that issues a run gives it to its schedule, and every other step keeps the owners. -/
theorem linked_step (hinv : Linked own w) (h : Step settings cron w a w') :
    ∃ own', Extends own own' ∧ Linked own' w' := by
  by_cases hstore : ∃ c runId createdAt, a = .fireStore c runId createdAt
  · obtain ⟨c, runId, createdAt, rfl⟩ := hstore
    cases h with
    | fireStore hcall hissued hprofile =>
        rename_i origin id row request profile
        have hextends : Extends own (Function.update own runId (some id)) := by
          intro other key hother
          have hne : other ≠ runId := by
            rintro rfl
            exact hissued (hinv.issued _ _ hother)
          rw [Function.update_of_ne hne]
          exact hother
        refine ⟨Function.update own runId (some id), hextends, ?_⟩
        have hsame : ∀ other ≠ runId, ∀ key, Function.update own runId (some id) other = some key →
            own other = some key := by
          intro other hne key hkey
          rwa [Function.update_of_ne hne] at hkey
        refine ⟨fun other key hkey => ?_, fun other run hrun => ?_, fun other key run hkey hrun => ?_,
          fun other row hrow => (hinv.rows other row hrow).mono hextends, fun c' call hcall' => ?_⟩
        · by_cases hid : other = runId
          · rw [hid]
            exact List.mem_cons_self
          · exact List.mem_cons_of_mem _ (hinv.issued _ _ (hsame other hid key hkey))
        · exact List.mem_cons_of_mem _ (hinv.known other run hrun)
        · have hne : other ≠ runId := by
            rintro rfl
            exact hissued (hinv.known _ _ hrun)
          exact hinv.runs _ _ _ (hsame other hne key hkey) hrun
        · refine callLinked_update (fun c call hold => (hinv.calls c call hold).mono hextends)
            (fun call hmove => ?_) hcall'
          obtain rfl := Option.some.inj hmove
          obtain ⟨hread, -⟩ := hinv.calls _ _ hcall
          refine ⟨fun r hr => hextends _ _ (hread r hr), ⟨Function.update_self _ _ _, rfl⟩, fun hlast => ?_⟩
          exact hissued (hinv.issued _ _ (hread runId hlast))
  · have hnot : ∀ c runId createdAt, a ≠ .fireStore c runId createdAt :=
      fun c runId createdAt ha => hstore ⟨c, runId, createdAt, ha⟩
    obtain ⟨hissued, hruns⟩ := runs_step hinv h hnot
    refine ⟨own, fun _ _ hown => hown, ⟨fun runId key hkey => ?_, fun runId run hrun => ?_,
      fun runId key run hkey hrun => ?_, fun id row hrow => rows_step hinv h hrow,
      fun c call hcall => calls_step hinv h hnot hcall⟩⟩
    · rw [hissued]
      exact hinv.issued runId key hkey
    · rw [hissued]
      exact (hruns runId run hrun).1
    · exact (hruns runId run hrun).2 key hkey

theorem linked_exec {acts : List Act} (hexec : (system settings cron declarative).exec w acts = some w')
    (h : ∃ own, Linked own w) : ∃ own, Linked own w' := by
  refine System.exec_invariant_of_forall (I := fun w => ∃ own, Linked own w) (fun hinv hstep => ?_) h hexec
  obtain ⟨own, hinv⟩ := hinv
  obtain ⟨own', -, hlinked⟩ := linked_step hinv (step_cases hstep)
  exact ⟨own', hlinked⟩

/-- No schedule has fired yet, and the ids of all runs have been issued. -/
structure Unfired (w : World) : Prop where
  quiet : w.Quiet
  known : ∀ runId run, w.runs.lookup runId = some run → runId ∈ w.issued
  rows : ∀ id row, w.schedules.lookup id = some row →
    row.lastFireStatus ≠ some .success ∧ row.lastRunId = none

theorem Unfired.linked (h : Unfired w) : Linked (fun _ => none) w where
  issued _ _ hown := by cases hown
  known := h.known
  runs _ _ _ hown := by cases hown
  rows id row hrow := by
    obtain ⟨hstatus, hrun⟩ := h.rows id row hrow
    exact ⟨fun hsuccess => absurd hsuccess hstatus, fun runId hlast => by cases hrun.symm.trans hlast⟩
  calls c call hcall := by
    rw [h.quiet c] at hcall
    cases hcall

/-- However ticks, manual triggers and edits interleave: a schedule whose last fire succeeded names a run; the
run that a schedule names, unless it has been deleted, was triggered by this schedule; and no other schedule
names it. -/
theorem last_run_is_own (hstart : Unfired w) {acts : List Act}
    (hexec : (system settings cron declarative).exec w acts = some w')
    (hrow : w'.schedules.lookup id = some row) :
    (row.lastFireStatus = some .success → row.lastRunId.isSome = true) ∧
      ∀ runId, row.lastRunId = some runId →
        (∀ run, w'.runs.lookup runId = some run → run.triggeredBy = some (scheduleTriggerRef id)) ∧
        ∀ other row', w'.schedules.lookup other = some row' → row'.lastRunId = some runId → other = id := by
  obtain ⟨own, hlinked⟩ := linked_exec hexec ⟨_, hstart.linked⟩
  refine ⟨(hlinked.rows id row hrow).fired,
    fun runId hlast => ⟨fun run hrun => ?_, fun other row' hother hsame => ?_⟩⟩
  · exact hlinked.runs runId id run ((hlinked.rows id row hrow).own runId hlast) hrun
  · have hid := (hlinked.rows id row hrow).own runId hlast
    have hother := (hlinked.rows other row' hother).own runId hsame
    exact Option.some.inj (hother.symm.trans hid)

theorem unfired_sampleWorld (overlapPolicy : Text) : Unfired (sampleWorld overlapPolicy) where
  quiet := sampleWorld_quiet overlapPolicy
  known _ _ hrun := by cases hrun
  rows id row hrow := by
    by_cases hid : id = 1
    · subst hid
      cases hrow
      exact ⟨nofun, rfl⟩
    · have hnone : (sampleWorld overlapPolicy).schedules.lookup id = none := by
        rw [AList.lookup_eq_none]
        intro hmem
        exact hid (List.mem_singleton.mp hmem)
      cases hnone.symm.trans hrow

/-- A tick fires the schedule, and the row names run 2. -/
theorem last_run_is_own_fired : ∃ w' row,
    sampleSystem.exec (sampleWorld OverlapPolicy.allow)
        (claimAt 0 (seconds 61) :: prepareFire 0 2 (seconds 61) ++
          [.fireCommit 0 (seconds 61), .recordCommit 0]) = some w' ∧
      w'.schedules.lookup 1 = some row ∧ row.lastRunId = some 2 ∧
      ∀ run, w'.runs.lookup 2 = some run → run.triggeredBy = some (scheduleTriggerRef 1) := by
  have hlast : ((sampleSystem.exec (sampleWorld OverlapPolicy.allow)
      (claimAt 0 (seconds 61) :: prepareFire 0 2 (seconds 61) ++
        [.fireCommit 0 (seconds 61), .recordCommit 0])).bind fun w' =>
          (w'.schedules.lookup 1).bind ScheduledRun.lastRunId) = some 2 := by decide
  obtain ⟨w', hexec, hlast⟩ := Option.bind_eq_some_iff.mp hlast
  obtain ⟨row, hrow, hlast⟩ := Option.bind_eq_some_iff.mp hlast
  obtain ⟨-, hown⟩ := last_run_is_own (unfired_sampleWorld _) hexec hrow
  exact ⟨w', row, hexec, hrow, hlast, (hown 2 hlast).1⟩

end PdeOperator.Firing
