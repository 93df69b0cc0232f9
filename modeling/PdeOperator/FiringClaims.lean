import PdeOperator.FiringSteps

/-! The claims that dispatchers have outstanding, and what one step makes of a claim and of a
schedule row. -/

namespace PdeOperator.Firing
open Base

/-- The session may still commit a run. -/
def FireStage.isOpen : FireStage → Bool
  | .read | .loaded _ | .added _ => true
  | .recording _ _ _ _ pending => pending.isSome

/-- The claimed schedules whose rows the tick has still to read. -/
def Call.waiting : Call → List Uuid
  | .firing _ todo => todo
  | .fire (.tick _ todo) _ _ _ => todo
  | _ => []

/-- The claimed schedule whose row the tick has read and whose run it has not committed. -/
def Call.underway : Call → List Uuid
  | .fire (.tick _ _) id _ stage => if stage.isOpen then [id] else []
  | _ => []

theorem underway_tick {now : Instant} {todo : List Uuid} {id : Uuid} {row : ScheduledRun}
    {stage : FireStage} (hopen : stage.isOpen = true) :
    (Call.fire (.tick now todo) id row stage).underway = [id] := by
  simp [Call.underway, hopen]

/-- The claimed schedules that the call may still fire. -/
def Call.claims (call : Call) : List Uuid := call.underway ++ call.waiting

def World.Waiting (w : World) (id : Uuid) : Prop :=
  ∃ c call, w.calls c = some call ∧ id ∈ call.waiting

def World.Underway (w : World) (id : Uuid) : Prop :=
  ∃ c call, w.calls c = some call ∧ id ∈ call.underway

/-- A dispatcher has claimed the schedule and may still fire it. -/
def World.Claimed (w : World) (id : Uuid) : Prop := w.Waiting id ∨ w.Underway id

theorem World.Claimed.of_mem {w : World} {c : Nat} {call : Call} {id : Uuid}
    (hcall : w.calls c = some call) (hid : id ∈ call.claims) : w.Claimed id := by
  rcases List.mem_append.mp hid with hid | hid
  · exact Or.inr ⟨c, call, hcall, hid⟩
  · exact Or.inl ⟨c, call, hcall, hid⟩

theorem World.Claimed.exists_mem {w : World} {id : Uuid} (h : w.Claimed id) :
    ∃ c call, w.calls c = some call ∧ id ∈ call.claims := by
  rcases h with ⟨c, call, hcall, hid⟩ | ⟨c, call, hcall, hid⟩
  · exact ⟨c, call, hcall, List.mem_append_right _ hid⟩
  · exact ⟨c, call, hcall, List.mem_append_left _ hid⟩

theorem World.Quiet.not_claimed {w : World} (h : w.Quiet) (id : Uuid) : ¬w.Claimed id := by
  intro hclaimed
  obtain ⟨c, call, hcall, -⟩ := hclaimed.exists_mem
  rw [h c] at hcall
  cases hcall

section Views

variable (settings : Settings) (cron : CronLibrary)
  {declarative : Uuid → JsonObject → Except ScheduleService.Error CreateRunRequest}
  {w w' : World} {a : Act}

/-- The ids that a claim returns. -/
def claimedIds (w : World) (now : Instant) (locked : Uuid → Bool) : List Uuid :=
  (ScheduleDispatcher.toFire settings cron now w.active (due settings w now locked)).map Prod.fst

variable {settings cron}

/-- A claim returns enabled due rows with their new anchor, and no row of an active schedule whose
policy is `skip`. -/
theorem mem_claimedIds {now : Instant} {locked : Uuid → Bool} {id : Uuid}
    (h : id ∈ claimedIds settings cron w now locked) :
    ∃ row next, (id, row) ∈ due settings w now locked ∧ row.enabled = true ∧
      ¬(row.overlapPolicy = OverlapPolicy.skip ∧ w.active id = true) ∧
      (ScheduleDispatcher.claimRow settings cron now (w.active id) row).1 =
        { row with nextFireAt := some next } := by
  unfold claimedIds ScheduleDispatcher.toFire at h
  rw [List.map_map, List.mem_map] at h
  obtain ⟨⟨id', row⟩, hmem, hid⟩ := h
  cases hid
  rw [List.mem_filter] at hmem
  obtain ⟨-, next, -, -, -, hskip, hrow⟩ := ScheduleDispatcher.claimRow_fires hmem.2
  obtain ⟨-, hdue, -⟩ := ScheduleDispatcher.mem_selectDue hmem.1
  rw [ScheduleDispatcher.isDue, Bool.and_eq_true] at hdue
  exact ⟨row, next, hmem.1, hdue.1, hskip, hrow⟩

theorem nodup_claimedIds (now : Instant) (locked : Uuid → Bool) :
    (claimedIds settings cron w now locked).Nodup := by
  have hdue : ((due settings w now locked).map Prod.fst).Nodup :=
    ScheduleDispatcher.nodup_selectDue settings w.schedules locked now
  unfold claimedIds ScheduleDispatcher.toFire
  rw [List.map_map]
  exact hdue.sublist (List.Sublist.map Prod.fst List.filter_sublist)

variable (settings cron) in
/-- Where the claims of a call come from. -/
inductive ClaimStep (w : World) (a : Act) (c : Nat) (call' : Call) : Prop where
  | idle (h : call'.claims = [])
  | claimed {now locked} (ha : a = .claim c now locked)
      (h : call' = .firing now (claimedIds settings cron w now locked))
  | begun {now id todo row} (ha : a = .fireRead c)
      (hcall : w.calls c = some (.firing now (id :: todo)))
      (hrow : w.schedules.lookup id = some row) (h : call' = .fire (.tick now todo) id row .read)
  | kept {call} (hcall : w.calls c = some call) (hwaiting : call'.waiting.Sublist call.waiting)
      (hunderway : call'.underway.Sublist call.underway)

/-- The calls after a step that moves one call only. -/
theorem calls_update {calls : Nat → Option Call} {c c' : Nat} {move : Option Call} {call' : Call}
    (h : Function.update calls c move c' = some call') :
    (c' = c ∧ move = some call') ∨ calls c' = some call' := by
  by_cases hc : c' = c
  · subst hc
    rw [Function.update_self] at h
    exact Or.inl ⟨rfl, h⟩
  · rw [Function.update_of_ne hc] at h
    exact Or.inr h

theorem ClaimStep.of_calls {c : Nat} {call : Call} (h : w.calls c = some call) :
    ClaimStep settings cron w a c call :=
  .kept h (List.Sublist.refl _) (List.Sublist.refl _)

/-- A step that moves one call, to a state that is justified. -/
theorem ClaimStep.of_update {c c' : Nat} {move : Option Call} {call' : Call}
    (h : Function.update w.calls c move c' = some call')
    (hmove : ∀ call, move = some call → ClaimStep settings cron w a c call) :
    ClaimStep settings cron w a c' call' := by
  rcases calls_update h with ⟨rfl, hself⟩ | hother
  · exact hmove call' hself
  · exact .of_calls hother

theorem waiting_fire (origin origin' : Origin) (id id' : Uuid) (row row' : ScheduledRun)
    (stage stage' : FireStage) (h : origin' = origin) :
    (Call.fire origin' id' row' stage').waiting = (Call.fire origin id row stage).waiting := by
  subst h
  cases origin' <;> rfl

/-- A later stage of the same fire has the same claims, or fewer. -/
theorem ClaimStep.fire {c : Nat} {origin : Origin} {id : Uuid} {row : ScheduledRun}
    {stage stage' : FireStage} (hcall : w.calls c = some (.fire origin id row stage))
    (hopen : stage'.isOpen = true → stage.isOpen = true) :
    ClaimStep settings cron w a c (.fire origin id row stage') := by
  refine .kept hcall ?_ ?_
  · rw [waiting_fire origin origin id id row row stage stage' rfl]
  · cases origin with
    | manual now => exact List.Sublist.refl _
    | tick now todo =>
        unfold Call.underway
        dsimp only
        cases hstage' : stage'.isOpen with
        | false => exact List.nil_sublist _
        | true => rw [hopen hstage']

theorem isOpen_of_failedStage {error : Text} {keepsRun : Bool} {stage stage' : FireStage}
    (h : failedStage settings error keepsRun stage = some stage')
    (hopen : stage'.isOpen = true) : stage.isOpen = true := by
  cases stage with
  | read => rfl
  | loaded request => rfl
  | added new => rfl
  | recording rolledBack status runId error' pending =>
      cases status <;> cases h
      cases hopen

theorem ClaimStep.rest {c : Nat} {origin : Origin} {id : Uuid} {row : ScheduledRun}
    {stage : FireStage} {call' : Call} (hcall : w.calls c = some (.fire origin id row stage))
    (hrest : origin.rest = some call') : ClaimStep settings cron w a c call' := by
  cases origin with
  | manual now => cases hrest
  | tick now todo =>
      cases hrest
      exact .kept hcall (List.Sublist.refl _) (List.nil_sublist _)

theorem claimStep_of_step (h : Step settings cron w a w') {c : Nat} {call' : Call}
    (hcall' : w'.calls c = some call') : ClaimStep settings cron w a c call' := by
  cases h with
  | claim hcall =>
      refine .of_update hcall' fun call hmove => ?_
      cases hmove
      exact .claimed rfl rfl
  | fireRead hcall hrow =>
      refine .of_update hcall' fun call hmove => ?_
      cases hmove
      exact .begun rfl hcall hrow rfl
  | fireSkip hcall hrow =>
      refine .of_update hcall' fun call hmove => ?_
      cases hmove
      exact .kept hcall (List.sublist_cons_self _ _) (List.Sublist.refl _)
  | fireLoad hcall hpayload =>
      refine .of_update hcall' fun call hmove => ?_
      cases hmove
      exact .fire hcall fun _ => rfl
  | fireStore hcall hissued hprofile =>
      refine .of_update hcall' fun call hmove => ?_
      cases hmove
      exact .fire hcall fun _ => rfl
  | fireCommit hcall hrun =>
      refine .of_update hcall' fun call hmove => ?_
      cases hmove
      exact .fire hcall fun _ => rfl
  | fireFail hcall hstage =>
      refine .of_update hcall' fun call hmove => ?_
      cases hmove
      exact .fire hcall (isOpen_of_failedStage hstage)
  | recordCommit hcall hflush =>
      rw [next_eq] at hcall'
      exact .of_update hcall' fun call hmove => .rest hcall hmove
  | recordInsert hcall hflush hrun =>
      rw [next_eq] at hcall'
      exact .of_update hcall' fun call hmove => .rest hcall hmove
  | setStatus hrun => exact .of_calls hcall'
  | deleteRun => exact .of_calls hcall'
  | editProfiles => exact .of_calls hcall'
  | _ =>
      -- the call has no claims, or it has ended
      refine .of_update hcall' fun call hmove => ?_
      cases hmove <;> exact .idle rfl

/-- A call has a claim after a step because it had it before, or because it is the tick that has
just claimed. -/
theorem mem_claims_of_step (h : Step settings cron w a w') {c : Nat} {call' : Call} {id : Uuid}
    (hcall' : w'.calls c = some call') (hid : id ∈ call'.claims) :
    (∃ call, w.calls c = some call ∧ id ∈ call.claims) ∨
      ∃ now locked, a = .claim c now locked ∧ id ∈ claimedIds settings cron w now locked := by
  cases claimStep_of_step h hcall' with
  | idle hnone =>
      rw [hnone] at hid
      cases hid
  | claimed ha hnew =>
      subst hnew
      exact Or.inr ⟨_, _, ha, hid⟩
  | begun ha hcall hrow hnew =>
      subst hnew
      exact Or.inl ⟨_, hcall, hid⟩
  | kept hcall hwaiting hunderway =>
      exact Or.inl ⟨_, hcall, (hunderway.append hwaiting).subset hid⟩

theorem claimed_of_step (h : Step settings cron w a w') {id : Uuid} (hclaimed : w'.Claimed id) :
    w.Claimed id ∨ ∃ c now locked, a = .claim c now locked ∧
      id ∈ claimedIds settings cron w now locked := by
  obtain ⟨c, call', hcall', hid⟩ := hclaimed.exists_mem
  rcases mem_claims_of_step h hcall' hid with ⟨call, hcall, hold⟩ | ⟨now, locked, ha, hmem⟩
  · exact Or.inl (World.Claimed.of_mem hcall hold)
  · exact Or.inr ⟨c, now, locked, ha, hmem⟩

/-- A tick commits a run only for a schedule whose fire is under way. -/
theorem underway_of_inserts {now : Instant} {todo : List Uuid} {id : Uuid} {new : NewRun}
    (h : inserts w a = some (.tick now todo, id, new)) : w.Underway id := by
  unfold inserts at h
  split at h
  · split at h
    · next hcall =>
      cases h
      exact ⟨_, _, hcall, List.mem_singleton_self _⟩
    · cases h
  · split at h
    · next hcall =>
      cases h
      exact ⟨_, _, hcall, List.mem_singleton_self _⟩
    · cases h
  · cases h

/-- Two versions of a row with the same run parameters and policy. -/
structure SameParams (row row' : ScheduledRun) : Prop where
  overlapPolicy : row'.overlapPolicy = row.overlapPolicy
  profileId : row'.profileId = row.profileId
  pdeImage : row'.pdeImage = row.pdeImage
  envVars : row'.envVars = row.envVars

theorem SameParams.rfl {row : ScheduledRun} : SameParams row row :=
  ⟨Eq.refl _, Eq.refl _, Eq.refl _, Eq.refl _⟩

/-- Writing back a copy whose parameters the session has not changed leaves them as they are. -/
theorem SameParams.writeBack {read work current : ScheduledRun} (h : SameParams read work) :
    SameParams current (writeBack read work current) := by
  obtain ⟨hpolicy, hprofile, himage, henv⟩ := h
  refine ⟨?_, ?_, ?_, ?_⟩
  · rw [ScheduledRun.writeBack_overlapPolicy, hpolicy, column_clean]
  · rw [ScheduledRun.writeBack_profileId, hprofile, column_clean]
  · rw [ScheduledRun.writeBack_pdeImage, himage, column_clean]
  · rw [ScheduledRun.writeBack_envVars, henv, column_clean]

theorem sameParams_claimRow (now : Instant) (isActive : Bool) (row : ScheduledRun) :
    SameParams row (ScheduleDispatcher.claimRow settings cron now isActive row).1 := by
  unfold ScheduleDispatcher.claimRow
  split
  · exact ⟨rfl, rfl, rfl, rfl⟩
  · split
    · exact ⟨rfl, rfl, rfl, rfl⟩
    · split
      · exact ⟨rfl, rfl, rfl, rfl⟩
      · split <;> exact ⟨rfl, rfl, rfl, rfl⟩

theorem sameParams_saved {base row : ScheduledRun} {stamp now : Instant} {enabled : Bool}
    (h : ScheduleService.RowSaved cron base stamp now enabled row) : SameParams base row := by
  cases h <;> exact ⟨rfl, rfl, rfl, rfl⟩

theorem setEnabledRow_ok {enabled : Bool} {stamp now : Instant} {row work : ScheduledRun}
    (h : ScheduleService.setEnabledRow cron enabled stamp now row = .ok work) :
    SameParams row work ∧ work.enabled = enabled := by
  rcases ScheduleService.setEnabledRow_saved h with ⟨rfl, hsame⟩ | hsaved
  · exact ⟨SameParams.rfl, hsame⟩
  · exact ⟨sameParams_saved hsaved, hsaved.enabled_eq⟩

/-- `update_schedule` makes the row that the request describes. -/
theorem updateRow_ok {request : UpdateScheduledRunRequest} {runRequest : CreateRunRequest}
    {stamp now : Instant} {row work : ScheduledRun}
    (h : ScheduleService.updateRow cron request runRequest stamp now row = .ok work) :
    work.enabled = request.enabled ∧
      SameParams (ScheduleService.applyRequest request.toScheduledRunBase runRequest row) work :=
  have hsaved := ScheduleService.updateRow_saved h
  ⟨hsaved.enabled_eq, sameParams_saved hsaved⟩

theorem createRow_ok {request : CreateScheduledRunRequest} {runRequest : CreateRunRequest}
    {stamp now : Instant} {row : ScheduledRun}
    (h : ScheduleService.createRow cron request runRequest stamp now = .ok row) :
    row.enabled = request.enabled ∧ row.overlapPolicy = request.overlapPolicy ∧
      row.profileId = runRequest.profileId ∧
      row.pdeImage = ScheduleService.normalizeImage runRequest.pdeImage ∧
      row.envVars = runRequest.envVars := by
  obtain ⟨blank, -, hsaved⟩ := ScheduleService.createRow_saved h
  obtain ⟨hpolicy, hprofile, himage, henv⟩ := sameParams_saved hsaved
  exact ⟨hsaved.enabled_eq, hpolicy, hprofile, himage, henv⟩

variable (settings cron) in
/-- The row of a schedule after a step. -/
inductive Edit (w : World) (a : Act) (id : Uuid) : Option ScheduledRun → Prop where
  | same : Edit w a id (w.schedules.lookup id)
  | claimed {c now locked row} (ha : a = .claim c now locked)
      (hdue : (id, row) ∈ due settings w now locked) :
      Edit w a id (some (ScheduleDispatcher.claimRow settings cron now (w.active id) row).1)
  | recorded {current row'} (hrow : w.schedules.lookup id = some current)
      (hparams : SameParams current row') (henabled : row'.enabled = current.enabled) :
      Edit w a id (some row')
  | updated {c stamp now request row runRequest work current} (ha : a = .updateCommit c stamp now)
      (hcall : w.calls c = some (.updating id request row (.stored runRequest)))
      (hwork : ScheduleService.updateRow cron request runRequest stamp now row = .ok work)
      (hrow : w.schedules.lookup id = some current) :
      Edit w a id (some (writeBack row work current))
  | enabled {c stamp now enabled row work current} (ha : a = .enableCommit c stamp now)
      (hcall : w.calls c = some (.enabling id enabled row))
      (hwork : ScheduleService.setEnabledRow cron enabled stamp now row = .ok work)
      (hrow : w.schedules.lookup id = some current) :
      Edit w a id (some (writeBack row work current))
  | deleted {c} (ha : a = .deleteCommit c) (hcall : w.calls c = some (.deleting id true)) :
      Edit w a id none
  | created {c stamp now request runRequest row} (ha : a = .createCommit c stamp now)
      (hcall : w.calls c = some (.creating id request runRequest true))
      (hcreate : ScheduleService.createRow cron request runRequest stamp now = .ok row)
      (hrow : w.schedules.lookup id = none) : Edit w a id (some row)

/-- A flush writes one row. -/
theorem edit_flush {id key : Uuid} {read work : ScheduledRun} {schedules : Table Uuid ScheduledRun}
    (hflush : w.schedules.flush ⟨key, read, work⟩ = some schedules)
    (hself : ∀ current, w.schedules.lookup key = some current →
      Edit settings cron w a key (some (writeBack read work current))) :
    Edit settings cron w a id (schedules.lookup id) := by
  by_cases hid : id = key
  · subst hid
    have hlookup : schedules.lookup id = (w.schedules.lookup id).map (writeBack read work) :=
      Table.lookup_flush_self hflush
    cases hrow : w.schedules.lookup id with
    | none =>
        rw [hlookup, hrow, Option.map_none, ← hrow]
        exact .same
    | some current =>
        rw [hlookup, hrow, Option.map_some]
        exact hself current hrow
  · rw [Table.lookup_flush_of_ne hflush hid]
    exact .same

theorem edit_record {id key : Uuid} {base : ScheduledRun} {now : Instant} {status : FireStatus}
    {runId : Option Uuid} {error : Option Text} {schedules : Table Uuid ScheduledRun}
    (hflush : w.schedules.flush
      ⟨key, base, ScheduleService.applyFireResult now status runId error base⟩ = some schedules) :
    Edit settings cron w a id (schedules.lookup id) := by
  apply edit_flush hflush
  intro current hrow
  have hsame : SameParams base (ScheduleService.applyFireResult now status runId error base) :=
    ⟨rfl, rfl, rfl, rfl⟩
  refine .recorded hrow hsame.writeBack ?_
  rw [ScheduledRun.writeBack_enabled]
  exact column_clean _ _

theorem edit_of_step (h : Step settings cron w a w') (id : Uuid) :
    Edit settings cron w a id (w'.schedules.lookup id) := by
  cases h with
  | claim hcall =>
      rename_i c now locked
      rcases ScheduleDispatcher.lookup_claimedTable_cases
        (ScheduleDispatcher.nodup_selectDue settings w.schedules locked now) id with
        ⟨-, hsame⟩ | ⟨row, hmem, hclaimed⟩
      · change Edit settings cron w _ id
          ((ScheduleDispatcher.claimedTable settings cron now w.active _ w.schedules).lookup id)
        rw [due, hsame]
        exact .same
      · change Edit settings cron w _ id
          ((ScheduleDispatcher.claimedTable settings cron now w.active _ w.schedules).lookup id)
        rw [due, hclaimed]
        exact .claimed rfl hmem
  | recordCommit hcall hflush =>
      rw [next_eq]
      exact edit_record hflush
  | recordInsert hcall hflush hrun =>
      rw [next_eq]
      exact edit_record hflush
  | updateCommit hcall hwork hflush =>
      exact edit_flush hflush fun current hrow => .updated rfl hcall hwork hrow
  | enableCommit hcall hwork hflush =>
      exact edit_flush hflush fun current hrow => .enabled rfl hcall hwork hrow
  | createCommit hcall hcreate hrow =>
      rename_i c stamp now key request runRequest row
      by_cases hid : id = key
      · subst hid
        rw [finish_schedules, AList.lookup_insert]
        exact .created rfl hcall hcreate hrow
      · rw [finish_schedules, AList.lookup_insert_ne hid]
        exact .same
  | deleteCommit hcall =>
      rename_i c key
      by_cases hid : id = key
      · subst hid
        rw [finish_schedules, AList.lookup_erase]
        exact .deleted rfl hcall
      · rw [finish_schedules, AList.lookup_erase_ne hid]
        exact .same
  | _ => exact .same

/-- The row of a schedule that a claim has just returned. -/
theorem claimed_row {c : Nat} {now : Instant} {locked : Uuid → Bool} {id : Uuid}
    (h : Step settings cron w (.claim c now locked) w')
    (hid : id ∈ claimedIds settings cron w now locked) :
    ∃ row next, w.schedules.lookup id = some row ∧ row.enabled = true ∧
      ¬(row.overlapPolicy = OverlapPolicy.skip ∧ w.active id = true) ∧
      w'.schedules.lookup id = some { row with nextFireAt := some next } := by
  obtain ⟨row, next, hdue, henabled, hskip, hclaimed⟩ := mem_claimedIds hid
  obtain ⟨hlookup, -⟩ := ScheduleDispatcher.mem_selectDue hdue
  refine ⟨row, next, hlookup, henabled, hskip, ?_⟩
  cases h with
  | claim hcall =>
      rw [← hclaimed]
      exact ScheduleDispatcher.lookup_claimedTable_of_mem
        (ScheduleDispatcher.nodup_selectDue settings w.schedules locked now) hdue

end Views

end PdeOperator.Firing
