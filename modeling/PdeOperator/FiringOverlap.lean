import PdeOperator.FiringClaims

/-! The overlap policy `skip`: a claim checks it, the fire that follows does not. One active run at a
time is kept as long as a schedule is claimed by one tick at a time, and its policy and its ended
runs stay as they are until that tick has fired. -/

namespace PdeOperator.Firing
open Base

/-- A run of the schedule that has not ended and that no manual trigger has made. -/
def World.Active (w : World) (scheduleId runId : Uuid) : Prop :=
  ∃ run, w.runs.lookup runId = some run ∧
    run.triggeredBy = some (scheduleTriggerRef scheduleId) ∧ run.isTerminal = false ∧
    runId ∉ w.manual

/-- A dispatcher commits a run for a schedule with the policy `skip` only when no other run of it is
active. -/
def FiresAlone (w : World) (a : Act) : Prop :=
  ∀ now todo id new row, inserts w a = some (.tick now todo, id, new) →
    w.schedules.lookup id = some row → row.overlapPolicy = OverlapPolicy.skip →
    ∀ runId, ¬w.Active id runId

section Overlap

variable (settings : Settings) (cron : CronLibrary)
  {declarative : Uuid → JsonObject → Except ScheduleService.Error CreateRunRequest}
  {w w' : World} {a : Act}

/-- While a schedule is claimed, no other tick claims it, its policy is not switched to `skip` and
none of its runs that have ended is taken up again. -/
def KeepsTurn (w : World) : Act → Prop
  | .claim _ now locked => ∀ id ∈ claimedIds settings cron w now locked, ¬w.Claimed id
  | .updateCommit c _ _ => ∀ id request row runRequest current,
      w.calls c = some (.updating id request row (.stored runRequest)) →
      w.schedules.lookup id = some current → current.overlapPolicy ≠ OverlapPolicy.skip →
      request.overlapPolicy = OverlapPolicy.skip → ¬w.Claimed id
  | .createCommit c _ _ => ∀ id request runRequest,
      w.calls c = some (.creating id request runRequest true) →
      request.overlapPolicy = OverlapPolicy.skip → ¬w.Claimed id
  | .setStatus runId status => ∀ id run, w.runs.lookup runId = some run →
      run.triggeredBy = some (scheduleTriggerRef id) → run.isTerminal = true →
      status ∉ terminalStatuses → runId ∉ w.manual → ¬w.Claimed id
  | _ => True

/-- The run that the next commit of a fire may insert. -/
def FireStage.pending : FireStage → Option NewRun
  | .added new => some new
  | .recording _ _ _ _ pending => pending
  | _ => none

/-- One tick at a time has a schedule claimed, and a claimed schedule with the policy `skip` has no
active run. -/
structure Turns (w : World) : Prop where
  nodup : ∀ c call, w.calls c = some call → call.claims.Nodup
  unique : ∀ c c' call call' id, w.calls c = some call → w.calls c' = some call' →
    id ∈ call.claims → id ∈ call'.claims → c = c'
  tagged : ∀ c origin id row stage new, w.calls c = some (.fire origin id row stage) →
    stage.pending = some new → new.run.triggeredBy = some (scheduleTriggerRef id)
  alone : ∀ id, w.Claimed id → ∀ row, w.schedules.lookup id = some row →
    row.overlapPolicy = OverlapPolicy.skip → ∀ runId, ¬w.Active id runId

theorem World.Quiet.turns (h : w.Quiet) : Turns w where
  nodup c call hcall := by
    rw [h c] at hcall
    cases hcall
  unique c c' call call' id hcall := by
    rw [h c] at hcall
    cases hcall
  tagged c origin id row stage new hcall := by
    rw [h c] at hcall
    cases hcall
  alone id hid := absurd hid (h.not_claimed id)

variable {settings cron}

theorem not_active_of_claimable {id : Uuid} (h : w.active id = false) (runId : Uuid) :
    ¬w.Active id runId := by
  rintro ⟨run, hrun, href, hterminal, -⟩
  rw [World.active, Bool.not_eq_false', List.isEmpty_iff] at h
  have hmem : (runId, run) ∈ w.runs.select fun _ run =>
      run.triggeredBy == some (scheduleTriggerRef id) && !run.isTerminal := by
    rw [Table.mem_select]
    exact ⟨hrun, by simp [href, hterminal]⟩
  rw [h] at hmem
  cases hmem

theorem start_triggeredBy (new : NewRun) (started : Instant) :
    (new.start settings started).run.triggeredBy = new.run.triggeredBy := by
  unfold NewRun.start
  split <;> rfl

/-- A run inserted for a schedule is active for no other, and not at all when it was triggered
manually. -/
theorem active_insertRun {origin : Origin} {id id' runId : Uuid} {new : NewRun}
    (htag : new.run.triggeredBy = some (scheduleTriggerRef id))
    (h : (w.insertRun origin new).Active id' runId) :
    w.Active id' runId ∨ (id' = id ∧ ∃ now todo, origin = .tick now todo) := by
  obtain ⟨run, hrun, href, hterminal, hmanual⟩ := h
  rw [insertRun_runs] at hrun
  by_cases hid : runId = new.runId
  · subst hid
    rw [AList.lookup_insert, Option.some.injEq] at hrun
    subst hrun
    rw [htag, Option.some.injEq] at href
    cases origin with
    | manual now => exact absurd List.mem_cons_self hmanual
    | tick now todo => exact Or.inr ⟨(scheduleTriggerRef_injective href).symm, now, todo, rfl⟩
  · rw [AList.lookup_insert_ne hid] at hrun
    refine Or.inl ⟨run, hrun, href, hterminal, fun hmem => hmanual ?_⟩
    cases origin with
    | manual now => exact List.mem_cons_of_mem _ hmem
    | tick now todo => exact hmem

/-- A run is active after a step because it was active before, or has been taken up again, or a tick
has just committed it. -/
theorem active_of_step (hinv : Turns w) (h : Step settings cron w a w') {id runId : Uuid}
    (hactive : w'.Active id runId) :
    w.Active id runId ∨
      (∃ status run, a = .setStatus runId status ∧ w.runs.lookup runId = some run ∧
        run.triggeredBy = some (scheduleTriggerRef id) ∧ run.isTerminal = true ∧
        status ∉ terminalStatuses ∧ runId ∉ w.manual) ∨
      ∃ now todo new, inserts w a = some (.tick now todo, id, new) := by
  cases h with
  | fireCommit hcall hrun =>
      have htag := hinv.tagged _ _ _ _ _ _ hcall rfl
      rcases active_insertRun ((start_triggeredBy _ _).trans htag) hactive with
        hold | ⟨rfl, now, todo, rfl⟩
      · exact Or.inl hold
      · exact Or.inr (Or.inr ⟨now, todo, _, by rw [inserts, hcall]⟩)
  | recordInsert hcall hflush hrun =>
      rw [next_eq] at hactive
      have htag := hinv.tagged _ _ _ _ _ _ hcall rfl
      rcases active_insertRun htag hactive with hold | ⟨rfl, now, todo, rfl⟩
      · exact Or.inl hold
      · exact Or.inr (Or.inr ⟨now, todo, _, by rw [inserts, hcall]⟩)
  | recordCommit hcall hflush =>
      rw [next_eq] at hactive
      exact Or.inl hactive
  | setStatus hrun =>
      rename_i key status run
      obtain ⟨run', hrun', href, hterminal, hmanual⟩ := hactive
      by_cases hid : runId = key
      · subst hid
        dsimp only at hrun'
        rw [AList.lookup_insert, Option.some.injEq] at hrun'
        subst hrun'
        cases hbefore : run.isTerminal with
        | false => exact Or.inl ⟨run, hrun, href, hbefore, hmanual⟩
        | true =>
            exact Or.inr (Or.inl ⟨status, run, rfl, hrun, href, hbefore,
              of_decide_eq_false hterminal, hmanual⟩)
      · dsimp only at hrun'
        rw [AList.lookup_insert_ne hid] at hrun'
        exact Or.inl ⟨run', hrun', href, hterminal, hmanual⟩
  | deleteRun =>
      rename_i key
      obtain ⟨run, hrun, hrest⟩ := hactive
      by_cases hid : runId = key
      · subst hid
        dsimp only at hrun
        rw [AList.lookup_erase] at hrun
        cases hrun
      · dsimp only at hrun
        rw [AList.lookup_erase_ne hid] at hrun
        exact Or.inl ⟨run, hrun, hrest⟩
  | _ => exact Or.inl hactive

theorem nodup_step (hinv : Turns w) (h : Step settings cron w a w') {c : Nat} {call' : Call}
    (hcall' : w'.calls c = some call') : call'.claims.Nodup := by
  cases claimStep_of_step h hcall' with
  | idle hnone =>
      rw [hnone]
      exact List.nodup_nil
  | claimed ha hnew =>
      subst hnew
      exact nodup_claimedIds _ _
  | begun ha hcall hrow hnew =>
      subst hnew
      have hnodup := hinv.nodup c _ hcall
      exact hnodup
  | kept hcall hwaiting hunderway =>
      exact (hinv.nodup c _ hcall).sublist (hunderway.append hwaiting)

theorem unique_step (hinv : Turns w) (hok : KeepsTurn settings cron w a)
    (h : Step settings cron w a w') {c c' : Nat} {call call' : Call} {id : Uuid}
    (hcall : w'.calls c = some call) (hcall' : w'.calls c' = some call')
    (hid : id ∈ call.claims) (hid' : id ∈ call'.claims) : c = c' := by
  rcases mem_claims_of_step h hcall hid with ⟨old, hold, hmem⟩ | ⟨now, locked, rfl, hmem⟩
  · rcases mem_claims_of_step h hcall' hid' with ⟨old', hold', hmem'⟩ | ⟨now, locked, rfl, hmem'⟩
    · exact hinv.unique c c' old old' id hold hold' hmem hmem'
    · exact absurd (World.Claimed.of_mem hold hmem) (hok id hmem')
  · rcases mem_claims_of_step h hcall' hid' with ⟨old', hold', hmem'⟩ | ⟨now', locked', ha, hmem'⟩
    · exact absurd (World.Claimed.of_mem hold' hmem') (hok id hmem)
    · cases ha
      rfl

theorem pending_of_failedStage {error : Text} {keepsRun : Bool} {stage stage' : FireStage}
    {new : NewRun} (h : failedStage settings error keepsRun stage = some stage')
    (hpending : stage'.pending = some new) : stage.pending = some new := by
  cases stage with
  | read =>
      cases h
      cases hpending
  | loaded request =>
      cases h
      cases hpending
  | added new' =>
      simp only [failedStage] at h
      split at h
      · split at h
        · cases h
          exact hpending
        · cases h
          cases hpending
      · cases h
  | recording rolledBack status runId error' pending =>
      cases status <;> cases h
      cases hpending

theorem tagged_step (hinv : Turns w) (h : Step settings cron w a w') {c : Nat} {origin : Origin}
    {id : Uuid} {row : ScheduledRun} {stage : FireStage} {new : NewRun}
    (hcall' : w'.calls c = some (.fire origin id row stage)) (hpending : stage.pending = some new) :
    new.run.triggeredBy = some (scheduleTriggerRef id) := by
  cases h with
  | fireStore hcall hissued hprofile =>
      rcases calls_update hcall' with ⟨rfl, hmove⟩ | hold
      · cases hmove
        cases hpending
        rfl
      · exact hinv.tagged _ _ _ _ _ _ hold hpending
  | fireFail hcall hstage =>
      rcases calls_update hcall' with ⟨rfl, hmove⟩ | hold
      · cases hmove
        exact hinv.tagged _ _ _ _ _ _ hcall (pending_of_failedStage hstage hpending)
      · exact hinv.tagged _ _ _ _ _ _ hold hpending
  | recordCommit hcall hflush =>
      rw [next_eq] at hcall'
      rcases calls_update hcall' with ⟨rfl, hmove⟩ | hold
      · rename_i origin' _ _ _ _ _ _ _
        cases origin' <;> cases hmove
      · exact hinv.tagged _ _ _ _ _ _ hold hpending
  | recordInsert hcall hflush hrun =>
      rw [next_eq] at hcall'
      rcases calls_update hcall' with ⟨rfl, hmove⟩ | hold
      · rename_i origin' _ _ _ _ _ _ _ _
        cases origin' <;> cases hmove
      · exact hinv.tagged _ _ _ _ _ _ hold hpending
  | setStatus hrun => exact hinv.tagged _ _ _ _ _ _ hcall' hpending
  | deleteRun => exact hinv.tagged _ _ _ _ _ _ hcall' hpending
  | editProfiles => exact hinv.tagged _ _ _ _ _ _ hcall' hpending
  | _ =>
      rcases calls_update hcall' with ⟨rfl, hmove⟩ | hold
      · cases hmove <;> cases hpending
      · exact hinv.tagged _ _ _ _ _ _ hold hpending

/-- A tick that has committed the run of a schedule has done with its claim, and no other tick has
one. -/
theorem not_claimed_of_done (hinv : Turns w) {c : Nat} {now : Instant} {todo : List Uuid} {id : Uuid}
    {row : ScheduledRun} {stage : FireStage} {call' : Call}
    (hcall : w.calls c = some (.fire (.tick now todo) id row stage)) (hopen : stage.isOpen = true)
    (hcalls : w'.calls = Function.update w.calls c (some call')) (hclaims : call'.claims = todo) :
    ¬w'.Claimed id := by
  have hold : (Call.fire (.tick now todo) id row stage).claims = id :: todo := by
    rw [Call.claims, underway_tick hopen]
    rfl
  intro hclaimed
  obtain ⟨c', other, hother, hid⟩ := hclaimed.exists_mem
  rw [hcalls] at hother
  by_cases hc : c' = c
  · subst hc
    rw [Function.update_self, Option.some.injEq] at hother
    rw [← hother, hclaims] at hid
    have hnodup := hinv.nodup _ _ hcall
    rw [hold, List.nodup_cons] at hnodup
    exact hnodup.1 hid
  · rw [Function.update_of_ne hc] at hother
    have hmem : id ∈ (Call.fire (.tick now todo) id row stage).claims := by
      rw [hold]
      exact List.mem_cons_self
    exact hc (hinv.unique c' c _ _ id hother hcall hid hmem)

theorem not_claimed_of_inserts (hinv : Turns w) (h : Step settings cron w a w') {now : Instant}
    {todo : List Uuid} {id : Uuid} {new : NewRun}
    (hins : inserts w a = some (.tick now todo, id, new)) : ¬w'.Claimed id := by
  cases h with
  | fireCommit hcall hrun =>
      rw [inserts, hcall] at hins
      cases hins
      exact not_claimed_of_done hinv hcall rfl rfl rfl
  | recordCommit hcall hflush =>
      rw [inserts, hcall] at hins
      cases hins
  | recordInsert hcall hflush hrun =>
      rw [inserts, hcall] at hins
      cases hins
      exact not_claimed_of_done hinv hcall rfl rfl rfl
  | _ => cases hins

/-- While a schedule is claimed its policy does not become `skip`. -/
theorem skip_edit {id : Uuid} {after : Option ScheduledRun}
    (hedit : Edit settings cron w a id after) (hok : KeepsTurn settings cron w a)
    (hclaimed : w.Claimed id) {row' : ScheduledRun} (hafter : after = some row')
    (hskip : row'.overlapPolicy = OverlapPolicy.skip) :
    ∃ row, w.schedules.lookup id = some row ∧ row.overlapPolicy = OverlapPolicy.skip := by
  cases hedit with
  | same => exact ⟨row', hafter, hskip⟩
  | claimed ha hdue =>
      cases hafter
      obtain ⟨hlookup, -⟩ := ScheduleDispatcher.mem_selectDue hdue
      exact ⟨_, hlookup, (sameParams_claimRow _ _ _).overlapPolicy.symm.trans hskip⟩
  | recorded hrow hparams henabled =>
      cases hafter
      exact ⟨_, hrow, hparams.overlapPolicy.symm.trans hskip⟩
  | @updated c stamp now request read runRequest work current ha hcall hwork hrow =>
      subst ha
      cases hafter
      refine ⟨_, hrow, ?_⟩
      by_contra hother
      have hpolicy := (updateRow_ok hwork).2.overlapPolicy
      rw [ScheduledRun.writeBack_overlapPolicy, hpolicy] at hskip
      rcases column_eq_or read.overlapPolicy request.overlapPolicy current.overlapPolicy with
        hkept | hwritten
      · exact hother (hkept.symm.trans hskip)
      · exact hok id _ _ _ _ hcall hrow hother (hwritten.symm.trans hskip) hclaimed
  | enabled ha hcall hwork hrow =>
      cases hafter
      exact ⟨_, hrow, (setEnabledRow_ok hwork).1.writeBack.overlapPolicy.symm.trans hskip⟩
  | deleted ha hcall => cases hafter
  | created ha hcall hcreate hrow =>
      subst ha
      cases hafter
      exact absurd hclaimed (hok id _ _ hcall ((createRow_ok hcreate).2.1.symm.trans hskip))

theorem alone_step (hinv : Turns w) (hok : KeepsTurn settings cron w a)
    (h : Step settings cron w a w') {id : Uuid} (hclaimed' : w'.Claimed id) {row' : ScheduledRun}
    (hrow' : w'.schedules.lookup id = some row') (hskip : row'.overlapPolicy = OverlapPolicy.skip)
    (runId : Uuid) : ¬w'.Active id runId := by
  intro hactive
  rcases claimed_of_step h hclaimed' with hclaimed | ⟨c, now, locked, rfl, hmem⟩
  · obtain ⟨row, hrow, hbefore⟩ := skip_edit (edit_of_step h id) hok hclaimed hrow' hskip
    rcases active_of_step hinv h hactive with
      hold | ⟨status, run, rfl, hrun, href, hterminal, hstatus, hmanual⟩ | ⟨now, todo, new, hins⟩
    · exact hinv.alone id hclaimed row hrow hbefore runId hold
    · exact hok id run hrun href hterminal hstatus hmanual hclaimed
    · exact not_claimed_of_inserts hinv h hins hclaimed'
  · -- the tick has just looked at the runs of the schedule
    obtain ⟨row, next, hrow, -, hheld, hafter⟩ := claimed_row h hmem
    rw [hafter, Option.some.injEq] at hrow'
    subst hrow'
    have hidle : w.active id = false := Bool.eq_false_iff.mpr fun hactive => hheld ⟨hskip, hactive⟩
    cases h with
    | claim hcall => exact not_active_of_claimable hidle runId hactive

theorem turns_step (hinv : Turns w) (hok : KeepsTurn settings cron w a)
    (h : Step settings cron w a w') : Turns w' where
  nodup _ _ hcall := nodup_step hinv h hcall
  unique _ _ _ _ _ hcall hcall' hid hid' := unique_step hinv hok h hcall hcall' hid hid'
  tagged _ _ _ _ _ _ hcall hpending := tagged_step hinv h hcall hpending
  alone _ hid _ hrow hskip runId := alone_step hinv hok h hid hrow hskip runId

/-- If schedules are claimed in turn, a schedule with the policy `skip` has one active run at a
time. -/
theorem skip_fires_alone (settings : Settings) (cron : CronLibrary)
    (declarative : Uuid → JsonObject → Except ScheduleService.Error CreateRunRequest) {w : World}
    {acts : List Act} (hquiet : w.Quiet)
    (hok : (system settings cron declarative).Meets (KeepsTurn settings cron) w acts) :
    (system settings cron declarative).Meets FiresAlone w acts := by
  refine System.Meets.of_invariant (I := Turns) ?_ ?_ hquiet.turns hok
  · intro w a w' hinv hok hstep
    exact turns_step hinv hok (step_cases hstep)
  · intro w a hinv hok now todo id new row hins hrow hskip
    exact hinv.alone id (Or.inr (underway_of_inserts hins)) row hrow hskip

theorem skip_fires_alone_claimedOnce :
    (sampleSystem.exec (sampleWorld OverlapPolicy.skip)
        (claimAt 0 (seconds 61) :: prepareFire 0 2 (seconds 61) ++
          [.fireCommit 0 (seconds 61)])).isSome = true ∧
      sampleSystem.Meets FiresAlone (sampleWorld OverlapPolicy.skip)
        (claimAt 0 (seconds 61) :: prepareFire 0 2 (seconds 61) ++
          [.fireCommit 0 (seconds 61)]) := by
  have hquiet := sampleWorld_quiet OverlapPolicy.skip
  refine ⟨by decide, skip_fires_alone {} everyMinute noTemplates hquiet ⟨?_, fun w _ => ?_⟩⟩
  · intro id _
    exact hquiet.not_claimed id
  · exact ⟨trivial, fun _ _ => ⟨trivial, fun _ _ => ⟨trivial, fun _ _ => ⟨trivial, fun _ _ =>
      trivial⟩⟩⟩⟩

/-- Two ticks claim consecutive occurrences of a schedule; the first of them commits its run and the
second is about to. -/
def claimTwice : List Act :=
  [claimAt 0 (seconds 61), claimAt 1 (seconds 121)] ++ prepareFire 0 2 (seconds 121) ++
    .fireCommit 0 (seconds 121) :: prepareFire 1 3 (seconds 121)

/-- Two ticks that have claimed a schedule one after the other fire it one on top of the other. -/
theorem claimed_twice_overlaps :
    ∃ w acts, w.Quiet ∧ (sampleSystem.exec w acts).isSome = true ∧
      ¬sampleSystem.Meets FiresAlone w acts := by
  have hfire : (sampleSystem.exec (sampleWorld OverlapPolicy.skip) claimTwice).map (fun u =>
      ((inserts u (.fireCommit 1 (seconds 121))).map fun x => (x.1, x.2.1),
        (u.schedules.lookup 1).map ScheduledRun.overlapPolicy)) =
      some (some (.tick (seconds 121) [], 1), some OverlapPolicy.skip) := by
    decide
  have hruns : (sampleSystem.exec (sampleWorld OverlapPolicy.skip) claimTwice).map (fun u =>
      ((u.runs.lookup 2).map fun run => (run.triggeredBy, run.isTerminal), u.manual)) =
      some (some (some (scheduleTriggerRef 1), false), []) := by
    decide
  obtain ⟨u, hu, hfire⟩ := Option.map_eq_some_iff.mp hfire
  rw [hu, Option.map_some, Option.some.injEq] at hruns
  obtain ⟨htarget, hpolicy⟩ := Prod.mk.inj hfire
  obtain ⟨hactive, hmanual⟩ := Prod.mk.inj hruns
  obtain ⟨⟨origin, id, new⟩, hinserts, horigin⟩ := Option.map_eq_some_iff.mp htarget
  obtain ⟨rfl, rfl⟩ := Prod.mk.inj horigin
  obtain ⟨row, hrow, hskip⟩ := Option.map_eq_some_iff.mp hpolicy
  obtain ⟨run, hrun, hstatus⟩ := Option.map_eq_some_iff.mp hactive
  obtain ⟨href, hterminal⟩ := Prod.mk.inj hstatus
  refine ⟨sampleWorld OverlapPolicy.skip, claimTwice ++ [.fireCommit 1 (seconds 121)],
    sampleWorld_quiet _, by decide, System.not_meets_of_exec hu fun halone => ?_⟩
  refine halone _ _ _ _ row hinserts hrow hskip 2 ⟨run, hrun, href, hterminal, ?_⟩
  rw [hmanual]
  exact List.not_mem_nil

end Overlap
end PdeOperator.Firing
