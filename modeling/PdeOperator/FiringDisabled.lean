import PdeOperator.FiringClaims

/-! When a schedule that is disabled or deleted fires: exactly when it is disabled or deleted while a
dispatcher has claimed it. -/

namespace PdeOperator.Firing
open Base

/-- A dispatcher commits a run only for a schedule that is there and enabled. -/
def FiresEnabled (w : World) (a : Act) : Prop :=
  ∀ now todo id new, inserts w a = some (.tick now todo, id, new) →
    ∃ row, w.schedules.lookup id = some row ∧ row.enabled = true

section Disabled

variable (settings : Settings) (cron : CronLibrary)
  {declarative : Uuid → JsonObject → Except ScheduleService.Error CreateRunRequest}
  {w w' : World} {a : Act}

/-- A commit disables a schedule only while no claim of it is outstanding, and deletes it only while
no tick that has read it is about to commit its run. -/
def SparesClaimed (w : World) : Act → Prop
  | .claim _ now locked => ∀ id row cause, (id, row) ∈ due settings w now locked →
      CronUtils.nextFireTime cron row.cronExpression row.timezone now = .error cause → ¬w.Claimed id
  | .updateCommit c _ _ => ∀ id request row runRequest,
      w.calls c = some (.updating id request row (.stored runRequest)) →
      row.enabled = true → request.enabled = false → ¬w.Claimed id
  | .enableCommit c _ _ => ∀ id row, w.calls c = some (.enabling id false row) →
      row.enabled = true → ¬w.Claimed id
  | .createCommit c _ _ => ∀ id request runRequest,
      w.calls c = some (.creating id request runRequest true) → request.enabled = false →
      ¬w.Claimed id
  | .deleteCommit c => ∀ id, w.calls c = some (.deleting id true) → ¬w.Underway id
  | _ => True

/-- Claimed schedules are enabled, and those being fired are there. -/
structure Armed (w : World) : Prop where
  enabled : ∀ id, w.Claimed id → ∀ row, w.schedules.lookup id = some row → row.enabled = true
  present : ∀ id, w.Underway id → (w.schedules.lookup id).isSome = true

theorem World.Quiet.armed (h : w.Quiet) : Armed w where
  enabled id hid := absurd hid (h.not_claimed id)
  present id hid := absurd (Or.inr hid) (h.not_claimed id)

variable {settings cron}

/-- A commit that writes back a copy disables a row only when the session has disabled its copy. -/
theorem enabled_writeBack {read work current : ScheduledRun} (hcurrent : current.enabled = true)
    (hwork : work.enabled = true ∨ read.enabled = false) :
    (writeBack read work current).enabled = true := by
  rw [ScheduledRun.writeBack_enabled, hcurrent]
  cases hread : read.enabled with
  | false =>
      unfold column
      split
      · rfl
      · next hne => exact Bool.eq_true_of_not_eq_false hne
  | true =>
      have hwork' : work.enabled = true := hwork.resolve_right (by simp [hread])
      rw [hwork', column_clean]

/-- A claim keeps a row enabled unless its expression has no next occurrence. -/
theorem enabled_claimRow {now : Instant} {isActive : Bool} {row : ScheduledRun}
    (henabled : row.enabled = true)
    (hnext : ∀ cause,
      CronUtils.nextFireTime cron row.cronExpression row.timezone now ≠ .error cause) :
    (ScheduleDispatcher.claimRow settings cron now isActive row).1.enabled = true := by
  unfold ScheduleDispatcher.claimRow
  split
  · next cause hcause => exact absurd hcause (hnext cause)
  · split
    · exact henabled
    · split
      · exact henabled
      · split <;> exact henabled

/-- A step that spares claimed schedules leaves an enabled one enabled. -/
theorem enabled_edit {id : Uuid} {before after : Option ScheduledRun}
    (hedit : Edit settings cron w a id after) (hok : SparesClaimed settings cron w a)
    (hclaimed : w.Claimed id) (hbefore : w.schedules.lookup id = before)
    (henabled : ∀ row, before = some row → row.enabled = true) :
    ∀ row, after = some row → row.enabled = true := by
  subst hbefore
  cases hedit with
  | same => exact henabled
  | claimed ha hdue =>
      subst ha
      rintro row ⟨⟩
      obtain ⟨hlookup, -⟩ := ScheduleDispatcher.mem_selectDue hdue
      refine enabled_claimRow (henabled _ hlookup) fun cause hcause => ?_
      exact hok id _ cause hdue hcause hclaimed
  | recorded hrow hparams hsame =>
      rintro row ⟨⟩
      rw [hsame]
      exact henabled _ hrow
  | updated ha hcall hwork hrow =>
      subst ha
      rintro row ⟨⟩
      refine enabled_writeBack (henabled _ hrow) ?_
      rw [(updateRow_ok hwork).1]
      by_contra hneither
      rw [not_or, Bool.not_eq_true, Bool.not_eq_false] at hneither
      exact hok id _ _ _ hcall hneither.2 hneither.1 hclaimed
  | enabled ha hcall hwork hrow =>
      subst ha
      rintro row ⟨⟩
      refine enabled_writeBack (henabled _ hrow) ?_
      rw [(setEnabledRow_ok hwork).2]
      by_contra hneither
      rw [not_or, Bool.not_eq_true, Bool.not_eq_false] at hneither
      exact hok id _ (hneither.1 ▸ hcall) hneither.2 hclaimed
  | deleted ha hcall =>
      intro row hrow
      cases hrow
  | created ha hcall hcreate hrow =>
      subst ha
      rintro row ⟨⟩
      rw [(createRow_ok hcreate).1]
      by_contra hdisabled
      exact hok id _ _ hcall (Bool.eq_false_iff.mpr hdisabled) hclaimed

/-- A step that does not delete a schedule leaves it there. -/
theorem present_edit {id : Uuid} {after : Option ScheduledRun}
    (hedit : Edit settings cron w a id after)
    (hkept : ∀ c, a = .deleteCommit c → w.calls c ≠ some (.deleting id true))
    (hbefore : (w.schedules.lookup id).isSome = true) : after.isSome = true := by
  cases hedit with
  | same => exact hbefore
  | deleted ha hcall => exact absurd hcall (hkept _ ha)
  | _ => rfl

theorem underway_of_step (h : Step settings cron w a w') {id : Uuid} (hunderway : w'.Underway id) :
    w.Underway id ∨ ∃ c, a = .fireRead c ∧ (w.schedules.lookup id).isSome = true := by
  obtain ⟨c, call', hcall', hid⟩ := hunderway
  cases claimStep_of_step h hcall' with
  | idle hnone =>
      rw [(List.append_eq_nil_iff.mp hnone).1] at hid
      cases hid
  | claimed ha hnew =>
      subst hnew
      cases hid
  | begun ha hcall hrow hnew =>
      subst hnew
      obtain rfl := List.mem_singleton.mp hid
      exact Or.inr ⟨c, ha, by rw [hrow]; rfl⟩
  | kept hcall hwaiting hunderway => exact Or.inl ⟨c, _, hcall, hunderway.subset hid⟩

theorem armed_step (hinv : Armed w) (hok : SparesClaimed settings cron w a)
    (h : Step settings cron w a w') : Armed w' where
  enabled id hid := by
    intro row' hrow'
    have hedit := edit_of_step h id
    rcases claimed_of_step h hid with hold | ⟨c, now, locked, rfl, hmem⟩
    · exact enabled_edit hedit hok hold rfl (hinv.enabled id hold) row' hrow'
    · -- the claim itself returns enabled rows only, and re-anchors them
      obtain ⟨row, next, -, henabled, -, hafter⟩ := claimed_row h hmem
      rw [hafter, Option.some.injEq] at hrow'
      rw [← hrow']
      exact henabled
  present id hid := by
    have hedit := edit_of_step h id
    rcases underway_of_step h hid with hold | ⟨c, rfl, hsome⟩
    · refine present_edit hedit (fun c ha hcall => ?_) (hinv.present id hold)
      subst ha
      exact hok id hcall hold
    · exact present_edit hedit (fun c ha => by cases ha) hsome

/-- If no commit disables or deletes a schedule while a dispatcher has it claimed, no disabled or
deleted schedule ever fires. -/
theorem disabled_never_fires (settings : Settings) (cron : CronLibrary)
    (declarative : Uuid → JsonObject → Except ScheduleService.Error CreateRunRequest) {w : World}
    {acts : List Act} (hquiet : w.Quiet)
    (hok : (system settings cron declarative).Meets (SparesClaimed settings cron) w acts) :
    (system settings cron declarative).Meets FiresEnabled w acts := by
  refine System.Meets.of_invariant (I := Armed) ?_ ?_ hquiet.armed hok
  · intro w a w' hinv hok hstep
    exact armed_step hinv hok (step_cases hstep)
  · intro w a hinv hok now todo id new hinserts
    have hunderway : w.Underway id := underway_of_inserts hinserts
    obtain ⟨row, hrow⟩ := Option.isSome_iff_exists.mp (hinv.present id hunderway)
    exact ⟨row, hrow, hinv.enabled id (Or.inr hunderway) row hrow⟩

theorem disabled_never_fires_claimedOnce :
    (sampleSystem.exec (sampleWorld OverlapPolicy.allow)
        (claimAt 0 (seconds 61) :: prepareFire 0 2 (seconds 61) ++
          [.fireCommit 0 (seconds 61)])).isSome = true ∧
      sampleSystem.Meets FiresEnabled (sampleWorld OverlapPolicy.allow)
        (claimAt 0 (seconds 61) :: prepareFire 0 2 (seconds 61) ++
          [.fireCommit 0 (seconds 61)]) := by
  have hquiet := sampleWorld_quiet OverlapPolicy.allow
  refine ⟨by decide, disabled_never_fires {} everyMinute noTemplates hquiet ⟨?_, fun w _ => ?_⟩⟩
  · intro id row cause _ _
    exact hquiet.not_claimed id
  · exact ⟨trivial, fun _ _ => ⟨trivial, fun _ _ => ⟨trivial, fun _ _ => ⟨trivial, fun _ _ =>
      trivial⟩⟩⟩⟩

/-- A schedule is claimed, then disabled, and then a run is about to be committed for it. -/
def disableClaimed : List Act :=
  [claimAt 0 (seconds 61), .enableRead 1 1 false, .enableCommit 1 (seconds 61) (seconds 61)] ++
    prepareFire 0 2 (seconds 61)

/-- A schedule that is disabled after a dispatcher has claimed it fires all the same. -/
theorem claimed_schedule_fires_disabled :
    ∃ w acts, w.Quiet ∧ (sampleSystem.exec w acts).isSome = true ∧
      ¬sampleSystem.Meets FiresEnabled w acts := by
  have hbefore : (sampleSystem.exec (sampleWorld OverlapPolicy.allow) disableClaimed).map (fun u =>
      ((inserts u (.fireCommit 0 (seconds 61))).map fun x => (x.1, x.2.1),
        (u.schedules.lookup 1).map ScheduledRun.enabled)) =
      some (some (.tick (seconds 61) [], 1), some false) := by
    decide
  obtain ⟨u, hu, hstate⟩ := Option.map_eq_some_iff.mp hbefore
  obtain ⟨htarget, hdisabled⟩ := Prod.mk.inj hstate
  obtain ⟨⟨origin, id, new⟩, hinserts, horigin⟩ := Option.map_eq_some_iff.mp htarget
  obtain ⟨rfl, rfl⟩ := Prod.mk.inj horigin
  refine ⟨sampleWorld OverlapPolicy.allow, disableClaimed ++ [.fireCommit 0 (seconds 61)],
    sampleWorld_quiet _, by decide, System.not_meets_of_exec hu fun hfires => ?_⟩
  obtain ⟨row, hrow, henabled⟩ := hfires _ _ _ _ hinserts
  rw [hrow, Option.map_some, henabled] at hdisabled
  cases hdisabled

end Disabled
end PdeOperator.Firing
