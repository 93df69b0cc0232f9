import Mathlib.Data.List.Sort
import PdeOperator.ScheduleService

/-! `ScheduleDispatcher._claim_due`: which rows a tick claims, and what it makes of each of them. -/

namespace PdeOperator
open Base

namespace ScheduleDispatcher

/-- The `WHERE` of the claim. -/
def isDue (now : Instant) (row : ScheduledRun) : Bool :=
  row.enabled && (match row.nextFireAt with
    | some planned => planned ≤ now
    | none => true)

/-- `ORDER BY next_fire_at ASC NULLS FIRST, id ASC` -/
def claimedBefore (a b : Uuid × ScheduledRun) : Prop :=
  match a.2.nextFireAt, b.2.nextFireAt with
  | none, none => a.1 ≤ b.1
  | none, some _ => True
  | some _, none => False
  | some s, some t => s < t ∨ (s = t ∧ a.1 ≤ b.1)

instance : DecidableRel claimedBefore := fun a b => by
  unfold claimedBefore
  cases a.2.nextFireAt <;> cases b.2.nextFireAt <;> infer_instance

/-- The locked selection; `locked` holds the rows that another transaction has locked. -/
def selectDue (settings : Settings) (schedules : Table Uuid ScheduledRun) (locked : Uuid → Bool)
    (now : Instant) : List (Uuid × ScheduledRun) :=
  ((schedules.select fun id row => isDue now row && !locked id).insertionSort
    claimedBefore).take settings.schedulesBatchSize

/-- What the tick makes of one claimed row, and whether it is going to fire it. -/
def claimRow (settings : Settings) (cron : CronLibrary) (now : Instant) (active : Bool)
    (row : ScheduledRun) : ScheduledRun × Bool :=
  match CronUtils.nextFireTime cron row.cronExpression row.timezone now with
  | .error cause =>
      (ScheduleService.applyFireResult now .failed none
        (some ("invalid cron expression: ".toList ++ cause.message cron))
        { row with enabled := false, nextFireAt := none }, false)
  | .ok next =>
      match row.nextFireAt with
      | none => ({ row with nextFireAt := some next }, false)
      | some planned =>
          if now - planned > seconds settings.schedulesMissedGraceSeconds then
            (ScheduleService.applyFireResult now .skippedMissed none
              (some ("missed fire at ".toList ++ cron.isoFormat planned))
              { row with nextFireAt := some next }, false)
          else if row.overlapPolicy = OverlapPolicy.skip ∧ active then
            (ScheduleService.applyFireResult now .skippedOverlap none none
              { row with nextFireAt := some next }, false)
          else ({ row with nextFireAt := some next }, true)

/-- The rows after the claim has committed. -/
def claimedTable (settings : Settings) (cron : CronLibrary) (now : Instant) (active : Uuid → Bool) :
    List (Uuid × ScheduledRun) → Table Uuid ScheduledRun → Table Uuid ScheduledRun
  | [], schedules => schedules
  | (id, row) :: due, schedules =>
      claimedTable settings cron now active due
        (schedules.insert id (claimRow settings cron now (active id) row).1)

/-- The ids that the claim returns, with the planned instants. -/
def toFire (settings : Settings) (cron : CronLibrary) (now : Instant) (active : Uuid → Bool)
    (due : List (Uuid × ScheduledRun)) : List (Uuid × Option Instant) :=
  (due.filter fun x => (claimRow settings cron now (active x.1) x.2).2).map
    fun x => (x.1, x.2.nextFireAt)

theorem mem_selectDue {settings : Settings} {schedules : Table Uuid ScheduledRun}
    {locked : Uuid → Bool} {now : Instant} {id : Uuid} {row : ScheduledRun}
    (h : (id, row) ∈ selectDue settings schedules locked now) :
    schedules.lookup id = some row ∧ isDue now row = true ∧ locked id = false := by
  have hmem : (id, row) ∈ schedules.select fun id row => isDue now row && !locked id :=
    (List.mem_insertionSort _).mp (List.mem_of_mem_take h)
  obtain ⟨hlookup, hp⟩ := Table.mem_select.mp hmem
  rw [Bool.and_eq_true, Bool.not_eq_true'] at hp
  exact ⟨hlookup, hp⟩

theorem nodup_selectDue (settings : Settings) (schedules : Table Uuid ScheduledRun)
    (locked : Uuid → Bool) (now : Instant) :
    ((selectDue settings schedules locked now).map Prod.fst).Nodup := by
  have hsort : (((schedules.select fun id row => isDue now row && !locked id).insertionSort
      claimedBefore).map Prod.fst).Nodup :=
    (((List.perm_insertionSort _ _).map Prod.fst).nodup_iff).mpr (Table.nodup_select _ _)
  exact hsort.sublist ((List.take_sublist _ _).map Prod.fst)

section Claim

variable {settings : Settings} {cron : CronLibrary} {now : Instant} {active : Uuid → Bool}

theorem lookup_claimedTable_of_notMem {due : List (Uuid × ScheduledRun)}
    {schedules : Table Uuid ScheduledRun} {id : Uuid} (h : id ∉ due.map Prod.fst) :
    (claimedTable settings cron now active due schedules).lookup id = schedules.lookup id := by
  induction due generalizing schedules with
  | nil => rfl
  | cons x due ih =>
      rw [List.map_cons, List.mem_cons, not_or] at h
      rw [claimedTable, ih h.2, AList.lookup_insert_ne h.1]

theorem lookup_claimedTable_of_mem {due : List (Uuid × ScheduledRun)}
    {schedules : Table Uuid ScheduledRun} (hnodup : (due.map Prod.fst).Nodup) {id : Uuid}
    {row : ScheduledRun} (h : (id, row) ∈ due) :
    (claimedTable settings cron now active due schedules).lookup id =
      some (claimRow settings cron now (active id) row).1 := by
  induction due generalizing schedules with
  | nil => exact absurd h List.not_mem_nil
  | cons x due ih =>
      rw [List.map_cons, List.nodup_cons] at hnodup
      rcases List.mem_cons.mp h with rfl | hmem
      · rw [claimedTable, lookup_claimedTable_of_notMem hnodup.1, AList.lookup_insert]
      · exact ih hnodup.2 hmem

/-- A row after a claim is the old row or what the claim makes of it. -/
theorem lookup_claimedTable_cases {due : List (Uuid × ScheduledRun)}
    {schedules : Table Uuid ScheduledRun} (hnodup : (due.map Prod.fst).Nodup) (id : Uuid) :
    (id ∉ due.map Prod.fst ∧
        (claimedTable settings cron now active due schedules).lookup id = schedules.lookup id) ∨
      ∃ row, (id, row) ∈ due ∧ (claimedTable settings cron now active due schedules).lookup id =
        some (claimRow settings cron now (active id) row).1 := by
  by_cases hid : id ∈ due.map Prod.fst
  · obtain ⟨x, hx, rfl⟩ := List.mem_map.mp hid
    exact Or.inr ⟨x.2, hx, lookup_claimedTable_of_mem hnodup hx⟩
  · exact Or.inl ⟨hid, lookup_claimedTable_of_notMem hid⟩

/-- A row that a claim returns is anchored later, not too late, and otherwise unchanged. -/
theorem claimRow_fires {row : ScheduledRun} {isActive : Bool}
    (h : (claimRow settings cron now isActive row).2 = true) :
    ∃ planned next, row.nextFireAt = some planned ∧
      CronUtils.nextFireTime cron row.cronExpression row.timezone now = .ok next ∧
      now - planned ≤ seconds settings.schedulesMissedGraceSeconds ∧
      ¬(row.overlapPolicy = OverlapPolicy.skip ∧ isActive = true) ∧
      (claimRow settings cron now isActive row).1 = { row with nextFireAt := some next } := by
  unfold claimRow at h ⊢
  cases hnext : CronUtils.nextFireTime cron row.cronExpression row.timezone now with
  | error cause =>
      rw [hnext] at h
      cases h
  | ok next =>
      rw [hnext] at h
      cases hplanned : row.nextFireAt with
      | none =>
          rw [hplanned] at h
          cases h
      | some planned =>
          rw [hplanned] at h
          dsimp only at h ⊢
          by_cases hmissed : now - planned > seconds settings.schedulesMissedGraceSeconds
          · rw [if_pos hmissed] at h
            cases h
          · rw [if_neg hmissed] at h ⊢
            by_cases hoverlap : row.overlapPolicy = OverlapPolicy.skip ∧ isActive = true
            · rw [if_pos hoverlap] at h
              cases h
            · rw [if_neg hoverlap]
              exact ⟨planned, next, rfl, rfl, not_lt.mp hmissed, hoverlap, rfl⟩

/-- Every claim moves the anchor past the tick or disables the schedule. -/
theorem claimRow_anchor (hcron : cron.Forward) (row : ScheduledRun) (isActive : Bool) :
    ((claimRow settings cron now isActive row).1.enabled = row.enabled ∧
      ∃ next, (claimRow settings cron now isActive row).1.nextFireAt = some next ∧ now < next) ∨
    ((claimRow settings cron now isActive row).1.enabled = false ∧
      (claimRow settings cron now isActive row).1.nextFireAt = none) := by
  unfold claimRow
  cases hnext : CronUtils.nextFireTime cron row.cronExpression row.timezone now with
  | error cause => exact Or.inr ⟨rfl, rfl⟩
  | ok next =>
      left
      have hlater : now < next := hcron.nextFireTime hnext
      cases row.nextFireAt with
      | none => exact ⟨rfl, next, rfl, hlater⟩
      | some planned =>
          dsimp only
          split
          · exact ⟨rfl, next, rfl, hlater⟩
          · split
            · exact ⟨rfl, next, rfl, hlater⟩
            · exact ⟨rfl, next, rfl, hlater⟩

end Claim

end ScheduleDispatcher
end PdeOperator
