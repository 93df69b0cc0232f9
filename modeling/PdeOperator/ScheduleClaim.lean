import PdeOperator.BaseOrder
import PdeOperator.ScheduleDispatcher

/-! `ScheduleDispatcher._claim_due` without a concurrent transaction: one claim, and claims repeated at
one instant until there is nothing to claim. -/

namespace PdeOperator
open Base

namespace ScheduleDispatcher

instance : Std.Total claimedBefore where
  total a b := by
    unfold claimedBefore
    cases a.2.nextFireAt with
    | none =>
        cases b.2.nextFireAt with
        | none => exact BitVec.le_total a.1 b.1
        | some t => exact Or.inl trivial
    | some s =>
        cases b.2.nextFireAt with
        | none => exact Or.inr trivial
        | some t => exact tieBreak_total s t (BitVec.le_total a.1 b.1)

instance : IsTrans (Uuid × ScheduledRun) claimedBefore where
  trans a b c := by
    unfold claimedBefore
    cases a.2.nextFireAt <;> cases b.2.nextFireAt <;> cases c.2.nextFireAt <;> intro hab hbc
    · exact BitVec.le_trans hab hbc
    · trivial
    · exact hbc.elim
    · trivial
    · exact hab.elim
    · exact hab.elim
    · exact hbc.elim
    · exact tieBreak_trans BitVec.le_trans hab hbc

/-- `_active_run_refs` -/
def activeRunRefs (runs : Table Uuid Run) (scheduleIds : List Uuid) : List Text :=
  if scheduleIds.isEmpty then []
  else
    (runs.select fun _ run =>
      decide (run.triggeredBy ∈ scheduleIds.map fun id => some (scheduleTriggerRef id)) &&
        !run.isTerminal).filterMap fun x => x.2.triggeredBy

/-- `schedule_trigger_ref(schedule.id) in active_refs` -/
def isActive (runs : Table Uuid Run) (scheduleIds : List Uuid) (scheduleId : Uuid) : Bool :=
  decide (scheduleTriggerRef scheduleId ∈ activeRunRefs runs scheduleIds)

/-- What `_claim_due` leaves behind: the committed rows, the rows that it has looked at and the ids that
it returns. -/
structure ClaimEnd where
  schedules : Table Uuid ScheduledRun
  processed : List (Uuid × ScheduledRun)
  toFire : List Uuid

section Claim

variable (settings : Settings) (cron : CronLibrary) (now : Instant) (runs : Table Uuid Run)

def claimDue (schedules : Table Uuid ScheduledRun) : ClaimEnd :=
  let due := selectDue settings schedules (fun _ => false) now
  let active := isActive runs (due.map Prod.fst)
  { schedules := claimedTable settings cron now active due schedules
    processed := due
    toFire := (toFire settings cron now active due).map Prod.fst }

/-- A run of the schedule has not ended. -/
def HasActiveRun (scheduleId : Uuid) : Prop :=
  ∃ id run, runs.lookup id = some run ∧ run.triggeredBy = some (scheduleTriggerRef scheduleId) ∧
    run.isTerminal = false

/-- The next occurrence after the instant of the claim. -/
abbrev nextOf (row : ScheduledRun) : Except CronUtils.Error Instant :=
  CronUtils.nextFireTime cron row.cronExpression row.timezone now

/-- The planned fire is overdue by more than the grace period. -/
def Missed (planned : Instant) : Prop := seconds settings.schedulesMissedGraceSeconds < now - planned

/-- A firing is skipped because the previous run is still active. -/
def Overlaps (x : Uuid × ScheduledRun) : Prop :=
  x.2.overlapPolicy = OverlapPolicy.skip ∧ HasActiveRun runs x.1

/-- One claim: which rows it processes, the one outcome of each of them, what it returns, and that it
changes no other row. -/
structure ClaimTick (schedules : Table Uuid ScheduledRun) (tick : ClaimEnd) : Prop where
  processed : FirstRows claimedBefore (some settings.schedulesBatchSize)
    (schedules.select fun _ row => isDue now row) tick.processed
  invalid : ∀ x ∈ tick.processed, ∀ cause, nextOf cron now x.2 = .error cause →
    tick.schedules.lookup x.1 = some
      { x.2 with
        enabled := false
        nextFireAt := none
        lastFireAt := some now
        lastFireStatus := some .failed
        lastFireError := some ("invalid cron expression: ".toList ++ cause.message cron)
        updatedAt := now }
  reanchored : ∀ x ∈ tick.processed, ∀ next, nextOf cron now x.2 = .ok next →
    x.2.nextFireAt = none →
    tick.schedules.lookup x.1 = some { x.2 with nextFireAt := some next }
  missed : ∀ x ∈ tick.processed, ∀ next planned, nextOf cron now x.2 = .ok next →
    x.2.nextFireAt = some planned → Missed settings now planned →
    tick.schedules.lookup x.1 = some
      { x.2 with
        nextFireAt := some next
        lastFireAt := some now
        lastFireStatus := some .skippedMissed
        lastFireError := some ("missed fire at ".toList ++ cron.isoFormat planned)
        updatedAt := now }
  overlap : ∀ x ∈ tick.processed, ∀ next planned, nextOf cron now x.2 = .ok next →
    x.2.nextFireAt = some planned → ¬Missed settings now planned → Overlaps runs x →
    tick.schedules.lookup x.1 = some
      { x.2 with
        nextFireAt := some next
        lastFireAt := some now
        lastFireStatus := some .skippedOverlap
        lastFireError := none
        updatedAt := now }
  fires : ∀ x ∈ tick.processed, ∀ next planned, nextOf cron now x.2 = .ok next →
    x.2.nextFireAt = some planned → ¬Missed settings now planned → ¬Overlaps runs x →
    tick.schedules.lookup x.1 = some { x.2 with nextFireAt := some next }
  returned_order : tick.toFire.Sublist (tick.processed.map Prod.fst)
  mem_returned : ∀ x ∈ tick.processed, x.1 ∈ tick.toFire ↔ ∃ next planned,
    nextOf cron now x.2 = .ok next ∧ x.2.nextFireAt = some planned ∧
      ¬Missed settings now planned ∧ ¬Overlaps runs x
  settled : ∀ x ∈ tick.processed, ∃ row, tick.schedules.lookup x.1 = some row ∧
    (row.enabled = false ∨ ∃ next, row.nextFireAt = some next ∧ now < next)
  others : ∀ id, id ∉ tick.processed.map Prod.fst →
    tick.schedules.lookup id = schedules.lookup id

end Claim

variable {settings : Settings} {cron : CronLibrary} {now : Instant} {runs : Table Uuid Run}
  {schedules : Table Uuid ScheduledRun} {x : Uuid × ScheduledRun} {scheduleIds : List Uuid}

theorem firstRows_selectDue (settings : Settings) (schedules : Table Uuid ScheduledRun)
    (now : Instant) : FirstRows claimedBefore (some settings.schedulesBatchSize)
      (schedules.select fun _ row => isDue now row)
      (selectDue settings schedules (fun _ => false) now) := by
  have hnodup : (schedules.select fun _ row => isDue now row).Nodup :=
    (Table.nodup_select schedules fun _ row => isDue now row).of_map _
  simp only [selectDue, Bool.not_false, Bool.and_true]
  exact firstRows_take claimedBefore hnodup settings.schedulesBatchSize

/-- The one query for all claimed schedules answers for each of them. -/
theorem mem_activeRunRefs {id : Uuid} (h : id ∈ scheduleIds) :
    scheduleTriggerRef id ∈ activeRunRefs runs scheduleIds ↔ HasActiveRun runs id := by
  unfold activeRunRefs HasActiveRun
  rw [if_neg (by rw [List.isEmpty_iff]; exact List.ne_nil_of_mem h)]
  constructor
  · intro hmem
    obtain ⟨⟨runId, run⟩, hselected, href⟩ := List.mem_filterMap.mp hmem
    obtain ⟨hrow, hp⟩ := Table.mem_select.mp hselected
    rw [Bool.and_eq_true, Bool.not_eq_true'] at hp
    exact ⟨runId, run, hrow, href, hp.2⟩
  · rintro ⟨runId, run, hrow, href, hactive⟩
    refine List.mem_filterMap.mpr ⟨(runId, run), Table.mem_select.mpr ⟨hrow, ?_⟩, href⟩
    rw [Bool.and_eq_true, Bool.not_eq_true', decide_eq_true_eq, href]
    exact ⟨List.mem_map_of_mem h, hactive⟩

section Row

variable {row : ScheduledRun} {active : Bool} {next planned : Instant}

theorem claimRow_of_missed (hnext : nextOf cron now row = .ok next)
    (hplanned : row.nextFireAt = some planned) (hmissed : Missed settings now planned) :
    claimRow settings cron now active row =
      ({ row with
          nextFireAt := some next
          lastFireAt := some now
          lastFireStatus := some .skippedMissed
          lastFireError := some ("missed fire at ".toList ++ cron.isoFormat planned)
          updatedAt := now }, false) := by
  rw [nextOf] at hnext
  rw [claimRow, hnext, hplanned]
  exact if_pos hmissed

theorem claimRow_of_overlap (hnext : nextOf cron now row = .ok next)
    (hplanned : row.nextFireAt = some planned) (hmissed : ¬Missed settings now planned)
    (hoverlap : row.overlapPolicy = OverlapPolicy.skip ∧ active = true) :
    claimRow settings cron now active row =
      ({ row with
          nextFireAt := some next
          lastFireAt := some now
          lastFireStatus := some .skippedOverlap
          lastFireError := none
          updatedAt := now }, false) := by
  rw [nextOf] at hnext
  rw [claimRow, hnext, hplanned]
  exact (if_neg hmissed).trans (if_pos hoverlap)

theorem claimRow_of_fires (hnext : nextOf cron now row = .ok next)
    (hplanned : row.nextFireAt = some planned) (hmissed : ¬Missed settings now planned)
    (hoverlap : ¬(row.overlapPolicy = OverlapPolicy.skip ∧ active = true)) :
    claimRow settings cron now active row = ({ row with nextFireAt := some next }, true) := by
  rw [nextOf] at hnext
  rw [claimRow, hnext, hplanned]
  exact (if_neg hmissed).trans (if_neg hoverlap)

/-- The rows that a claim returns to be fired. -/
theorem claimRow_fires_iff : (claimRow settings cron now active row).2 = true ↔ ∃ next planned,
    nextOf cron now row = .ok next ∧ row.nextFireAt = some planned ∧
      ¬Missed settings now planned ∧ ¬(row.overlapPolicy = OverlapPolicy.skip ∧ active = true) := by
  constructor
  · intro h
    obtain ⟨planned, next, hplanned, hnext, hgrace, hoverlap, -⟩ := claimRow_fires h
    exact ⟨next, planned, hnext, hplanned, not_lt.mpr hgrace, hoverlap⟩
  · rintro ⟨next, planned, hnext, hplanned, hmissed, hoverlap⟩
    rw [claimRow_of_fires hnext hplanned hmissed hoverlap]

end Row

/-- The loop knows of each claimed schedule whether it has an active run. -/
theorem overlaps_iff (hx : x.1 ∈ scheduleIds) :
    x.2.overlapPolicy = OverlapPolicy.skip ∧ isActive runs scheduleIds x.1 = true ↔
      Overlaps runs x := by
  rw [isActive, decide_eq_true_eq, mem_activeRunRefs hx]
  rfl

theorem toFire_claimDue : (claimDue settings cron now runs schedules).toFire =
    ((selectDue settings schedules (fun _ => false) now).filter fun x => (claimRow settings cron now
      (isActive runs ((selectDue settings schedules (fun _ => false) now).map Prod.fst) x.1) x.2).2).map
        Prod.fst := by
  dsimp only [claimDue, toFire]
  rw [List.map_map]
  rfl

theorem claimTick_claimDue (hcron : cron.Forward) (schedules : Table Uuid ScheduledRun) :
    ClaimTick settings cron now runs schedules (claimDue settings cron now runs schedules) := by
  have hnodup := nodup_selectDue settings schedules (fun _ => false) now
  have hkey : ∀ {x}, x ∈ (claimDue settings cron now runs schedules).processed →
      x.1 ∈ (selectDue settings schedules (fun _ => false) now).map Prod.fst :=
    fun hx => List.mem_map_of_mem hx
  have hlookup : ∀ x ∈ (claimDue settings cron now runs schedules).processed,
      (claimDue settings cron now runs schedules).schedules.lookup x.1 =
        some (claimRow settings cron now (isActive runs
          ((selectDue settings schedules (fun _ => false) now).map Prod.fst) x.1) x.2).1 :=
    fun x hx => lookup_claimedTable_of_mem hnodup hx
  constructor
  · exact firstRows_selectDue settings schedules now
  · intro x hx cause hcause
    rw [nextOf] at hcause
    rw [hlookup x hx, claimRow, hcause]
    rfl
  · intro x hx next hnext hplanned
    rw [nextOf] at hnext
    rw [hlookup x hx, claimRow, hnext, hplanned]
  · intro x hx next planned hnext hplanned hmissed
    rw [hlookup x hx, claimRow_of_missed hnext hplanned hmissed]
  · intro x hx next planned hnext hplanned hmissed hoverlap
    rw [hlookup x hx, claimRow_of_overlap hnext hplanned hmissed ((overlaps_iff (hkey hx)).mpr hoverlap)]
  · intro x hx next planned hnext hplanned hmissed hoverlap
    rw [hlookup x hx, claimRow_of_fires hnext hplanned hmissed (mt (overlaps_iff (hkey hx)).mp hoverlap)]
  · rw [toFire_claimDue]
    exact List.filter_sublist.map Prod.fst
  · intro x hx
    rw [toFire_claimDue, List.mem_map]
    constructor
    · rintro ⟨y, hy, hid⟩
      obtain ⟨hmem, hfires⟩ := List.mem_filter.mp hy
      obtain rfl : y = x := List.inj_on_of_nodup_map hnodup hmem hx hid
      obtain ⟨next, planned, hnext, hplanned, hmissed, hoverlap⟩ := claimRow_fires_iff.mp hfires
      exact ⟨next, planned, hnext, hplanned, hmissed, mt (overlaps_iff (hkey hx)).mpr hoverlap⟩
    · rintro ⟨next, planned, hnext, hplanned, hmissed, hoverlap⟩
      refine ⟨x, List.mem_filter.mpr ⟨hx, claimRow_fires_iff.mpr ?_⟩, rfl⟩
      exact ⟨next, planned, hnext, hplanned, hmissed, mt (overlaps_iff (hkey hx)).mp hoverlap⟩
  · intro x hx
    refine ⟨_, hlookup x hx, ?_⟩
    obtain ⟨-, hlater⟩ | ⟨hdisabled, -⟩ := claimRow_anchor hcron x.2 (isActive runs
      ((selectDue settings schedules (fun _ => false) now).map Prod.fst) x.1)
    · exact Or.inr hlater
    · exact Or.inl hdisabled
  · intro id hid
    exact lookup_claimedTable_of_notMem hid

section Repeated

variable (settings cron now runs schedules) in
/-- The rows after a number of claims at the same instant. -/
def afterClaims : Nat → Table Uuid ScheduledRun
  | 0 => schedules
  | n + 1 => (claimDue settings cron now runs (afterClaims n)).schedules

variable (settings cron now runs schedules) in
/-- The rows that one of the repeated claims processes, as it finds them. -/
def processedBy (n : Nat) : List (Uuid × ScheduledRun) :=
  (claimDue settings cron now runs (afterClaims settings cron now runs schedules n)).processed

theorem afterClaims_succ (n : Nat) : afterClaims settings cron now runs schedules (n + 1) =
    afterClaims settings cron now runs (claimDue settings cron now runs schedules).schedules n := by
  induction n with
  | zero => rfl
  | succ n ih =>
      rw [afterClaims, ih]
      rfl

theorem processedBy_succ (n : Nat) : processedBy settings cron now runs schedules (n + 1) =
    processedBy settings cron now runs (claimDue settings cron now runs schedules).schedules n := by
  rw [processedBy, afterClaims_succ]
  rfl

/-- A row that is due after a claim was due before it and has not been processed; what was due and
has not been processed is still due. -/
theorem perm_due (hcron : cron.Forward) (schedules : Table Uuid ScheduledRun) :
    ((claimDue settings cron now runs schedules).processed ++
      ((claimDue settings cron now runs schedules).schedules.select fun _ row => isDue now row)).Perm
        (schedules.select fun _ row => isDue now row) := by
  have htick : ClaimTick settings cron now runs schedules _ := claimTick_claimDue hcron schedules
  set tick := claimDue settings cron now runs schedules
  have hgone : ∀ x ∈ tick.processed, ∀ row, tick.schedules.lookup x.1 = some row →
      isDue now row = false := by
    intro x hx row hrow
    obtain ⟨row', hrow', hsettled⟩ := htick.settled x hx
    obtain rfl : row = row' := Option.some.inj (hrow.symm.trans hrow')
    rcases hsettled with hdisabled | ⟨next, hnext, hlater⟩
    · simp [isDue, hdisabled]
    · simp [isDue, hnext, hlater]
  have hkeys : ∀ x : Uuid × ScheduledRun, isDue now x.2 = true → tick.schedules.lookup x.1 = some x.2 →
      x.1 ∉ tick.processed.map Prod.fst := by
    intro x hdue hrow hmem
    obtain ⟨y, hy, hid⟩ := List.mem_map.mp hmem
    rw [← hid] at hrow
    rw [hgone y hy _ hrow] at hdue
    cases hdue
  refine (List.perm_ext_iff_of_nodup ?_ ?_).mpr fun x => ?_
  · refine List.nodup_append.mpr ⟨htick.processed.nodup,
      (Table.nodup_select tick.schedules fun _ row => isDue now row).of_map _, ?_⟩
    rintro x hx _ hmem rfl
    obtain ⟨hrow, hdue⟩ := Table.mem_select.mp hmem
    rw [hgone x hx _ hrow] at hdue
    cases hdue
  · exact (Table.nodup_select schedules fun _ row => isDue now row).of_map _
  · rw [List.mem_append]
    constructor
    · rintro (hx | hx)
      · exact htick.processed.mem x hx
      · obtain ⟨hrow, hdue⟩ := Table.mem_select.mp hx
        rw [htick.others x.1 (hkeys x hdue hrow)] at hrow
        exact Table.mem_select.mpr ⟨hrow, hdue⟩
    · intro hx
      by_cases hin : x ∈ tick.processed
      · exact Or.inl hin
      · right
        obtain ⟨hrow, hdue⟩ := Table.mem_select.mp hx
        have hout : x.1 ∉ tick.processed.map Prod.fst := by
          intro hmem
          obtain ⟨y, hy, hid⟩ := List.mem_map.mp hmem
          obtain ⟨hrow', -⟩ := Table.mem_select.mp (htick.processed.mem y hy)
          rw [hid, hrow] at hrow'
          have heq : y = x := Prod.ext hid (Option.some.inj hrow').symm
          exact hin (heq ▸ hy)
        exact Table.mem_select.mpr ⟨(htick.others x.1 hout).trans hrow, hdue⟩

/-- Repeated claims come to an end, and together they have processed every due row once. -/
theorem exists_last_claim (hcron : cron.Forward) (hbatch : 1 ≤ settings.schedulesBatchSize)
    (schedules : Table Uuid ScheduledRun) :
    ∃ n, (∀ k < n, processedBy settings cron now runs schedules k ≠ []) ∧
      processedBy settings cron now runs schedules n = [] ∧
      ((List.range n).flatMap (processedBy settings cron now runs schedules)).Perm
        (schedules.select fun _ row => isDue now row) := by
  induction hcount : (schedules.select fun _ row => isDue now row).length
    using Nat.strong_induction_on generalizing schedules with
  | _ count ih =>
    have hperm := @perm_due settings cron now runs hcron schedules
    have hfirst := firstRows_selectDue settings schedules now
    by_cases hnone : processedBy settings cron now runs schedules 0 = []
    · refine ⟨0, fun k hk => absurd hk (Nat.not_lt_zero k), hnone, ?_⟩
      have hlength := hfirst.length_eq
      change (processedBy settings cron now runs schedules 0).length = _ at hlength
      rw [hnone, List.length_nil, Option.elim_some] at hlength
      have hempty : (schedules.select fun _ row => isDue now row) = [] := by
        apply List.length_eq_zero_iff.mp
        omega
      rw [hempty]
      exact .nil
    · set later := (claimDue settings cron now runs schedules).schedules with hlater
      have hsplit := hperm.length_eq
      rw [List.length_append, hcount] at hsplit
      have hpositive : 0 < (claimDue settings cron now runs schedules).processed.length :=
        List.length_pos_iff.mpr hnone
      obtain ⟨n, hbusy, hidle, hrest⟩ := ih _ (by omega) later rfl
      refine ⟨n + 1, ?_, (processedBy_succ n).trans hidle, ?_⟩
      · intro k hk
        cases k with
        | zero => exact hnone
        | succ k =>
            rw [processedBy_succ]
            exact hbusy k (by omega)
      · rw [List.range_succ_eq_map, List.flatMap_cons, List.flatMap_map]
        have hshift : (fun k => processedBy settings cron now runs schedules (k + 1)) =
            processedBy settings cron now runs later := by
          ext k : 1
          exact processedBy_succ k
        change (_ ++ (List.range n).flatMap fun k =>
          processedBy settings cron now runs schedules (k + 1)).Perm _
        rw [hshift]
        exact (hrest.append_left _).trans hperm

end Repeated

/-- A claim decides the first batch of due schedules, each of them once, and repeated claims at the same
instant decide all of them. -/
theorem claimDue_spec (settings : Settings) (cron : CronLibrary) (now : Instant)
    (runs : Table Uuid Run) (schedules : Table Uuid ScheduledRun) (hcron : cron.Forward)
    (hbatch : 1 ≤ settings.schedulesBatchSize) :
    ClaimTick settings cron now runs schedules (claimDue settings cron now runs schedules) ∧
      ∃ n, (∀ k < n, processedBy settings cron now runs schedules k ≠ []) ∧
        processedBy settings cron now runs schedules n = [] ∧
        ((List.range n).flatMap (processedBy settings cron now runs schedules)).Perm
          (schedules.select fun _ row => isDue now row) :=
  ⟨claimTick_claimDue hcron schedules, exists_last_claim hcron hbatch schedules⟩

/-- Claims of two rows at most. -/
def pairSettings : Settings := { schedulesBatchSize := 2 }

/-- Three schedules that are due at once. -/
def threeDue : Table Uuid ScheduledRun :=
  ((AList.singleton 1 (sampleRow OverlapPolicy.skip)).insert 2 (sampleRow OverlapPolicy.skip)).insert 3
    (sampleRow OverlapPolicy.skip)

/-- The first claim leaves one of them, and the next one decides it. -/
theorem claimDue_spec_threeDue :
    (threeDue.select fun _ row => isDue (seconds 90) row).length = 3 ∧
      (claimDue pairSettings everyMinute (seconds 90) ∅ threeDue).processed.length = 2 ∧
      ClaimTick pairSettings everyMinute (seconds 90) ∅ threeDue
        (claimDue pairSettings everyMinute (seconds 90) ∅ threeDue) ∧
      ∃ n, (∀ k < n, processedBy pairSettings everyMinute (seconds 90) ∅ threeDue k ≠ []) ∧
        processedBy pairSettings everyMinute (seconds 90) ∅ threeDue n = [] ∧
        ((List.range n).flatMap (processedBy pairSettings everyMinute (seconds 90) ∅ threeDue)).Perm
          (threeDue.select fun _ row => isDue (seconds 90) row) :=
  ⟨by decide +kernel, by decide +kernel,
    claimDue_spec pairSettings everyMinute (seconds 90) ∅ threeDue everyMinute_forward (by decide)⟩

end ScheduleDispatcher
end PdeOperator
