import Mathlib.Logic.Function.Basic
import PdeOperator.BaseSystem
import PdeOperator.ScheduleDispatcher

/-! Anchors over time: any number of dispatchers claim due schedules while the schedules are created,
edited, switched and deleted. Each planned instant is claimed at most once, and none that is older
than the grace period. -/

namespace PdeOperator.Anchors
open Base

/-- A schedule that `_claim_due` has returned. -/
structure Firing where
  scheduleId : Uuid
  planned : Instant
  /-- The clock of the tick. -/
  now : Instant
  deriving DecidableEq

structure World where
  clock : Instant
  schedules : Table Uuid ScheduledRun
  /-- The clocks of the ticks that have not claimed yet. -/
  ticks : Nat → Option Instant
  /-- All firings so far, the last one at the end. -/
  fired : List Firing

inductive Act where
  | advance (clock : Instant)
  | tick (c : Nat)
  | claim (c : Nat) (locked active : Uuid → Bool)
  | createSchedule (id : Uuid) (request : CreateScheduledRunRequest) (runRequest : CreateRunRequest)
  | updateSchedule (id : Uuid) (request : UpdateScheduledRunRequest) (runRequest : CreateRunRequest)
  | setEnabled (id : Uuid) (enabled : Bool)
  | deleteSchedule (id : Uuid)
  | recordFire (id : Uuid) (now : Instant) (status : FireStatus) (runId : Option Uuid)
      (error : Option Text)

section Steps

variable (settings : Settings) (cron : CronLibrary) (w : World)

/-- The firings of one claim. -/
def newFirings (now : Instant) (active : Uuid → Bool) (due : List (Uuid × ScheduledRun)) :
    List Firing :=
  (ScheduleDispatcher.toFire settings cron now active due).filterMap fun x =>
    x.2.map fun planned => ⟨x.1, planned, now⟩

def claim (c : Nat) (locked active : Uuid → Bool) : Option World := do
  let now ← w.ticks c
  let due := ScheduleDispatcher.selectDue settings w.schedules locked now
  some { w with
    schedules := ScheduleDispatcher.claimedTable settings cron now active due w.schedules
    ticks := Function.update w.ticks c none
    fired := w.fired ++ newFirings settings cron now active due }

def createSchedule (id : Uuid) (request : CreateScheduledRunRequest)
    (runRequest : CreateRunRequest) : Option World := do
  guard (w.schedules.lookup id).isNone
  let _ ← (ScheduleService.validateCron settings cron request.cronExpression request.timezone
    w.clock).toOption
  let row ← (ScheduleService.createRow cron request runRequest w.clock w.clock).toOption
  some { w with schedules := w.schedules.insert id row }

def updateSchedule (id : Uuid) (request : UpdateScheduledRunRequest)
    (runRequest : CreateRunRequest) : Option World := do
  let row ← w.schedules.lookup id
  let _ ← (ScheduleService.validateCron settings cron request.cronExpression request.timezone
    w.clock).toOption
  let row' ← (ScheduleService.updateRow cron request runRequest w.clock w.clock row).toOption
  some { w with schedules := w.schedules.insert id row' }

def setEnabled (id : Uuid) (enabled : Bool) : Option World := do
  let row ← w.schedules.lookup id
  let row' ← (ScheduleService.setEnabledRow cron enabled w.clock w.clock row).toOption
  some { w with schedules := w.schedules.insert id row' }

def deleteSchedule (id : Uuid) : Option World := do
  guard (w.schedules.lookup id).isSome
  some { w with schedules := w.schedules.erase id }

def recordFire (id : Uuid) (now : Instant) (status : FireStatus) (runId : Option Uuid)
    (error : Option Text) : Option World := do
  let row ← w.schedules.lookup id
  some { w with
    schedules := w.schedules.insert id (ScheduleService.applyFireResult now status runId error row) }

def step : Act → Option World
  | .advance clock => if w.clock ≤ clock then some { w with clock } else none
  | .tick c =>
      if (w.ticks c).isNone then
        some { w with ticks := Function.update w.ticks c (some w.clock) }
      else none
  | .claim c locked active => claim settings cron w c locked active
  | .createSchedule id request runRequest => createSchedule settings cron w id request runRequest
  | .updateSchedule id request runRequest => updateSchedule settings cron w id request runRequest
  | .setEnabled id enabled => setEnabled cron w id enabled
  | .deleteSchedule id => deleteSchedule w id
  | .recordFire id now status runId error => recordFire w id now status runId error

end Steps

def system (settings : Settings) (cron : CronLibrary) : System World Act where
  step := step settings cron

/-- Any database, before the first tick. -/
def World.start (clock : Instant) (schedules : Table Uuid ScheduledRun) : World where
  clock := clock
  schedules := schedules
  ticks := fun _ => none
  fired := []

variable {settings : Settings} {cron : CronLibrary} {w w' : World}

/-- An enabled row is anchored after an instant. -/
def AnchoredAfter (row : ScheduledRun) (instant : Instant) : Prop :=
  row.enabled = true → ∃ next, row.nextFireAt = some next ∧ instant < next

variable (settings) in
/-- All claimed instants lie behind the clock, behind the anchors and in order. -/
structure Anchored (w : World) : Prop where
  ticks : ∀ c now, w.ticks c = some now → now ≤ w.clock
  behind : ∀ f ∈ w.fired, f.planned ≤ w.clock
  ahead : ∀ f ∈ w.fired, ∀ row, w.schedules.lookup f.scheduleId = some row →
    AnchoredAfter row f.planned
  sorted : w.fired.Pairwise fun f g => f.scheduleId = g.scheduleId → f.planned < g.planned
  grace : ∀ f ∈ w.fired, f.now - f.planned ≤ seconds settings.schedulesMissedGraceSeconds

theorem World.start_anchored (clock : Instant) (schedules : Table Uuid ScheduledRun) :
    Anchored settings (World.start clock schedules) where
  ticks c now h := by cases h
  behind f hf := absurd hf List.not_mem_nil
  ahead f hf := absurd hf List.not_mem_nil
  sorted := List.Pairwise.nil
  grace f hf := absurd hf List.not_mem_nil

/-- Replacing one row keeps the invariant when the new row is anchored after the clock, or where
the old row was. -/
theorem Anchored.insert (hinv : Anchored settings w) {id : Uuid} {row : ScheduledRun}
    (hrow : (∀ instant, instant ≤ w.clock → AnchoredAfter row instant) ∨
      ∃ old, w.schedules.lookup id = some old ∧
        ∀ instant, AnchoredAfter old instant → AnchoredAfter row instant) :
    Anchored settings { w with schedules := w.schedules.insert id row } where
  ticks := hinv.ticks
  behind := hinv.behind
  ahead f hf current hcurrent := by
    by_cases hid : f.scheduleId = id
    · rw [hid, AList.lookup_insert, Option.some.injEq] at hcurrent
      subst hcurrent
      rcases hrow with hlater | ⟨old, hold, hkeeps⟩
      · exact hlater f.planned (hinv.behind f hf)
      · exact hkeeps f.planned (hinv.ahead f hf old (hid ▸ hold))
    · rw [AList.lookup_insert_ne hid] at hcurrent
      exact hinv.ahead f hf current hcurrent
  sorted := hinv.sorted
  grace := hinv.grace

theorem nextFireAt_later (hcron : cron.Forward) {expression timezone : Text} {now next : Instant}
    (h : ScheduleService.nextFireAt cron expression timezone now = .ok next) : now < next := by
  unfold ScheduleService.nextFireAt at h
  cases hnext : CronUtils.nextFireTime cron expression timezone now with
  | error e =>
      rw [hnext] at h
      cases h
  | ok later =>
      rw [hnext] at h
      cases h
      exact hcron.nextFireTime hnext

/-- A saved row is anchored anew, or as it was before. -/
theorem anchored_saved (hcron : cron.Forward) {base row : ScheduledRun} {stamp now : Instant}
    {enabled : Bool} (h : ScheduleService.RowSaved cron base stamp now enabled row) :
    (∀ instant, instant ≤ now → AnchoredAfter row instant) ∨
      ∀ instant, AnchoredAfter base instant → AnchoredAfter row instant := by
  cases h with
  | off => exact Or.inl fun _ _ henabled => by cases henabled
  | @anchored next hnext =>
      exact Or.inl fun _ hpast _ => ⟨next, rfl, lt_of_le_of_lt hpast (nextFireAt_later hcron hnext)⟩
  | kept hbase => exact Or.inr fun _ hold _ => hold hbase

theorem anchored_createRow (hcron : cron.Forward) {request : CreateScheduledRunRequest}
    {runRequest : CreateRunRequest} {stamp now : Instant} {row : ScheduledRun}
    (h : ScheduleService.createRow cron request runRequest stamp now = .ok row) {instant : Instant}
    (hpast : instant ≤ now) : AnchoredAfter row instant := by
  obtain ⟨blank, hblank, hsaved⟩ := ScheduleService.createRow_saved h
  intro henabled
  generalize request.enabled = enabled at hsaved
  cases hsaved with
  | off => cases henabled
  | @anchored next hnext =>
      exact ⟨next, rfl, lt_of_le_of_lt hpast (nextFireAt_later hcron hnext)⟩
  | kept _ hanchor =>
      have hmissing : (ScheduleService.applyRequest request.toScheduledRunBase runRequest
        blank).nextFireAt = none := hblank
      rw [hmissing] at hanchor
      cases hanchor

theorem anchored_updateRow (hcron : cron.Forward) {request : UpdateScheduledRunRequest}
    {runRequest : CreateRunRequest} {stamp now : Instant} {old row : ScheduledRun}
    (h : ScheduleService.updateRow cron request runRequest stamp now old = .ok row) :
    (∀ instant, instant ≤ now → AnchoredAfter row instant) ∨
      ∀ instant, AnchoredAfter old instant → AnchoredAfter row instant := by
  -- `applyRequest` touches neither the switch nor the anchor.
  have hsaved := anchored_saved hcron (ScheduleService.updateRow_saved h)
  exact hsaved

theorem anchored_setEnabledRow (hcron : cron.Forward) {enabled : Bool} {stamp now : Instant}
    {old row : ScheduledRun}
    (h : ScheduleService.setEnabledRow cron enabled stamp now old = .ok row) :
    (∀ instant, instant ≤ now → AnchoredAfter row instant) ∨
      ∀ instant, AnchoredAfter old instant → AnchoredAfter row instant := by
  rcases ScheduleService.setEnabledRow_saved h with ⟨rfl, -⟩ | hsaved
  · exact Or.inr fun _ hold => hold
  · exact anchored_saved hcron hsaved

theorem mem_newFirings {now : Instant} {active : Uuid → Bool} {due : List (Uuid × ScheduledRun)}
    {f : Firing} (h : f ∈ newFirings settings cron now active due) :
    ∃ row, (f.scheduleId, row) ∈ due ∧ row.nextFireAt = some f.planned ∧ f.now = now ∧
      (ScheduleDispatcher.claimRow settings cron now (active f.scheduleId) row).2 = true := by
  unfold newFirings ScheduleDispatcher.toFire at h
  obtain ⟨x, hx, hf⟩ := List.mem_filterMap.mp h
  obtain ⟨⟨id, row⟩, hmem, rfl⟩ := List.mem_map.mp hx
  obtain ⟨planned, hplanned, rfl⟩ := Option.map_eq_some_iff.mp hf
  rw [List.mem_filter] at hmem
  exact ⟨row, hmem.1, hplanned, rfl, hmem.2⟩

/-- One claim fires a schedule at most once. -/
theorem pairwise_newFirings {now : Instant} {active : Uuid → Bool}
    {due : List (Uuid × ScheduledRun)} (hnodup : (due.map Prod.fst).Nodup) :
    (newFirings settings cron now active due).Pairwise fun f g => f.scheduleId ≠ g.scheduleId := by
  have hdue : due.Pairwise fun x y => x.1 ≠ y.1 := List.pairwise_map.mp hnodup
  have hfire : (ScheduleDispatcher.toFire settings cron now active due).Pairwise
      fun x y => x.1 ≠ y.1 := List.pairwise_map.mpr (hdue.filter _)
  apply hfire.filterMap _
  intro x y hxy f hf g hg
  obtain ⟨_, -, rfl⟩ := Option.map_eq_some_iff.mp hf
  obtain ⟨_, -, rfl⟩ := Option.map_eq_some_iff.mp hg
  exact hxy

/-- A due row is enabled, and its anchor, if it has one, has passed. -/
theorem enabled_of_mem_selectDue {locked : Uuid → Bool} {now : Instant} {id : Uuid}
    {row : ScheduledRun} (h : (id, row) ∈ ScheduleDispatcher.selectDue settings w.schedules locked now) :
    w.schedules.lookup id = some row ∧ row.enabled = true ∧
      ∀ planned, row.nextFireAt = some planned → planned ≤ now := by
  obtain ⟨hrow, hdue, -⟩ := ScheduleDispatcher.mem_selectDue h
  rw [ScheduleDispatcher.isDue, Bool.and_eq_true] at hdue
  refine ⟨hrow, hdue.1, fun planned hplanned => ?_⟩
  rw [hplanned] at hdue
  exact of_decide_eq_true hdue.2

/-- A new firing takes the anchor of a due row, which is not older than the grace period. -/
theorem due_of_mem_newFirings {now : Instant} {active locked : Uuid → Bool} {f : Firing}
    (h : f ∈ newFirings settings cron now active
      (ScheduleDispatcher.selectDue settings w.schedules locked now)) :
    f.planned ≤ now ∧ f.now - f.planned ≤ seconds settings.schedulesMissedGraceSeconds ∧
      ∃ row, (f.scheduleId, row) ∈ ScheduleDispatcher.selectDue settings w.schedules locked now ∧
        row.nextFireAt = some f.planned := by
  obtain ⟨row, hmem, hplanned, hnow, hfires⟩ := mem_newFirings h
  obtain ⟨planned, next, hplanned', -, hgrace, -⟩ := ScheduleDispatcher.claimRow_fires hfires
  obtain rfl := Option.some.inj (hplanned.symm.trans hplanned')
  exact ⟨(enabled_of_mem_selectDue hmem).2.2 _ hplanned, hnow ▸ hgrace, row, hmem, hplanned⟩

/-- The anchors after a claim lie after all planned instants, old and new. -/
theorem ahead_claim (hcron : cron.Forward) (hinv : Anchored settings w) {now : Instant}
    {active locked : Uuid → Bool} {f : Firing}
    (hf : f ∈ w.fired ∨ f ∈ newFirings settings cron now active
      (ScheduleDispatcher.selectDue settings w.schedules locked now)) {row : ScheduledRun}
    (hrow : (ScheduleDispatcher.claimedTable settings cron now active
      (ScheduleDispatcher.selectDue settings w.schedules locked now) w.schedules).lookup
        f.scheduleId = some row) : AnchoredAfter row f.planned := by
  rcases ScheduleDispatcher.lookup_claimedTable_cases
    (ScheduleDispatcher.nodup_selectDue settings w.schedules locked now) f.scheduleId with
    ⟨hnot, hsame⟩ | ⟨old, hmem, hclaimed⟩
  · rcases hf with hf | hf
    · exact hinv.ahead f hf row (hsame.symm.trans hrow)
    · obtain ⟨-, -, due, hdue, -⟩ := due_of_mem_newFirings hf
      exact absurd (List.mem_map_of_mem hdue) hnot
  · rw [hclaimed, Option.some.injEq] at hrow
    subst hrow
    intro henabled
    have hpast : f.planned ≤ now := by
      rcases hf with hf | hf
      · obtain ⟨hold, holdEnabled, hplanned⟩ := enabled_of_mem_selectDue hmem
        obtain ⟨next, hnext, hlt⟩ := hinv.ahead f hf old hold holdEnabled
        exact le_trans (le_of_lt hlt) (hplanned next hnext)
      · exact (due_of_mem_newFirings hf).1
    rcases @ScheduleDispatcher.claimRow_anchor settings cron now hcron old
      (active f.scheduleId) with ⟨-, next, hnext, hlater⟩ | ⟨hdisabled, -⟩
    · exact ⟨next, hnext, lt_of_le_of_lt hpast hlater⟩
    · rw [hdisabled] at henabled
      cases henabled

theorem anchored_claim (hcron : cron.Forward) (hinv : Anchored settings w) {c : Nat}
    {locked active : Uuid → Bool} (h : claim settings cron w c locked active = some w') :
    Anchored settings w' := by
  obtain ⟨now, hnow, h⟩ := Option.bind_eq_some_iff.mp h
  cases h
  constructor
  case ticks =>
    intro c' now' hnow'
    change Function.update w.ticks c none c' = some now' at hnow'
    by_cases hc : c' = c
    · rw [hc, Function.update_self] at hnow'
      cases hnow'
    · rw [Function.update_of_ne hc] at hnow'
      exact hinv.ticks c' now' hnow'
  case behind =>
    intro f hf
    rcases List.mem_append.mp hf with hold | hnew
    · exact hinv.behind f hold
    · exact le_trans (due_of_mem_newFirings hnew).1 (hinv.ticks c now hnow)
  case ahead =>
    exact fun f hf row hrow => ahead_claim hcron hinv (List.mem_append.mp hf) hrow
  case sorted =>
    refine List.pairwise_append.mpr ⟨hinv.sorted, ?_, fun f hf g hg hid => ?_⟩
    · exact (pairwise_newFirings (ScheduleDispatcher.nodup_selectDue _ _ _ _)).imp
        fun hne hid => absurd hid hne
    · obtain ⟨-, -, row, hmem, hplanned⟩ := due_of_mem_newFirings hg
      obtain ⟨hrow, henabled, -⟩ := enabled_of_mem_selectDue hmem
      obtain ⟨next, hnext, hlt⟩ := hinv.ahead f hf row (hid ▸ hrow) henabled
      rw [hplanned, Option.some.injEq] at hnext
      rwa [hnext]
  case grace =>
    intro f hf
    rcases List.mem_append.mp hf with hold | hnew
    · exact hinv.grace f hold
    · exact (due_of_mem_newFirings hnew).2.1

theorem anchored_step (hcron : cron.Forward) {a : Act} (hinv : Anchored settings w)
    (h : step settings cron w a = some w') : Anchored settings w' := by
  cases a with
  | advance clock =>
      rw [step] at h
      split at h
      · next hle =>
        cases h
        exact ⟨fun c now hnow => le_trans (hinv.ticks c now hnow) hle,
          fun f hf => le_trans (hinv.behind f hf) hle, hinv.ahead, hinv.sorted, hinv.grace⟩
      · cases h
  | tick c =>
      rw [step] at h
      split at h
      · cases h
        refine ⟨fun c' now hnow => ?_, hinv.behind, hinv.ahead, hinv.sorted, hinv.grace⟩
        change Function.update w.ticks c (some w.clock) c' = some now at hnow
        by_cases hc : c' = c
        · rw [hc, Function.update_self, Option.some.injEq] at hnow
          exact le_of_eq hnow.symm
        · rw [Function.update_of_ne hc] at hnow
          exact hinv.ticks c' now hnow
      · cases h
  | claim c locked active => exact anchored_claim hcron hinv h
  | createSchedule id request runRequest =>
      simp only [step, createSchedule, Option.bind_eq_bind, Option.bind_eq_some_iff,
        toOption_eq_some] at h
      obtain ⟨-, -, -, -, row, hrow, h⟩ := h
      cases h
      exact hinv.insert (Or.inl fun _ hpast => anchored_createRow hcron hrow hpast)
  | updateSchedule id request runRequest =>
      simp only [step, updateSchedule, Option.bind_eq_bind, Option.bind_eq_some_iff,
        toOption_eq_some] at h
      obtain ⟨old, hold, -, -, row, hrow, h⟩ := h
      cases h
      exact hinv.insert ((anchored_updateRow hcron hrow).imp_right fun hkeeps => ⟨old, hold, hkeeps⟩)
  | setEnabled id enabled =>
      simp only [step, setEnabled, Option.bind_eq_bind, Option.bind_eq_some_iff,
        toOption_eq_some] at h
      obtain ⟨old, hold, row, hrow, h⟩ := h
      cases h
      exact hinv.insert
        ((anchored_setEnabledRow hcron hrow).imp_right fun hkeeps => ⟨old, hold, hkeeps⟩)
  | deleteSchedule id =>
      obtain ⟨-, -, h⟩ := Option.bind_eq_some_iff.mp h
      cases h
      refine ⟨hinv.ticks, hinv.behind, fun f hf row hrow => ?_, hinv.sorted, hinv.grace⟩
      by_cases hid : f.scheduleId = id
      · rw [hid, AList.lookup_erase] at hrow
        cases hrow
      · rw [AList.lookup_erase_ne hid] at hrow
        exact hinv.ahead f hf row hrow
  | recordFire id now status runId error =>
      obtain ⟨old, hold, h⟩ := Option.bind_eq_some_iff.mp h
      cases h
      exact hinv.insert (Or.inr ⟨old, hold, fun _ hkeeps => hkeeps⟩)

/-- The planned instants of one schedule, in the order in which they were claimed. -/
def plannedOf (id : Uuid) (fired : List Firing) : List Instant :=
  (fired.filter fun f => f.scheduleId = id).map Firing.planned

/-- Whatever the dispatchers and the callers do, the planned instants of a schedule are claimed in
strictly increasing order, and none of them longer ago than the grace period. -/
theorem planned_strictly_increasing (hcron : cron.Forward) {clock : Instant}
    {schedules : Table Uuid ScheduledRun} {acts : List Act}
    (hexec : (system settings cron).exec (World.start clock schedules) acts = some w) :
    (∀ id, (plannedOf id w.fired).Pairwise (· < ·)) ∧
      ∀ f ∈ w.fired, f.now - f.planned ≤ seconds settings.schedulesMissedGraceSeconds := by
  have hinv : Anchored settings w := System.exec_invariant_of_forall (I := Anchored settings)
    (fun hi hs => anchored_step hcron hi hs) (World.start_anchored clock schedules) hexec
  refine ⟨fun id => ?_, hinv.grace⟩
  rw [plannedOf, List.pairwise_map]
  refine (List.Pairwise.and_mem.mp (hinv.sorted.filter _)).imp fun {f g} hfg => ?_
  obtain ⟨hf, hg, hlt⟩ := hfg
  rw [List.mem_filter, decide_eq_true_eq] at hf hg
  exact hlt (hf.2.trans hg.2.symm)

/-- The result for one schedule that is due every minute. -/
theorem planned_strictly_increasing_everyMinute :
    ∃ w, (system {} everyMinute).exec (World.start 0 ∅)
        [.createSchedule 1
          { name := "nightly".toList, cronExpression := "* * * * *".toList } sampleRunRequest,
          .advance (seconds 61), .tick 0, .claim 0 (fun _ => false) (fun _ => false),
          .advance (seconds 125), .tick 0, .claim 0 (fun _ => false) (fun _ => false)] = some w ∧
      plannedOf 1 w.fired = [seconds 60, seconds 120] ∧
      (∀ id, (plannedOf id w.fired).Pairwise (· < ·)) ∧
        ∀ f ∈ w.fired, f.now - f.planned ≤ seconds 120 := by
  have hplanned : ((system {} everyMinute).exec (World.start 0 ∅)
      [.createSchedule 1
        { name := "nightly".toList, cronExpression := "* * * * *".toList } sampleRunRequest,
        .advance (seconds 61), .tick 0, .claim 0 (fun _ => false) (fun _ => false),
        .advance (seconds 125), .tick 0, .claim 0 (fun _ => false) (fun _ => false)]).map
          (fun w => plannedOf 1 w.fired) = some [seconds 60, seconds 120] := by
    decide
  obtain ⟨w, hexec, hplanned⟩ := Option.map_eq_some_iff.mp hplanned
  exact ⟨w, hexec, hplanned, planned_strictly_increasing everyMinute_forward hexec⟩

end PdeOperator.Anchors
