import PdeOperator.CronIntervals
import PdeOperator.FiringClaims

/-! `preview_fire_times` against the dispatcher. The occurrences that ticks claim for a schedule are
among the fire times that were shown when it was saved, in their order; they are the first of them when
every claim comes in time. -/

namespace PdeOperator
open Base

/-- `get_next` in a time zone goes through exactly some instants, in increasing order. -/
def CronLibrary.EnumeratesIn (cron : CronLibrary) (expression zone : Text) (occurs : Instant → Prop) : Prop :=
  ∀ base next, cron.getNext expression (CronUtils.secondAtBeginning expression) zone base = some next ↔
    IsNext occurs base next

namespace CronUtils

variable (cron : CronLibrary)

/-- The calls of `get_next` on one iterator. -/
def readTimes (expression zone : Text) : Nat → Instant → Except Error (List Instant)
  | 0, _ => .ok []
  | count + 1, base =>
      match cron.getNext expression (secondAtBeginning expression) zone base with
      | none => .error .badDate
      | some next => (readTimes expression zone count next).map (next :: ·)

def nextFireTimes (expression timezone : Text) (count : Int) (base : Instant) :
    Except Error (List Instant) := do
  let zone ← resolveTimezone cron timezone
  readTimes cron expression zone (max count 1).toNat base

variable {cron} {expression timezone zone : Text} {occurs : Instant → Prop} {base : Instant}
  {times : List Instant}

theorem readTimes_reads (henum : cron.EnumeratesIn expression zone occurs) {count : Nat}
    (h : readTimes cron expression zone count base = .ok times) :
    Reads occurs base times ∧ times.length = count := by
  induction count generalizing base times with
  | zero =>
      obtain rfl := Except.ok.inj h
      exact ⟨List.isChain_singleton base, rfl⟩
  | succ count ih =>
      rw [readTimes] at h
      cases hnext : cron.getNext expression (secondAtBeginning expression) zone base with
      | none =>
          rw [hnext] at h
          cases h
      | some next =>
          rw [hnext] at h
          obtain ⟨rest, hrest, rfl⟩ := map_eq_ok.mp h
          obtain ⟨hreads, hlength⟩ := ih hrest
          exact ⟨reads_cons.mpr ⟨(henum base next).mp hnext, hreads⟩, by simp [hlength]⟩

/-- `next_fire_time` is the first of `next_fire_times`. -/
theorem nextFireTimes_one :
    nextFireTimes cron expression timezone 1 base =
      (nextFireTime cron expression timezone base).map ([·]) := by
  unfold nextFireTimes nextFireTime
  cases resolveTimezone cron timezone with
  | error cause => rfl
  | ok zone =>
      dsimp only [bind, Except.bind]
      rw [show (max (1 : Int) 1).toNat = 0 + 1 from rfl, readTimes]
      cases cron.getNext expression (secondAtBeginning expression) zone base <;> rfl

theorem nextFireTime_ok (hzone : resolveTimezone cron timezone = .ok zone)
    (henum : cron.EnumeratesIn expression zone occurs) {next : Instant}
    (h : nextFireTime cron expression timezone base = .ok next) : IsNext occurs base next := by
  unfold nextFireTime at h
  obtain ⟨zone', hzone', h⟩ := bind_eq_ok.mp h
  obtain rfl := Except.ok.inj (hzone.symm.trans hzone')
  cases hnext : cron.getNext expression (secondAtBeginning expression) zone base with
  | none =>
      rw [hnext] at h
      cases h
  | some later =>
      rw [hnext] at h
      obtain rfl := Except.ok.inj h
      exact (henum base later).mp hnext

end CronUtils

namespace ScheduleService

/-- `now` is the time of the check, `base` that of the preview. -/
def previewFireTimes (settings : Settings) (cron : CronLibrary) (cronExpression timezone : Text) (count : Int)
    (now base : Instant) : Except Error (List Instant) := do
  validateCron settings cron cronExpression timezone now
  (CronUtils.nextFireTimes cron cronExpression timezone count base).mapError Error.cron

/-- A preview shows the first occurrences after its base, at least one. -/
theorem previewFireTimes_reads {settings : Settings} {cron : CronLibrary}
    {cronExpression timezone zone : Text} {occurs : Instant → Prop} {count : Int} {now base : Instant}
    {times : List Instant} (hzone : CronUtils.resolveTimezone cron timezone = .ok zone)
    (henum : cron.EnumeratesIn cronExpression zone occurs)
    (h : previewFireTimes settings cron cronExpression timezone count now base = .ok times) :
    Reads occurs base times ∧ times.length = (max count 1).toNat := by
  obtain ⟨-, -, h⟩ := bind_eq_ok.mp h
  obtain ⟨zone', hzone', hread⟩ := bind_eq_ok.mp (mapError_eq_ok.mp h)
  obtain rfl := Except.ok.inj (hzone.symm.trans hzone')
  exact CronUtils.readTimes_reads henum hread

end ScheduleService

namespace Firing

/-! ### What the ticks claim -/

section Claims

variable (settings : Settings) (cron : CronLibrary) (id : Uuid)

/-- The planned instant with which a claim returns the schedule. -/
def plannedBy (w : World) : Act → Option Instant
  | .claim _ now locked =>
      ((ScheduleDispatcher.toFire settings cron now w.active (due settings w now locked)).find?
        fun x => x.1 == id).bind Prod.snd
  | _ => none

/-- The schedule that a call is going to write or delete. -/
def Call.edits : Call → Option Uuid
  | .updating id .. => some id
  | .enabling id .. => some id
  | .deleting id .. => some id
  | _ => none

/-- The step is not the commit of an update, a switch or a deletion of the schedule. -/
def LeavesTiming (w : World) : Act → Prop
  | .updateCommit c _ _ | .enableCommit c _ _ | .deleteCommit c => (w.calls c).bind Call.edits ≠ some id
  | _ => True

/-- A claim of the schedule comes before the occurrence after the planned one, within the grace time,
and no run of the schedule makes it skip. -/
def OnTime (occurs : Instant → Prop) (w : World) : Act → Prop
  | .claim _ now locked => ∀ row planned, (id, row) ∈ due settings w now locked →
      row.nextFireAt = some planned →
      (∀ t, planned < t → t ≤ now → ¬occurs t) ∧
        now - planned ≤ seconds settings.schedulesMissedGraceSeconds ∧
        ¬(row.overlapPolicy = OverlapPolicy.skip ∧ w.active id = true)
  | _ => True

/-- Two versions of a row that are due at the same times. -/
structure SameTiming (row row' : ScheduledRun) : Prop where
  cronExpression : row'.cronExpression = row.cronExpression
  timezone : row'.timezone = row.timezone
  enabled : row'.enabled = row.enabled
  nextFireAt : row'.nextFireAt = row.nextFireAt

/-- What a step that leaves the timing of a schedule makes of its row. -/
inductive Turn (w : World) (a : Act) (row row' : ScheduledRun) : Prop where
  | stays (hplanned : plannedBy settings cron id w a = none) (hsame : SameTiming row row')
  | claimed {c now locked} (ha : a = .claim c now locked) (hdue : (id, row) ∈ due settings w now locked)
      (hrow : row' = (ScheduleDispatcher.claimRow settings cron now (w.active id) row).1)

end Claims

variable {settings : Settings} {cron : CronLibrary}
  {declarative : Uuid → JsonObject → Except ScheduleService.Error CreateRunRequest} {w w' : World} {a : Act}
  {id : Uuid} {row row' : ScheduledRun}

theorem SameTiming.rfl : SameTiming row row := ⟨Eq.refl _, Eq.refl _, Eq.refl _, Eq.refl _⟩

/-- Writing back a copy whose timing the session has not changed leaves it as it is. -/
theorem SameTiming.writeBack {read work current : ScheduledRun} (h : SameTiming read work) :
    SameTiming current (writeBack read work current) where
  cronExpression := column_kept h.cronExpression _
  timezone := column_kept h.timezone _
  enabled := column_kept h.enabled _
  nextFireAt := column_kept h.nextFireAt _

theorem sameTiming_applyFireResult (now : Instant) (status : FireStatus) (runId : Option Uuid)
    (error : Option Text) (row : ScheduledRun) :
    SameTiming row (ScheduleService.applyFireResult now status runId error row) :=
  ⟨rfl, rfl, rfl, rfl⟩

/-- A claim returns a row with the instant that was planned for it, or not at all. -/
theorem plannedBy_claim {c : Nat} {now : Instant} {locked : Uuid → Bool}
    (hdue : (id, row) ∈ due settings w now locked) :
    plannedBy settings cron id w (.claim c now locked) =
      if (ScheduleDispatcher.claimRow settings cron now (w.active id) row).2 then row.nextFireAt else none := by
  have hunique : ∀ x ∈ due settings w now locked, x.1 = id → x = (id, row) := by
    rintro ⟨key, other⟩ hx rfl
    obtain ⟨hother, -⟩ := ScheduleDispatcher.mem_selectDue hx
    obtain ⟨hrow, -⟩ := ScheduleDispatcher.mem_selectDue hdue
    rw [Option.some.inj (hother.symm.trans hrow)]
  rw [plannedBy]
  cases hfound : (ScheduleDispatcher.toFire settings cron now w.active
      (due settings w now locked)).find? fun x => x.1 == id with
  | none =>
      have hnot : ¬(ScheduleDispatcher.claimRow settings cron now (w.active id) row).2 = true := by
        intro hfires
        have hmem : (id, row.nextFireAt) ∈ ScheduleDispatcher.toFire settings cron now w.active
            (due settings w now locked) :=
          List.mem_map.mpr ⟨(id, row), List.mem_filter.mpr ⟨hdue, hfires⟩, rfl⟩
        have habsent := List.find?_eq_none.mp hfound _ hmem
        simp at habsent
      rw [if_neg hnot]
      rfl
  | some x =>
      have hid : x.1 = id := by simpa using List.find?_some hfound
      obtain ⟨y, hy, rfl⟩ := List.mem_map.mp (List.mem_of_find?_eq_some hfound)
      obtain ⟨hmem, hfires⟩ := List.mem_filter.mp hy
      obtain rfl := hunique y hmem hid
      rw [if_pos hfires]
      rfl

theorem plannedBy_of_notMem {c : Nat} {now : Instant} {locked : Uuid → Bool}
    (hdue : id ∉ (due settings w now locked).map Prod.fst) :
    plannedBy settings cron id w (.claim c now locked) = none := by
  have habsent : (ScheduleDispatcher.toFire settings cron now w.active
      (due settings w now locked)).find? (fun x => x.1 == id) = none := by
    apply List.find?_eq_none.mpr
    intro x hx
    obtain ⟨y, hy, rfl⟩ := List.mem_map.mp hx
    have hmem : y.1 ∈ (due settings w now locked).map Prod.fst :=
      List.mem_map_of_mem (List.mem_filter.mp hy).1
    have hne : y.1 ≠ id := fun heq => hdue (heq ▸ hmem)
    simpa using hne
  rw [plannedBy, habsent]
  rfl

/-- A row that is written back keeps its timing when it is another one or the copy has the same timing. -/
theorem turn_flush {key : Uuid} {read work : ScheduledRun} {schedules : Table Uuid ScheduledRun}
    (hplanned : plannedBy settings cron id w a = none) (hrow : w.schedules.lookup id = some row)
    (hflush : w.schedules.flush ⟨key, read, work⟩ = some schedules)
    (hwork : id = key → SameTiming read work) :
    ∃ row', schedules.lookup id = some row' ∧ Turn settings cron id w a row row' := by
  by_cases hid : id = key
  · subst hid
    have hlookup : schedules.lookup id = (w.schedules.lookup id).map (Base.writeBack read work) :=
      Table.lookup_flush_self hflush
    rw [hrow, Option.map_some] at hlookup
    exact ⟨_, hlookup, .stays hplanned (hwork rfl).writeBack⟩
  · exact ⟨row, (Table.lookup_flush_of_ne hflush hid).trans hrow, .stays hplanned .rfl⟩

/-- The step lemma: a row that is not edited is claimed, or keeps its timing. -/
theorem turn_of_step (h : Step settings cron w a w') (hok : LeavesTiming id w a)
    (hrow : w.schedules.lookup id = some row) :
    ∃ row', w'.schedules.lookup id = some row' ∧ Turn settings cron id w a row row' := by
  cases h with
  | claim hcall =>
      rename_i c now locked
      rcases ScheduleDispatcher.lookup_claimedTable_cases
        (ScheduleDispatcher.nodup_selectDue settings w.schedules locked now) id with
        ⟨hnot, hsame⟩ | ⟨picked, hmem, hclaimed⟩
      · exact ⟨row, hsame.trans hrow, .stays (plannedBy_of_notMem hnot) .rfl⟩
      · obtain ⟨hpicked, -⟩ := ScheduleDispatcher.mem_selectDue hmem
        obtain rfl := Option.some.inj (hpicked.symm.trans hrow)
        exact ⟨_, hclaimed, .claimed rfl hmem rfl⟩
  | recordCommit hcall hflush =>
      rw [next_eq]
      exact turn_flush rfl hrow hflush fun _ => sameTiming_applyFireResult _ _ _ _ _
  | recordInsert hcall hflush hlookup =>
      rw [next_eq]
      exact turn_flush rfl hrow hflush fun _ => sameTiming_applyFireResult _ _ _ _ _
  | updateCommit hcall hwork hflush =>
      refine turn_flush rfl hrow hflush fun hid => absurd ?_ hok
      rw [hcall, hid]
      rfl
  | enableCommit hcall hwork hflush =>
      refine turn_flush rfl hrow hflush fun hid => absurd ?_ hok
      rw [hcall, hid]
      rfl
  | createCommit hcall hcreate hnone =>
      rename_i c stamp now key request runRequest new
      have hid : id ≠ key := by
        rintro rfl
        cases hnone.symm.trans hrow
      exact ⟨row, (AList.lookup_insert_ne hid).trans hrow, .stays rfl .rfl⟩
  | deleteCommit hcall =>
      rename_i c key
      have hid : id ≠ key := by
        rintro rfl
        apply hok
        rw [hcall]
        rfl
      exact ⟨row, (AList.lookup_erase_ne hid).trans hrow, .stays rfl .rfl⟩
  | _ => exact ⟨row, hrow, .stays rfl .rfl⟩

/-- A row of given times whose anchor follows a base, or that is not going to be due. -/
structure Anchored (R : Instant → Instant → Prop) (expression timezone : Text) (base : Instant)
    (row : ScheduledRun) : Prop where
  cronExpression : row.cronExpression = expression
  timezone : row.timezone = timezone
  follows : ∀ anchor, row.nextFireAt = some anchor → R base anchor
  resting : row.nextFireAt = none → row.enabled = false

theorem Anchored.of_same {R : Instant → Instant → Prop} {expression timezone : Text} {base : Instant}
    (h : Anchored R expression timezone base row) (hsame : SameTiming row row') :
    Anchored R expression timezone base row' where
  cronExpression := hsame.cronExpression.trans h.cronExpression
  timezone := hsame.timezone.trans h.timezone
  follows anchor hanchor := h.follows anchor (hsame.nextFireAt.symm.trans hanchor)
  resting hnone := hsame.enabled.trans (h.resting (hsame.nextFireAt.symm.trans hnone))

variable (settings cron) in
/-- A claim either disables a row for good or anchors it at the next fire time. -/
theorem claimRow_timing (now : Instant) (isActive : Bool) (row : ScheduledRun) :
    (ScheduleDispatcher.claimRow settings cron now isActive row).1.cronExpression = row.cronExpression ∧
      (ScheduleDispatcher.claimRow settings cron now isActive row).1.timezone = row.timezone ∧
      ((ScheduleDispatcher.claimRow settings cron now isActive row).2 = false ∧
          (ScheduleDispatcher.claimRow settings cron now isActive row).1.enabled = false ∧
          (ScheduleDispatcher.claimRow settings cron now isActive row).1.nextFireAt = none ∨
        ∃ next, CronUtils.nextFireTime cron row.cronExpression row.timezone now = .ok next ∧
          (ScheduleDispatcher.claimRow settings cron now isActive row).1.nextFireAt = some next) := by
  unfold ScheduleDispatcher.claimRow
  cases hnext : CronUtils.nextFireTime cron row.cronExpression row.timezone now with
  | error cause => exact ⟨rfl, rfl, Or.inl ⟨rfl, rfl, rfl⟩⟩
  | ok next =>
      cases row.nextFireAt with
      | none => exact ⟨rfl, rfl, Or.inr ⟨next, rfl, rfl⟩⟩
      | some planned =>
          dsimp only
          split
          · exact ⟨rfl, rfl, Or.inr ⟨next, rfl, rfl⟩⟩
          · split
            · exact ⟨rfl, rfl, Or.inr ⟨next, rfl, rfl⟩⟩
            · exact ⟨rfl, rfl, Or.inr ⟨next, rfl, rfl⟩⟩

/-- The instants that are claimed in a run are a chain when every claim hands the anchor on. -/
theorem chain_planned {R : Instant → Instant → Prop} {ok : World → Act → Prop} {occurs : Instant → Prop}
    {expression timezone zone : Text} (hzone : CronUtils.resolveTimezone cron timezone = .ok zone)
    (henum : cron.EnumeratesIn expression zone occurs)
    (hleaves : ∀ {w a}, ok w a → LeavesTiming id w a)
    (hhand : ∀ {w c now locked row planned next}, ok w (.claim c now locked) →
      (id, row) ∈ due settings w now locked → row.nextFireAt = some planned → planned ≤ now →
      IsNext occurs now next → CronUtils.nextFireTime cron row.cronExpression row.timezone now = .ok next →
      R planned next ∧ ((ScheduleDispatcher.claimRow settings cron now (w.active id) row).2 = false →
        ∀ base, R base planned → R base next))
    {base : Instant} {acts : List Act} (hrow : w.schedules.lookup id = some row)
    (hanchored : Anchored R expression timezone base row)
    (hok : (system settings cron declarative).Meets ok w acts)
    (hexec : (system settings cron declarative).exec w acts = some w') :
    (base :: (system settings cron declarative).observed (plannedBy settings cron id) w acts).IsChain R := by
  induction acts generalizing w row base with
  | nil => exact List.isChain_singleton base
  | cons a acts ih =>
      obtain ⟨next, hstep, hrest⟩ := (System.exec_cons_eq_some _).mp hexec
      obtain ⟨row', hrow', hturn⟩ := turn_of_step (step_cases hstep) (hleaves hok.1) hrow
      rw [System.observed, hstep, Option.elim_some]
      cases hturn with
      | stays hplanned hsame =>
          rw [hplanned, Option.toList_none, List.nil_append]
          exact ih hrow' (hanchored.of_same hsame) (hok.2 next hstep) hrest
      | claimed ha hdue heq =>
          subst ha heq
          rename_i c now locked
          obtain ⟨-, hisDue, -⟩ := ScheduleDispatcher.mem_selectDue hdue
          obtain ⟨henabled, hpast⟩ := (Bool.and_eq_true _ _).mp hisDue
          rw [plannedBy_claim hdue]
          obtain ⟨hexpression, htimezone, hresult⟩ :=
            claimRow_timing settings cron now (w.active id) row
          cases hanchor : row.nextFireAt with
          | none =>
              have hdisabled : row.enabled = false := hanchored.resting hanchor
              exact absurd (hdisabled.symm.trans henabled) Bool.false_ne_true
          | some planned =>
              have hfollows : R base planned := hanchored.follows planned hanchor
              rcases hresult with ⟨hnot, hdisabled, hnone⟩ | ⟨later, hlater, hset⟩
              · rw [if_neg (Bool.eq_false_iff.mp hnot)]
                refine ih hrow' ⟨hexpression.trans hanchored.1, htimezone.trans hanchored.2, ?_, ?_⟩
                  (hok.2 next hstep) hrest
                · intro anchor hanchor'
                  cases hnone.symm.trans hanchor'
                · exact fun _ => hdisabled
              · have hpast' : planned ≤ now := by
                  rw [hanchor] at hpast
                  exact of_decide_eq_true hpast
                have hisNext : IsNext occurs now later := by
                  rw [hanchored.cronExpression, hanchored.timezone] at hlater
                  exact CronUtils.nextFireTime_ok hzone henum hlater
                obtain ⟨hhanded, hskipped⟩ := hhand hok.1 hdue hanchor hpast' hisNext hlater
                have hthen : ∀ {s}, R s later →
                    (s :: (system settings cron declarative).observed (plannedBy settings cron id) next
                      acts).IsChain R := by
                  intro s hs
                  refine ih hrow' ⟨hexpression.trans hanchored.1, htimezone.trans hanchored.2, ?_, ?_⟩
                    (hok.2 next hstep) hrest
                  · intro anchor hanchor'
                    obtain rfl := Option.some.inj (hset.symm.trans hanchor')
                    exact hs
                  · intro hnone
                    cases hset.symm.trans hnone
                cases hfires : (ScheduleDispatcher.claimRow settings cron now (w.active id) row).2 with
                | false => exact hthen (hskipped hfires base hfollows)
                | true => exact List.isChain_cons_cons.mpr ⟨hfollows, hthen hhanded⟩

/-- Whatever ticks, fires and edits of other schedules come after a schedule was saved, enabled or claimed,
the occurrences that are claimed for it and that a preview of that time shows are claimed in the order
of the preview, and every other claimed one lies beyond the preview. When every claim of the schedule comes
in time, the claimed occurrences and the preview are one list, as far as either goes. -/
theorem claims_follow_preview (settings : Settings) (cron : CronLibrary)
    (declarative : Uuid → JsonObject → Except ScheduleService.Error CreateRunRequest)
    {occurs : Instant → Prop} {zone : Text} {start anchor now : Instant} {count : Int} {times : List Instant}
    {acts : List Act} (hzone : CronUtils.resolveTimezone cron row.timezone = .ok zone)
    (henum : cron.EnumeratesIn row.cronExpression zone occurs)
    (hrow : w.schedules.lookup id = some row) (hanchor : row.nextFireAt = some anchor)
    (hstart : CronUtils.nextFireTime cron row.cronExpression row.timezone start = .ok anchor)
    (hok : (system settings cron declarative).Meets (LeavesTiming id) w acts)
    (hexec : (system settings cron declarative).exec w acts = some w')
    (hpreview : ScheduleService.previewFireTimes settings cron row.cronExpression row.timezone count now
      start = .ok times) :
    (((system settings cron declarative).observed (plannedBy settings cron id) w acts).filter
        (· ∈ times)).Sublist times ∧
      (∀ t ∈ (system settings cron declarative).observed (plannedBy settings cron id) w acts,
        t ∈ times ∨ ∀ s ∈ times, s < t) ∧
      ((system settings cron declarative).Meets (OnTime settings id occurs) w acts →
        (system settings cron declarative).observed (plannedBy settings cron id) w acts <+: times ∨
          times <+: (system settings cron declarative).observed (plannedBy settings cron id) w acts) := by
  obtain ⟨hreads, -⟩ := ScheduleService.previewFireTimes_reads hzone henum hpreview
  have hfirst : IsNext occurs start anchor := CronUtils.nextFireTime_ok hzone henum hstart
  have hanchored : ∀ {R : Instant → Instant → Prop}, R start anchor →
      Anchored R row.cronExpression row.timezone start row := by
    intro R hR
    refine ⟨rfl, rfl, fun t ht => ?_, fun hnone => ?_⟩
    · obtain rfl := Option.some.inj (hanchor.symm.trans ht)
      exact hR
    · cases hanchor.symm.trans hnone
  have hpicks : Picks occurs start
      ((system settings cron declarative).observed (plannedBy settings cron id) w acts) := by
    refine chain_planned hzone henum (fun h => h) ?_ hrow (hanchored ⟨hfirst.lt, hfirst.mem⟩) hok hexec
    intro u c now locked row planned next _ _ _ hpast hnext _
    exact ⟨⟨hpast.trans_lt hnext.lt, hnext.mem⟩,
      fun _ base hbase => ⟨hbase.1.trans (hpast.trans_lt hnext.lt), hnext.mem⟩⟩
  refine ⟨hreads.filter_sublist hpicks,
    fun t ht => hreads.mem_or_lt (hpicks.lt_of_mem ht) (hpicks.mem ht), fun hontime => ?_⟩
  have hfollows : Reads occurs start
      ((system settings cron declarative).observed (plannedBy settings cron id) w acts) := by
    refine chain_planned hzone henum (fun h => h.1) ?_ hrow (hanchored hfirst) (hok.and hontime) hexec
    intro u c now locked row planned next hmeets hdue hplanned hpast hnext hlater
    obtain ⟨hnone, hgrace, hpolicy⟩ := hmeets.2 row planned hdue hplanned
    refine ⟨⟨hpast.trans_lt hnext.lt, hnext.mem, fun t hlt ht => ?_⟩, fun hnot => ?_⟩
    · by_contra hearly
      have hbefore : t ≤ now := by
        by_contra hafter
        exact hearly (hnext.least t (not_le.mp hafter) ht)
      exact hnone t hlt hbefore ht
    · -- A claim in time fires.
      unfold ScheduleDispatcher.claimRow at hnot
      rw [hlater, hplanned] at hnot
      dsimp only at hnot
      rw [if_neg (not_lt.mpr hgrace), if_neg hpolicy] at hnot
      cases hnot
  exact hfollows.prefix_or_prefix hreads

def everyFullMinute (t : Int) : Prop := t % seconds 60 = 0

theorem everyMinute_enumeratesIn (expression zone : Text) :
    everyMinute.EnumeratesIn expression zone everyFullMinute := by
  have hnext : ∀ base : Int, IsNext everyFullMinute base ((base / seconds 60 + 1) * seconds 60) := by
    intro base
    refine ⟨everyMinute_forward expression false zone base _ rfl, Int.mul_emod_left _ _, fun t hlt ht => ?_⟩
    simp only [everyFullMinute, seconds] at ht ⊢
    omega
  intro base next
  refine ⟨fun h => ?_, fun h => congrArg some ((hnext base).unique h)⟩
  obtain rfl := Option.some.inj h
  exact hnext base

/-- One dispatcher claims at the planned minute, another one ten seconds after the next. -/
def twoClaims : List Act := [claimAt 0 (seconds 60), claimAt 1 (seconds 130)]

/-- A preview of three fire times against two claims in time. -/
theorem claims_follow_preview_twice :
    sampleSystem.observed (plannedBy {} everyMinute 1) (sampleWorld OverlapPolicy.allow) twoClaims <+:
        [seconds 60, seconds 120, seconds 180] ∨
      [seconds 60, seconds 120, seconds 180] <+:
        sampleSystem.observed (plannedBy {} everyMinute 1) (sampleWorld OverlapPolicy.allow) twoClaims := by
  obtain ⟨w', hexec⟩ : ∃ w', sampleSystem.exec (sampleWorld OverlapPolicy.allow) twoClaims = some w' :=
    ⟨_, rfl⟩
  have hok : sampleSystem.Meets (LeavesTiming 1) (sampleWorld OverlapPolicy.allow) twoClaims :=
    ⟨trivial, fun _ _ => ⟨trivial, fun _ _ => trivial⟩⟩
  have hrow : (sampleWorld OverlapPolicy.allow).schedules.lookup 1 = some (sampleRow OverlapPolicy.allow) := rfl
  have hstart : CronUtils.nextFireTime everyMinute "* * * * *".toList "UTC".toList 0 = .ok (seconds 60) := by
    decide
  have hpreview : ScheduleService.previewFireTimes {} everyMinute "* * * * *".toList "UTC".toList 3 0 0 =
      .ok [seconds 60, seconds 120, seconds 180] := by
    decide
  refine (claims_follow_preview {} everyMinute noTemplates (by decide)
    (everyMinute_enumeratesIn _ "UTC".toList) hrow rfl hstart hok hexec hpreview).2.2 ⟨?_, fun u hu => ?_⟩
  · intro row planned hdue hplanned
    obtain ⟨hlookup, -⟩ := ScheduleDispatcher.mem_selectDue hdue
    obtain rfl := Option.some.inj hlookup
    obtain rfl := Option.some.inj hplanned
    exact ⟨fun t hlt hle => absurd hlt (not_lt.mpr hle), by decide, by decide⟩
  · obtain rfl := Option.some.inj hu
    refine ⟨fun row planned hdue hplanned => ?_, fun _ _ => trivial⟩
    obtain ⟨hlookup, -⟩ := ScheduleDispatcher.mem_selectDue hdue
    obtain rfl := Option.some.inj hlookup
    obtain rfl := Option.some.inj hplanned
    refine ⟨fun (t : Int) (hlt : 120000000 < t) (hle : t ≤ 130000000) (ht : t % 60000000 = 0) => ?_,
      by decide, by decide⟩
    omega

end Firing
end PdeOperator
