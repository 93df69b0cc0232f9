import PdeOperator.QueueTick

/-! Consecutive admission ticks with no other activity. A run whose Job cannot be created stays at the
head of the queue, and the selection is limited to the free slots before the outcomes are known: as
many such runs as there are free slots block the queue. -/

namespace PdeOperator
open Base

namespace QueueService

section Ticks

variable (settings : Settings) (profiles : Table Text Profile) (outcomes : Uuid → JobOutcome)

/-- The Job of the queued run would be created if the run was looked at. -/
def startable (x : Uuid × Run) : Bool :=
  settings.k8sJobCreationEnabled && startsJob profiles outcomes x

/-- The creation of the Job fails, and the run stays in the queue. -/
def failing (x : Uuid × Run) : Bool :=
  (profiles.lookup x.2.profileId).isSome && outcomes x.1 != .created

variable (runs : Table Uuid Run)

def queuedCount : Nat := (runs.select fun _ run => run.isQueued).length

/-- The number of failing runs that are queued before a run. -/
def failingBefore (x : Uuid × Run) : Nat :=
  (runs.select fun id run => run.isQueued && failing profiles outcomes (id, run) &&
    decide (admittedBefore (id, run) x)).length

/-- The number of runs without a profile that are queued before a run. -/
def missingBefore (x : Uuid × Run) : Nat :=
  (runs.select fun id run => run.isQueued && (profiles.lookup run.profileId).isNone &&
    decide (admittedBefore (id, run) x)).length

/-- The runs after a number of consecutive ticks at the given instants. -/
def afterTicks (nows : Nat → Instant) : Nat → Table Uuid Run
  | 0 => runs
  | k + 1 => (admitOnce settings (nows k) profiles outcomes (afterTicks nows k)).runs

/-- One of as many ticks as there are queued runs creates a Job. -/
def Progress (nows : Nat → Instant) : Prop :=
  ∃ k < queuedCount runs,
    0 < (admitOnce settings (nows k) profiles outcomes (afterTicks settings profiles outcomes runs nows k)).started

/-- There is a limit, a slot is free, and some queued run would get its Job. -/
structure CouldStart : Prop where
  limited : 0 < settings.maxConcurrentRuns
  free : (activeCount runs : Int) < settings.maxConcurrentRuns
  exists_startable : ∃ id run, runs.lookup id = some run ∧ run.isQueued = true ∧
    startable settings profiles outcomes (id, run) = true

/-- Fewer failing runs than there are free slots are queued before some run that would get its Job. -/
def Reachable : Prop :=
  ∃ id run, runs.lookup id = some run ∧ run.isQueued = true ∧
    startable settings profiles outcomes (id, run) = true ∧
    activeCount runs + (failingBefore profiles outcomes runs (id, run) : Int) <
      settings.maxConcurrentRuns

end Ticks

variable {settings : Settings} {now : Instant} {profiles : Table Text Profile}
  {outcomes : Uuid → JobOutcome} {runs : Table Uuid Run} {x : Uuid × Run} {nows : Nat → Instant}

section Idle

variable (hidle : (admitOnce settings now profiles outcomes runs).started = 0)

include hidle

theorem not_startsJob_of_idle (hx : x ∈ attempted settings runs) :
    startsJob profiles outcomes x = false := by
  have htick := admissionTick_admitOnce settings now profiles outcomes runs
  rw [htick.started, List.countP_eq_zero] at hidle
  have hattempted : x ∈ (admitOnce settings now profiles outcomes runs).attempted := by
    rw [admitOnce_eq]
    exact hx
  simpa using hidle x hattempted

/-- Nothing but the runs without a profile leaves the queue, and nothing enters it. -/
theorem lookup_idle (hqueued : x.2.isQueued = true) :
    (admitOnce settings now profiles outcomes runs).runs.lookup x.1 = some x.2 ↔
      runs.lookup x.1 = some x.2 ∧
        (x ∈ attempted settings runs → (profiles.lookup x.2.profileId).isSome = true) := by
  by_cases hkey : x.1 ∈ (attempted settings runs).map Prod.fst
  · obtain ⟨⟨id, run⟩, hy, hid⟩ := List.mem_map.mp hkey
    obtain ⟨id', work⟩ := x
    obtain rfl : id = id' := hid
    obtain ⟨hrow, hrunQueued⟩ := lookup_of_mem_attempted hy
    dsimp only at hrow hrunQueued hqueued ⊢
    have hstays := not_startsJob_of_idle hidle hy
    rw [lookup_admitOnce hy, hrow]
    cases hprofile : profiles.lookup run.profileId with
    | none =>
        constructor
        · intro hfailed
          rw [← Option.some.inj hfailed] at hqueued
          simp [admitRun, Run.isQueued] at hqueued
        · rintro ⟨hsame, hsome⟩
          obtain rfl := Option.some.inj hsame
          rw [hprofile] at hsome
          exact absurd (hsome hy) Bool.false_ne_true
    | some profile =>
        have hsame : admitRun now id (some profile) (outcomes id) run = run := by
          cases houtcome : outcomes id with
          | created => simp [startsJob, hprofile, houtcome] at hstays
          | refused => rfl
          | lost => rfl
        rw [hsame]
        constructor
        · intro heq
          obtain rfl := Option.some.inj heq
          exact ⟨rfl, fun _ => by rw [hprofile]; rfl⟩
        · exact fun h => h.1
  · rw [lookup_admitOnce_other hkey]
    refine ⟨fun h => ⟨h, fun hx => absurd (List.mem_map_of_mem hx) hkey⟩, fun h => h.1⟩

theorem activeCount_idle :
    activeCount (admitOnce settings now profiles outcomes runs).runs = activeCount runs := by
  rw [activeCount_admitOnce, hidle, Nat.add_zero]

/-- A run with a profile is queued as before. -/
theorem lookup_idle_of_profile (hqueued : x.2.isQueued = true)
    (hprofile : (profiles.lookup x.2.profileId).isSome = true) :
    (admitOnce settings now profiles outcomes runs).runs.lookup x.1 = some x.2 ↔
      runs.lookup x.1 = some x.2 := by
  rw [lookup_idle hidle hqueued]
  exact ⟨fun h => h.1, fun h => ⟨h, fun _ => hprofile⟩⟩

theorem failingBefore_idle :
    failingBefore profiles outcomes (admitOnce settings now profiles outcomes runs).runs x =
      failingBefore profiles outcomes runs x := by
  apply Table.length_select_eq List.nodup_nil (fun k hk => absurd hk List.not_mem_nil)
  intro id
  simp only [List.not_mem_nil, false_or]
  apply exists_congr
  intro run
  apply and_congr_left
  intro hselected
  obtain ⟨⟨hqueued, hfails⟩, -⟩ : (run.isQueued = true ∧ failing profiles outcomes (id, run) = true) ∧ _ := by
    simpa [Bool.and_eq_true] using hselected
  exact lookup_idle_of_profile hidle hqueued (Bool.and_eq_true _ _ ▸ hfails).1

end Idle

theorem startsJob_of_startable (h : startable settings profiles outcomes x = true) :
    settings.k8sJobCreationEnabled = true ∧ startsJob profiles outcomes x = true := by
  rwa [startable, Bool.and_eq_true] at h

theorem attempts_of_limited (henabled : settings.k8sJobCreationEnabled = true)
    (hlimit : 0 < settings.maxConcurrentRuns) : attempts settings runs =
      some (settings.maxConcurrentRuns - activeCount runs).toNat := by
  rw [attempts, if_pos henabled, freeSlots, if_neg (by omega)]

/-- Two rows of one table that come before each other are one row. -/
theorem eq_of_admittedBefore {y : Uuid × Run} (hx : runs.lookup x.1 = some x.2)
    (hy : runs.lookup y.1 = some y.2) (hxy : admittedBefore x y) (hyx : admittedBefore y x) :
    x = y := by
  have hid : x.1 = y.1 := by
    rcases hxy with hlt | ⟨heq, hle⟩
    · rcases hyx with hlt' | ⟨heq', -⟩
      · exact absurd hlt' (lt_asymm hlt)
      · exact absurd heq' hlt.ne'
    · rcases hyx with hlt' | ⟨-, hle'⟩
      · exact absurd heq hlt'.ne'
      · exact BitVec.le_antisymm hle hle'
  apply Prod.ext hid
  rw [hid, hy] at hx
  exact (Option.some.inj hx).symm

/-- A tick that looks at a run has looked at all queued runs before it. -/
theorem mem_attempted_of_before {y : Uuid × Run} (hx : x ∈ attempted settings runs)
    (hy : runs.lookup y.1 = some y.2) (hqueued : y.2.isQueued = true) (hbefore : admittedBefore y x) :
    y ∈ attempted settings runs := by
  by_contra hout
  have hlater := (firstRows_selectQueued runs (attempts settings runs)).earlier x hx y
    (Table.mem_select.mpr ⟨hy, hqueued⟩) hout
  have heq := eq_of_admittedBefore (lookup_of_mem_attempted hx).1 hy hlater hbefore
  exact hout (heq ▸ hx)

section Limited

variable (henabled : settings.k8sJobCreationEnabled = true) (hlimit : 0 < settings.maxConcurrentRuns)

include henabled hlimit

theorem length_attempted_le : ((attempted settings runs).length : Int) ≤
    max (settings.maxConcurrentRuns - activeCount runs) 0 := by
  have hfirst := firstRows_selectQueued runs (attempts settings runs)
  rw [attempts_of_limited henabled hlimit] at hfirst
  have hle := hfirst.length_le
  rw [attempted, attempts_of_limited henabled hlimit]
  omega

/-- A run that waits although slots are free waits behind as many runs as there are slots. -/
theorem exists_before (hrow : runs.lookup x.1 = some x.2) (hqueued : x.2.isQueued = true)
    (hout : x ∉ attempted settings runs)
    (hroom : activeCount runs + (failingBefore profiles outcomes runs x : Int) <
      settings.maxConcurrentRuns) :
    ∃ y ∈ attempted settings runs, admittedBefore y x ∧ failing profiles outcomes y = false := by
  have hfirst := firstRows_selectQueued runs (attempts settings runs)
  have hin : x ∈ runs.select fun _ run => run.isQueued := Table.mem_select.mpr ⟨hrow, hqueued⟩
  rw [attempts_of_limited henabled hlimit] at hfirst
  have hlength : (attempted settings runs).length =
      (settings.maxConcurrentRuns - activeCount runs).toNat := by
    rw [attempted, attempts_of_limited henabled hlimit] at hout ⊢
    exact hfirst.length_of_notMem hin hout
  by_contra hnone
  have hkeys : ((attempted settings runs).map Prod.fst).length ≤
      failingBefore profiles outcomes runs x := by
    apply Table.length_le_select (nodup_selectQueued _ _ _)
    intro id hid
    obtain ⟨y, hy, rfl⟩ := List.mem_map.mp hid
    obtain ⟨hyrow, hyqueued⟩ := lookup_of_mem_attempted hy
    have hbefore : admittedBefore y x :=
      (firstRows_selectQueued runs (attempts settings runs)).earlier y hy x hin hout
    have hfails : failing profiles outcomes y = true := by
      rw [← Bool.not_eq_false]
      exact fun hpasses => hnone ⟨y, hy, hbefore, hpasses⟩
    exact ⟨y.2, hyrow, by simp [hyqueued, hfails, hbefore]⟩
  rw [List.length_map] at hkeys
  omega

end Limited

/-- An idle tick takes a run without a profile out of the queue before a run that could start. -/
theorem missingBefore_idle (hidle : (admitOnce settings now profiles outcomes runs).started = 0)
    (hlimit : 0 < settings.maxConcurrentRuns) (hrow : runs.lookup x.1 = some x.2)
    (hqueued : x.2.isQueued = true) (hstarts : startable settings profiles outcomes x = true)
    (hroom : activeCount runs + (failingBefore profiles outcomes runs x : Int) <
      settings.maxConcurrentRuns) :
    missingBefore profiles (admitOnce settings now profiles outcomes runs).runs x <
      missingBefore profiles runs x := by
  obtain ⟨henabled, hstarts⟩ := startsJob_of_startable hstarts
  have hout : x ∉ attempted settings runs := by
    intro hx
    rw [not_startsJob_of_idle hidle hx] at hstarts
    cases hstarts
  obtain ⟨y, hy, hbefore, hpasses⟩ := exists_before henabled hlimit hrow hqueued hout hroom
  obtain ⟨hyrow, hyqueued⟩ := lookup_of_mem_attempted hy
  have hmissing : (profiles.lookup y.2.profileId).isNone = true := by
    have hstays := not_startsJob_of_idle hidle hy
    unfold startsJob at hstays
    unfold failing at hpasses
    cases hprofile : profiles.lookup y.2.profileId with
    | none => rfl
    | some profile =>
        rw [hprofile] at hstays hpasses
        cases houtcome : outcomes y.1 <;> simp [houtcome] at hstays hpasses
  apply Table.length_select_lt (k := y.1)
  · rintro id ⟨run, hlookup, hselected⟩
    obtain ⟨⟨hrunQueued, -⟩, -⟩ : (run.isQueued = true ∧ _) ∧ _ := by
      simpa only [Bool.and_eq_true] using hselected
    have hbefore' : runs.lookup id = some run :=
      ((lookup_idle (x := (id, run)) hidle hrunQueued).mp hlookup).1
    exact ⟨run, hbefore', hselected⟩
  · exact ⟨y.2, hyrow, by simp only [hyqueued, hmissing, hbefore, decide_true, Bool.and_self]⟩
  · rintro ⟨run, hlookup, hselected⟩
    obtain ⟨⟨hrunQueued, hnone⟩, -⟩ : (run.isQueued = true ∧
        (profiles.lookup run.profileId).isNone = true) ∧ _ := by
      simpa only [Bool.and_eq_true] using hselected
    obtain ⟨hsame, hprofile⟩ := (lookup_idle (x := (y.1, run)) hidle hrunQueued).mp hlookup
    obtain rfl : run = y.2 := Option.some.inj (hsame.symm.trans hyrow)
    rw [Option.isNone_iff_eq_none.mp hnone] at hprofile
    exact absurd (hprofile hy) Bool.false_ne_true

theorem afterTicks_succ (k : Nat) : afterTicks settings profiles outcomes runs nows (k + 1) =
    afterTicks settings profiles outcomes (admitOnce settings (nows 0) profiles outcomes runs).runs
      (fun i => nows (i + 1)) k := by
  induction k with
  | zero => rfl
  | succ k ih =>
      rw [afterTicks, ih]
      rfl

/-- The run starts, or another one, after at most one tick for each run without a profile before it. -/
theorem exists_started (hlimit : 0 < settings.maxConcurrentRuns) (hrow : runs.lookup x.1 = some x.2)
    (hqueued : x.2.isQueued = true) (hstarts : startable settings profiles outcomes x = true)
    (hroom : activeCount runs + (failingBefore profiles outcomes runs x : Int) <
      settings.maxConcurrentRuns) :
    ∃ k ≤ missingBefore profiles runs x, 0 < (admitOnce settings (nows k) profiles outcomes
      (afterTicks settings profiles outcomes runs nows k)).started := by
  induction hmissing : missingBefore profiles runs x using Nat.strong_induction_on
    generalizing runs nows with
  | _ n ih =>
    by_cases hidle : (admitOnce settings (nows 0) profiles outcomes runs).started = 0
    · have hprofile := (startsJob_iff.mp (startsJob_of_startable hstarts).2).1
      have hfewer := missingBefore_idle hidle hlimit hrow hqueued hstarts hroom
      rw [hmissing] at hfewer
      have hrow' := (lookup_idle_of_profile hidle hqueued hprofile).mpr hrow
      have hroom' : activeCount (admitOnce settings (nows 0) profiles outcomes runs).runs +
          (failingBefore profiles outcomes
            (admitOnce settings (nows 0) profiles outcomes runs).runs x : Int) <
              settings.maxConcurrentRuns := by
        rw [activeCount_idle hidle, failingBefore_idle hidle]
        exact hroom
      obtain ⟨k, hk, hstarted⟩ := @ih _ hfewer _ (fun i => nows (i + 1)) hrow' hroom' rfl
      refine ⟨k + 1, by omega, ?_⟩
      rw [afterTicks_succ]
      exact hstarted
    · exact ⟨0, Nat.zero_le _, Nat.pos_of_ne_zero hidle⟩

theorem progress_of_reachable (hlimit : 0 < settings.maxConcurrentRuns)
    (h : Reachable settings profiles outcomes runs) :
    Progress settings profiles outcomes runs nows := by
  obtain ⟨id, run, hrow, hqueued, hstarts, hroom⟩ := h
  obtain ⟨k, hk, hstarted⟩ : ∃ k ≤ missingBefore profiles runs (id, run),
      0 < (admitOnce settings (nows k) profiles outcomes
        (afterTicks settings profiles outcomes runs nows k)).started :=
    exists_started hlimit hrow hqueued hstarts hroom
  refine ⟨k, hk.trans_lt ?_, hstarted⟩
  have hprofile := (startsJob_iff.mp (startsJob_of_startable hstarts).2).1
  apply Table.length_select_lt (k := id)
  · rintro id' ⟨run', hlookup, hselected⟩
    obtain ⟨⟨hrunQueued, -⟩, -⟩ : (run'.isQueued = true ∧ _) ∧ _ := by
      simpa only [Bool.and_eq_true] using hselected
    exact ⟨run', hlookup, hrunQueued⟩
  · exact ⟨run, hrow, hqueued⟩
  · rintro ⟨run', hlookup, hselected⟩
    obtain rfl : run = run' := Option.some.inj (hrow.symm.trans hlookup)
    obtain ⟨⟨-, hnone⟩, -⟩ : (_ ∧ (profiles.lookup run.profileId).isNone = true) ∧ _ := by
      simpa only [Bool.and_eq_true] using hselected
    rw [Option.isNone_iff_eq_none.mp hnone] at hprofile
    cases hprofile

/-- A tick on a blocked queue creates no Job. -/
theorem idle_of_blocked (hlimit : 0 < settings.maxConcurrentRuns)
    (h : ¬Reachable settings profiles outcomes runs) :
    (admitOnce settings now profiles outcomes runs).started = 0 := by
  have htick := admissionTick_admitOnce settings now profiles outcomes runs
  have hattempted : (admitOnce settings now profiles outcomes runs).attempted =
      attempted settings runs := by rw [admitOnce_eq]
  rw [htick.started, hattempted, List.countP_eq_zero]
  rintro ⟨id, run⟩ hx hstarts
  obtain ⟨hrow, hqueued⟩ := lookup_of_mem_attempted hx
  dsimp only at hrow hqueued
  have henabled : settings.k8sJobCreationEnabled = true := by
    rw [← Bool.not_eq_false]
    intro hdisabled
    rw [attempted, attempts, hdisabled, if_neg Bool.false_ne_true, selectQueued_zero] at hx
    cases hx
  apply h
  refine ⟨id, run, hrow, hqueued, by rw [startable, henabled, hstarts]; rfl, ?_⟩
  have hkeys : (id :: (runs.select fun id' run' => run'.isQueued &&
      failing profiles outcomes (id', run') && decide (admittedBefore (id', run') (id, run))).map
        Prod.fst).length ≤ ((attempted settings runs).map Prod.fst).length := by
    refine (List.subperm_of_subset (List.nodup_cons.mpr ⟨?_, Table.nodup_select _ _⟩) ?_).length_le
    · rw [Table.mem_map_fst_select]
      rintro ⟨run', hlookup, hselected⟩
      obtain rfl : run = run' := Option.some.inj (hrow.symm.trans hlookup)
      obtain ⟨⟨-, hfails⟩, -⟩ : (_ ∧ failing profiles outcomes (id, run) = true) ∧ _ := by
        simpa only [Bool.and_eq_true] using hselected
      obtain ⟨-, hcreated⟩ := startsJob_iff.mp hstarts
      simp [failing, hcreated] at hfails
    · intro key hkey
      rcases List.mem_cons.mp hkey with rfl | hkey
      · exact List.mem_map_of_mem hx
      · obtain ⟨run', hlookup, hselected⟩ := Table.mem_map_fst_select.mp hkey
        obtain ⟨⟨hrunQueued, -⟩, hbefore⟩ : (run'.isQueued = true ∧ _) ∧
            admittedBefore (key, run') (id, run) := by
          simpa only [Bool.and_eq_true, decide_eq_true_eq] using hselected
        have hin : (key, run') ∈ attempted settings runs :=
          mem_attempted_of_before hx hlookup hrunQueued hbefore
        exact List.mem_map_of_mem hin
  have hle := @length_attempted_le settings runs henabled hlimit
  rw [List.length_cons, List.length_map, List.length_map] at hkeys
  unfold failingBefore
  omega

/-- A blocked queue stays blocked. -/
theorem blocked_afterTicks (hlimit : 0 < settings.maxConcurrentRuns)
    (h : ¬Reachable settings profiles outcomes runs) (k : Nat) :
    ¬Reachable settings profiles outcomes (afterTicks settings profiles outcomes runs nows k) := by
  induction k with
  | zero => exact h
  | succ k ih =>
      have hidle := @idle_of_blocked _ (nows k) _ _ _ hlimit ih
      rintro ⟨id, run, hrow, hqueued, hstarts, hroom⟩
      have hprofile := (startsJob_iff.mp (startsJob_of_startable hstarts).2).1
      rw [afterTicks, activeCount_idle hidle, failingBefore_idle hidle] at hroom
      exact ih ⟨id, run, (lookup_idle_of_profile (x := (id, run)) hidle hqueued hprofile).mp hrow,
        hqueued, hstarts, hroom⟩

/-- The ticks create a Job exactly if some run that would get one has fewer failing runs before it
than there are free slots. -/
theorem progress_iff (settings : Settings) (profiles : Table Text Profile)
    (outcomes : Uuid → JobOutcome) (runs : Table Uuid Run) (nows : Nat → Instant) :
    (CouldStart settings profiles outcomes runs → Progress settings profiles outcomes runs nows) ↔
      (CouldStart settings profiles outcomes runs → Reachable settings profiles outcomes runs) := by
  apply imp_congr_right
  intro hcould
  constructor
  · rintro ⟨k, -, hstarted⟩
    by_contra hblocked
    have hstill : ¬Reachable settings profiles outcomes
        (afterTicks settings profiles outcomes runs nows k) :=
      blocked_afterTicks hcould.limited hblocked k
    have hidle := @idle_of_blocked _ (nows k) _ _ _ hcould.limited hstill
    omega
  · exact progress_of_reachable hcould.limited

/-- Kubernetes refuses the Job of the first run for good. -/
def firstRefused (id : Uuid) : JobOutcome := if id = 1 then .refused else .created

def twoQueuedRuns : Table Uuid Run :=
  (AList.singleton 2 (sampleQueuedRun 2)).insert 1 (sampleQueuedRun 1)

/-- With one slot, a run whose Job is refused keeps the run behind it from starting. -/
theorem firstRefused_blocks :
    ¬∀ (settings : Settings) (profiles : Table Text Profile) (outcomes : Uuid → JobOutcome)
      (runs : Table Uuid Run) (nows : Nat → Instant), CouldStart settings profiles outcomes runs →
        Progress settings profiles outcomes runs nows := by
  intro h
  have hcould : CouldStart { maxConcurrentRuns := 1 } Lifecycle.sampleProfiles firstRefused
      twoQueuedRuns :=
    ⟨by decide, by decide, 2, sampleQueuedRun 2, by decide, by decide, by decide⟩
  obtain ⟨k, hk, hstarted⟩ := h _ _ _ _ (fun _ => 0) hcould
  have hidle : ∀ k < queuedCount twoQueuedRuns,
      ¬0 < (admitOnce { maxConcurrentRuns := 1 } 0 Lifecycle.sampleProfiles firstRefused
        (afterTicks { maxConcurrentRuns := 1 } Lifecycle.sampleProfiles firstRefused twoQueuedRuns
          (fun _ => 0) k)).started := by decide
  exact hidle k hk hstarted

end QueueService
end PdeOperator
