import PdeOperator.BaseOrder
import PdeOperator.LifecycleRows

/-! `QueueService.admit_once` with no concurrent writer: what one tick makes of the queue. -/

namespace PdeOperator
open Base

namespace QueueService

instance : Std.Total admittedBefore where
  total a b := tieBreak_total a.2.createdAt b.2.createdAt (BitVec.le_total a.1 b.1)

instance : IsTrans (Uuid × Run) admittedBefore where
  trans _ _ _ := tieBreak_trans BitVec.le_trans

/-- What `admit_once` leaves behind: the committed rows, the rows that it has looked at and the
number that it returns. -/
structure TickEnd where
  runs : Table Uuid Run
  attempted : List (Uuid × Run) := []
  started : Nat := 0

section Tick

variable (settings : Settings) (now : Instant) (profiles : Table Text Profile)
  (outcomes : Uuid → JobOutcome)

/-- The call of `create_run_job` for the row returns. -/
def startsJob (x : Uuid × Run) : Bool :=
  (profiles.lookup x.2.profileId).isSome && outcomes x.1 == .created

/-- The loop over the locked rows. -/
def admitRuns : List (Uuid × Run) → List (Tracked Uuid Run)
  | [] => []
  | (id, run) :: rest =>
      ⟨id, run, admitRun now id (profiles.lookup run.profileId) (outcomes id) run⟩ :: admitRuns rest

def admitOnce (runs : Table Uuid Run) : TickEnd :=
  if !settings.k8sJobCreationEnabled then { runs }
  else
    let free := freeSlots settings runs
    if free = some 0 then { runs }
    else
      let queued := selectQueued runs (fun _ => false) free
      if queued.isEmpty then { runs }
      else
        { runs := (runs.flushAll (admitRuns now profiles outcomes queued)).getD runs
          attempted := queued
          started := queued.countP (startsJob profiles outcomes) }

/-- The number of rows that a tick may look at; `none` without a limit. -/
def attempts (runs : Table Uuid Run) : Option Nat :=
  if settings.k8sJobCreationEnabled then freeSlots settings runs else some 0

end Tick

variable {settings : Settings} {now : Instant} {profiles : Table Text Profile}
  {outcomes : Uuid → JobOutcome} {runs : Table Uuid Run} {id : Uuid} {run : Run}
  {x : Uuid × Run} {queued : List (Uuid × Run)}

theorem selectQueued_zero (runs : Table Uuid Run) (locked : Uuid → Bool) :
    selectQueued runs locked (some 0) = [] := rfl

/-- The early returns are the ticks that look at no row. -/
theorem admitOnce_eq (settings : Settings) (now : Instant) (profiles : Table Text Profile)
    (outcomes : Uuid → JobOutcome) (runs : Table Uuid Run) :
    admitOnce settings now profiles outcomes runs =
      { runs := (runs.flushAll (admitRuns now profiles outcomes
          (selectQueued runs (fun _ => false) (attempts settings runs)))).getD runs
        attempted := selectQueued runs (fun _ => false) (attempts settings runs)
        started := (selectQueued runs (fun _ => false) (attempts settings runs)).countP
          (startsJob profiles outcomes) } := by
  unfold admitOnce attempts
  cases settings.k8sJobCreationEnabled with
  | false =>
      rw [if_pos (by rfl), if_neg Bool.false_ne_true, selectQueued_zero]
      rfl
  | true =>
      rw [if_neg (by decide), if_pos rfl]
      dsimp only
      split
      · next hfull =>
        rw [hfull, selectQueued_zero]
        rfl
      · split
        · next hnone =>
          rw [List.isEmpty_iff.mp hnone]
          rfl
        · rfl

/-- The selection takes the first rows of the queue. -/
theorem firstRows_selectQueued (runs : Table Uuid Run) (limit : Option Nat) :
    FirstRows admittedBefore limit (runs.select fun _ run => run.isQueued)
      (selectQueued runs (fun _ => false) limit) := by
  have hnodup : (runs.select fun _ run => run.isQueued).Nodup :=
    (Table.nodup_select runs fun _ run => run.isQueued).of_map _
  simp only [selectQueued, Bool.not_false, Bool.and_true]
  cases limit with
  | none => exact firstRows_insertionSort admittedBefore hnodup
  | some n => exact firstRows_take admittedBefore hnodup n

theorem admitRuns_reads : (admitRuns now profiles outcomes queued).map (fun t => (t.key, t.read)) =
    queued := by
  induction queued with
  | nil => rfl
  | cons x rest ih => rw [admitRuns, List.map_cons, ih]

theorem mem_admitRuns (h : x ∈ queued) :
    (⟨x.1, x.2, admitRun now x.1 (profiles.lookup x.2.profileId) (outcomes x.1) x.2⟩ :
      Tracked Uuid Run) ∈ admitRuns now profiles outcomes queued := by
  induction queued with
  | nil => cases h
  | cons y rest ih =>
      rcases List.mem_cons.mp h with rfl | h
      · exact List.mem_cons_self
      · exact List.mem_cons_of_mem _ (ih h)

theorem read_of_mem_admitRuns {t : Tracked Uuid Run} (h : t ∈ admitRuns now profiles outcomes queued) :
    (t.key, t.read) ∈ queued := by
  have hmem : (t.key, t.read) ∈
      (admitRuns now profiles outcomes queued).map fun t => (t.key, t.read) := List.mem_map_of_mem h
  rwa [admitRuns_reads] at hmem

theorem nodup_admitRuns (h : (queued.map Prod.fst).Nodup) :
    ((admitRuns now profiles outcomes queued).map Tracked.key).Nodup := by
  have hkeys : (admitRuns now profiles outcomes queued).map Tracked.key = queued.map Prod.fst := by
    calc (admitRuns now profiles outcomes queued).map Tracked.key
        = ((admitRuns now profiles outcomes queued).map fun t => (t.key, t.read)).map Prod.fst := by
          rw [List.map_map]
          rfl
      _ = queued.map Prod.fst := by rw [admitRuns_reads]
  rwa [hkeys]

section Rows

variable (settings now profiles outcomes runs) in
/-- The rows that a tick looks at. -/
abbrev attempted : List (Uuid × Run) :=
  selectQueued runs (fun _ => false) (attempts settings runs)

theorem lookup_of_mem_attempted (h : x ∈ attempted settings runs) :
    runs.lookup x.1 = some x.2 ∧ x.2.isQueued = true := by
  obtain ⟨hrow, hqueued, -⟩ := mem_selectQueued h
  exact ⟨hrow, hqueued⟩

theorem exists_flushAll_admitRuns : ∃ runs', runs.flushAll
    (admitRuns now profiles outcomes (attempted settings runs)) = some runs' := by
  apply Table.exists_flushAll
  intro t ht
  rw [(lookup_of_mem_attempted (read_of_mem_admitRuns ht)).1]
  rfl

/-- A row that the tick has looked at. -/
theorem lookup_admitOnce (h : x ∈ attempted settings runs) :
    (admitOnce settings now profiles outcomes runs).runs.lookup x.1 =
      some (admitRun now x.1 (profiles.lookup x.2.profileId) (outcomes x.1) x.2) := by
  obtain ⟨runs', hflush⟩ := @exists_flushAll_admitRuns settings now profiles outcomes runs
  have hnodup : ((admitRuns now profiles outcomes (attempted settings runs)).map Tracked.key).Nodup :=
    nodup_admitRuns (nodup_selectQueued _ _ _)
  rw [admitOnce_eq, hflush, Option.getD_some]
  rw [Table.lookup_flushAll_of_mem hflush hnodup (mem_admitRuns h), (lookup_of_mem_attempted h).1,
    Option.map_some, writeBack_fresh]

/-- A row that it has not looked at. -/
theorem lookup_admitOnce_other (h : id ∉ (attempted settings runs).map Prod.fst) :
    (admitOnce settings now profiles outcomes runs).runs.lookup id = runs.lookup id := by
  obtain ⟨runs', hflush⟩ := @exists_flushAll_admitRuns settings now profiles outcomes runs
  rw [admitOnce_eq, hflush, Option.getD_some]
  apply Table.lookup_flushAll_of_notMem hflush
  intro hmem
  obtain ⟨t, ht, rfl⟩ := List.mem_map.mp hmem
  exact h (List.mem_map_of_mem (read_of_mem_admitRuns ht))

end Rows

variable (settings now profiles outcomes runs) in
/-- One admission tick: which rows it looks at, what it makes of each of them, and that it changes no
other row. -/
structure AdmissionTick (tick : TickEnd) : Prop where
  attempted : FirstRows admittedBefore (attempts settings runs)
    (runs.select fun _ run => run.isQueued) tick.attempted
  missing : ∀ x ∈ tick.attempted, profiles.lookup x.2.profileId = none →
    tick.runs.lookup x.1 = some { x.2 with status := .failed, finishedAt := some now }
  refused : ∀ x ∈ tick.attempted, (profiles.lookup x.2.profileId).isSome = true →
    outcomes x.1 ≠ .created → tick.runs.lookup x.1 = some x.2
  created : ∀ x ∈ tick.attempted, startsJob profiles outcomes x = true →
    tick.runs.lookup x.1 = some
      { x.2 with
        k8sJobName := some (RunService.jobName x.1)
        status := .notStarted
        statusUpdatedAt := some now }
  others : ∀ id, id ∉ tick.attempted.map Prod.fst → tick.runs.lookup id = runs.lookup id
  started : tick.started = tick.attempted.countP (startsJob profiles outcomes)
  active : activeCount tick.runs = activeCount runs + tick.started

theorem startsJob_iff : startsJob profiles outcomes x = true ↔
    (profiles.lookup x.2.profileId).isSome = true ∧ outcomes x.1 = .created := by
  simp [startsJob]

/-- A row that gets a Job is tracked from then on; any other row of the queue is not. -/
theorem admitRun_isTracked (hqueued : x.2.isQueued = true) :
    (admitRun now x.1 (profiles.lookup x.2.profileId) (outcomes x.1) x.2).isTracked =
      startsJob profiles outcomes x := by
  have huntracked : x.2.isTracked = false := by
    rw [Run.isTracked, (Run.isQueued_iff.mp hqueued).2]
    rfl
  unfold startsJob
  cases profiles.lookup x.2.profileId with
  | none =>
      rw [Run.isTracked, admitRun_k8sJobName (Or.inl rfl), (Run.isQueued_iff.mp hqueued).2]
      rfl
  | some profile =>
      cases outcomes x.1 with
      | created => rfl
      | refused => exact huntracked
      | lost => exact huntracked

/-- The slots that a tick fills are those of the Jobs that it creates. -/
theorem activeCount_admitOnce : activeCount (admitOnce settings now profiles outcomes runs).runs =
    activeCount runs + (admitOnce settings now profiles outcomes runs).started := by
  set tick := admitOnce settings now profiles outcomes runs with htick
  set extra := ((attempted settings runs).filter (startsJob profiles outcomes)).map Prod.fst with hextra
  have hstarted : tick.started = extra.length := by
    rw [htick, admitOnce_eq, hextra, List.length_map, List.countP_eq_length_filter]
  have hmem : ∀ {id}, id ∈ extra → ∃ run, (id, run) ∈ attempted settings runs ∧
      startsJob profiles outcomes (id, run) = true := by
    intro id hid
    obtain ⟨⟨id, run⟩, hx, rfl⟩ := List.mem_map.mp hid
    exact ⟨run, List.mem_filter.mp hx⟩
  rw [hstarted]
  apply Table.length_select_eq
  · have hkeys : ((attempted settings runs).map Prod.fst).Nodup := nodup_selectQueued _ _ _
    exact hkeys.sublist (List.filter_sublist.map Prod.fst)
  · intro id hid run hrow
    obtain ⟨run', hx, -⟩ := hmem hid
    obtain ⟨hrow', hqueued⟩ := lookup_of_mem_attempted hx
    obtain rfl : run = run' := Option.some.inj (hrow.symm.trans hrow')
    rw [Run.isTracked, (Run.isQueued_iff.mp hqueued).2]
    rfl
  · intro id
    by_cases hid : id ∈ (attempted settings runs).map Prod.fst
    · obtain ⟨x, hx, rfl⟩ := List.mem_map.mp hid
      obtain ⟨hrow, hqueued⟩ := lookup_of_mem_attempted hx
      have huntracked : x.2.isTracked = false := by
        rw [Run.isTracked, (Run.isQueued_iff.mp hqueued).2]
        rfl
      rw [lookup_admitOnce hx, hrow]
      simp only [Option.some.injEq, exists_eq_left', admitRun_isTracked hqueued, huntracked,
        Bool.false_eq_true, or_false]
      constructor
      · intro hstarts
        exact List.mem_map_of_mem (List.mem_filter.mpr ⟨hx, hstarts⟩)
      · intro hin
        obtain ⟨run, hx', hstarts⟩ := hmem hin
        obtain ⟨hrow', -⟩ := lookup_of_mem_attempted hx'
        obtain rfl : run = x.2 := Option.some.inj (hrow'.symm.trans hrow)
        exact hstarts
    · rw [lookup_admitOnce_other hid]
      refine ⟨Or.inr, fun h => h.resolve_left ?_⟩
      intro hin
      obtain ⟨run, hx, -⟩ := hmem hin
      exact hid (List.mem_map_of_mem hx)

theorem admissionTick_admitOnce (settings : Settings) (now : Instant) (profiles : Table Text Profile)
    (outcomes : Uuid → JobOutcome) (runs : Table Uuid Run) :
    AdmissionTick settings now profiles outcomes runs
      (admitOnce settings now profiles outcomes runs) := by
  have hattempted : (admitOnce settings now profiles outcomes runs).attempted =
      attempted settings runs := by rw [admitOnce_eq]
  constructor
  · rw [hattempted]
    exact firstRows_selectQueued _ _
  · intro x hx hmissing
    rw [hattempted] at hx
    rw [lookup_admitOnce hx, hmissing]
    rfl
  · intro x hx hprofile hrefused
    rw [hattempted] at hx
    obtain ⟨profile, hprofile⟩ := Option.isSome_iff_exists.mp hprofile
    rw [lookup_admitOnce hx, hprofile]
    cases houtcome : outcomes x.1 with
    | created => exact absurd houtcome hrefused
    | refused => rfl
    | lost => rfl
  · intro x hx hstarts
    rw [hattempted] at hx
    obtain ⟨hprofile, hcreated⟩ := startsJob_iff.mp hstarts
    obtain ⟨profile, hprofile⟩ := Option.isSome_iff_exists.mp hprofile
    rw [lookup_admitOnce hx, hprofile, hcreated]
    rfl
  · intro id hid
    rw [hattempted] at hid
    exact lookup_admitOnce_other hid
  · rw [hattempted, admitOnce_eq]
  · exact activeCount_admitOnce

/-- A tick never fills more slots than are free. -/
theorem activeCount_le (hlimit : 0 < settings.maxConcurrentRuns) :
    (activeCount (admitOnce settings now profiles outcomes runs).runs : Int) ≤
      max settings.maxConcurrentRuns (activeCount runs) := by
  have htick := admissionTick_admitOnce settings now profiles outcomes runs
  set tick := admitOnce settings now profiles outcomes runs
  have hstarted : tick.started ≤ tick.attempted.length := by
    rw [htick.started]
    exact List.countP_le_length
  have hattempted : (tick.attempted.length : Int) ≤
      max (settings.maxConcurrentRuns - activeCount runs) 0 := by
    have hfirst := htick.attempted
    unfold attempts freeSlots at hfirst
    split at hfirst
    · rw [if_neg (by omega)] at hfirst
      have hle := hfirst.length_le
      omega
    · have hle := hfirst.length_le
      omega
  rw [htick.active]
  omega

/-- What an admission tick does, for every queue, every limit and every outcome of the Job creations;
the cap is kept when there is one. -/
theorem admitOnce_spec (settings : Settings) (now : Instant) (profiles : Table Text Profile)
    (outcomes : Uuid → JobOutcome) (runs : Table Uuid Run) :
    AdmissionTick settings now profiles outcomes runs
      (admitOnce settings now profiles outcomes runs) ∧
    (0 < settings.maxConcurrentRuns →
      (activeCount (admitOnce settings now profiles outcomes runs).runs : Int) ≤
        max settings.maxConcurrentRuns (activeCount runs)) :=
  ⟨admissionTick_admitOnce settings now profiles outcomes runs, activeCount_le⟩

/-! ### The tick among the other calls -/

section System

open Lifecycle

variable {parsers : Parsers} {w : World} {c : Nat}

variable (settings now outcomes) in
/-- The labels of an uninterrupted tick that finds queued runs and a free slot. -/
def admitActs (c : Nat) (runs : Table Uuid Run) : List Act :=
  .admitCount c :: .admitSelect c now ::
    ((attempted settings runs).map (fun x => Act.admitNext c (outcomes x.1)) ++ [.admitCommit c])

/-- The rows of the loop, one label each. -/
theorem exec_admitNext {done : List (Tracked Uuid Run)} {started : Nat}
    (hcall : w.calls c = some (.admitting now queued done started))
    (hnodup : (queued.map Prod.fst).Nodup)
    (hjobs : ∀ x ∈ queued, RunService.jobName x.1 ∉ w.jobs) :
    ∃ w' started', (system settings parsers).exec w
        (queued.map fun x => Act.admitNext c (outcomes x.1)) = some w' ∧
      w'.runs = w.runs ∧ w'.calls c = some (.admitting now []
        (done ++ admitRuns now w.profiles outcomes queued) started') := by
  induction queued generalizing w done started with
  | nil => exact ⟨w, started, rfl, rfl, by rw [hcall, admitRuns, List.append_nil]⟩
  | cons x rest ih =>
      obtain ⟨id, run⟩ := x
      rw [List.map_cons, List.nodup_cons] at hnodup
      set row : Tracked Uuid Run :=
        ⟨id, run, admitRun now id (w.profiles.lookup run.profileId) (outcomes id) run⟩ with hrow
      suffices hnext : ∃ w₁ started₁, step settings parsers w (.admitNext c (outcomes id)) = some w₁ ∧
          w₁.runs = w.runs ∧ w₁.profiles = w.profiles ∧
          w₁.calls c = some (.admitting now rest (done ++ [row]) started₁) ∧
          ∀ name ∈ w₁.jobs, name ∈ w.jobs ∨ name = RunService.jobName id by
        obtain ⟨w₁, started₁, hstep, hruns, hprofiles, hcall₁, hjobs₁⟩ := hnext
        have hfresh : ∀ x ∈ rest, RunService.jobName x.1 ∉ w₁.jobs := by
          intro x hx hin
          rcases hjobs₁ _ hin with hold | hsame
          · exact hjobs x (List.mem_cons_of_mem _ hx) hold
          · have hin : x.1 ∈ rest.map Prod.fst := List.mem_map_of_mem hx
            rw [RunService.jobName_injective hsame] at hin
            exact hnodup.1 hin
        obtain ⟨w', started', hexec, hruns', hcall'⟩ := ih hcall₁ hnodup.2 hfresh
        refine ⟨w', started', ?_, hruns'.trans hruns, ?_⟩
        · rw [List.map_cons, System.exec_cons_eq_some]
          exact ⟨w₁, hstep, hexec⟩
        · rw [hcall', hprofiles, List.append_assoc]
          rfl
      have hunused : RunService.jobName id ∉ w.jobs := hjobs (id, run) List.mem_cons_self
      by_cases hcreates : ((w.profiles.lookup run.profileId).isSome && outcomes id != .refused) = true
      · refine ⟨(w.addJob (RunService.jobName id)).spawn c (.admitting now rest (done ++ [row])
          (started + (outcomes id == .created).toNat)), _, ?_, rfl, rfl, Function.update_self .., ?_⟩
        · simp only [step, admitNext, hcall]
          rw [if_pos hcreates]
          simp [hunused, hrow]
        · intro name hname
          exact (List.mem_cons.mp hname).symm
      · refine ⟨w.spawn c (.admitting now rest (done ++ [row]) started), started, ?_, rfl, rfl,
          Function.update_self .., fun name hname => Or.inl hname⟩
        simp only [step, admitNext, hcall]
        rw [if_neg hcreates]

/-- A tick that runs without interruption is an execution of the lifecycle system. -/
theorem exec_admitActs (henabled : settings.k8sJobCreationEnabled = true)
    (hfree : freeSlots settings w.runs ≠ some 0) (hqueued : attempted settings w.runs ≠ [])
    (hcall : w.calls c = none) (hunlocked : ∀ id, w.locks id = none)
    (hjobs : ∀ x ∈ attempted settings w.runs, RunService.jobName x.1 ∉ w.jobs) :
    ∃ w', (system settings parsers).exec w (admitActs settings now outcomes c w.runs) = some w' ∧
      w'.runs = (admitOnce settings now w.profiles outcomes w.runs).runs := by
  have hattempts : attempts settings w.runs = freeSlots settings w.runs := if_pos henabled
  set counted := w.spawn c (.counted (freeSlots settings w.runs)) with hcounted
  have hcount : step settings parsers w (.admitCount c) = some counted := by
    simp [step, admitCount, hcall, henabled, hfree, hcounted]
  set selected := { counted.spawn c (.admitting now (attempted settings w.runs) [] 0) with
    locks := fun id => if id ∈ (attempted settings w.runs).map Prod.fst then some c
      else counted.locks id } with hselected
  have hselect : step settings parsers counted (.admitSelect c now) = some selected := by
    have hcall' : counted.calls c = some (.counted (freeSlots settings w.runs)) :=
      Function.update_self ..
    have hrows : selectQueued counted.runs (fun id => (counted.locks id).isSome)
        (freeSlots settings w.runs) = attempted settings w.runs := by
      have hlocks : (fun id => (counted.locks id).isSome) = fun _ => false := by
        funext id
        change (w.locks id).isSome = false
        rw [hunlocked id]
        rfl
      rw [attempted, hattempts, hlocks]
      rfl
    simp only [step, admitSelect, hcall']
    rw [hrows, if_neg (by simpa using hqueued)]
  have hcall' : selected.calls c = some (.admitting now (attempted settings w.runs) [] 0) :=
    Function.update_self ..
  obtain ⟨u, started, hexec, hruns, hcallU⟩ :=
    @exec_admitNext settings _ outcomes _ parsers _ _ _ _ hcall' (nodup_selectQueued _ _ _) hjobs
  obtain ⟨runs', hflush⟩ := @exists_flushAll_admitRuns settings now w.profiles outcomes w.runs
  have hcommit : step settings parsers u (.admitCommit c) = some ({ u with runs := runs' }.finish c) := by
    have hflushU : u.runs.flushAll ([] ++ admitRuns now selected.profiles outcomes
        (attempted settings w.runs)) = some runs' := by
      rw [hruns]
      exact hflush
    simp only [step, admitCommit, hcallU]
    rw [hflushU]
    rfl
  refine ⟨{ u with runs := runs' }.finish c, ?_, ?_⟩
  · rw [admitActs, System.exec_cons_eq_some]
    refine ⟨counted, hcount, (System.exec_cons_eq_some _).mpr ⟨selected, hselect, ?_⟩⟩
    rw [System.exec_append_eq_some]
    exact ⟨u, hexec, (System.exec_cons_eq_some _).mpr ⟨_, hcommit, rfl⟩⟩
  · rw [admitOnce_eq, hflush]
    rfl

end System

/-- A run as `create_run` leaves it. -/
def sampleQueuedRun (id : Uuid) : Run :=
  RunService.createRun {} id Lifecycle.sampleRequest
    { pdeImage := "pde:1".toList, envVars := [], resources := [], createdAt := 0, updatedAt := 0 }
    none 0

/-- Without a limit the active runs exceed it. -/
theorem unlimited_not_capped :
    ¬∀ (settings : Settings) (now : Instant) (profiles : Table Text Profile)
      (outcomes : Uuid → JobOutcome) (runs : Table Uuid Run),
      AdmissionTick settings now profiles outcomes runs
        (admitOnce settings now profiles outcomes runs) ∧
      (activeCount (admitOnce settings now profiles outcomes runs).runs : Int) ≤
        max settings.maxConcurrentRuns (activeCount runs) := by
  intro h
  have hcapped := (h { maxConcurrentRuns := 0 } 0 Lifecycle.sampleProfiles (fun _ => .created)
    (AList.singleton 1 (sampleQueuedRun 1))).2
  revert hcapped
  decide

end QueueService
end PdeOperator
