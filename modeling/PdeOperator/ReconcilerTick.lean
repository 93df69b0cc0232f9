import PdeOperator.LifecycleRows

/-! `JobReconciler.reconcile_once`: all tracked runs share one loop, one session and one commit. Only
the signal and the deletion of a Job are guarded; an exception of `get_job_phase` or of
`get_pod_diagnostic` ends the loop, and nothing is committed. -/

namespace PdeOperator
open Base

/-- How the Kubernetes calls for one run end. A deletion that raises may still have taken effect. -/
structure KubernetesCalls where
  observed : JobObservation
  signalRaises : Bool := false
  deleteRaises : Bool := false

namespace JobReconciler

section Tick

variable (settings : Settings) (now : Instant) (calls : Uuid → KubernetesCalls)

/-- The loop of `reconcile_once` over the rows that it has read. -/
structure Loop where
  done : List (Tracked Uuid Run) := []
  updated : Nat := 0
  /-- The runs whose Jobs have been deleted. -/
  deleted : List Uuid := []
  /-- An exception has ended the loop. -/
  raised : Bool := false

def reconcileRuns : List (Uuid × Run) → Loop
  | [] => {}
  | (id, run) :: rest =>
      match reconcileRun settings now (calls id).observed run with
      | none => { raised := true }
      | some result =>
          let loop := reconcileRuns rest
          { done := ⟨id, run, result.run⟩ :: loop.done
            updated := result.updated.toNat + loop.updated
            deleted := if result.deletes && (calls id).observed.deleted then id :: loop.deleted
              else loop.deleted
            raised := loop.raised }

/-- What `reconcile_once` leaves behind: the committed rows and the deleted Jobs, by their runs. -/
structure TickEnd where
  runs : Table Uuid Run
  deleted : List Uuid

def reconcileOnce (runs : Table Uuid Run) : TickEnd :=
  let loop := reconcileRuns settings now calls (runs.select fun _ run => run.isTracked)
  { runs := if loop.raised || loop.updated == 0 then runs else (runs.flushAll loop.done).getD runs
    deleted := loop.deleted }

/-- A Kubernetes call that is made for the run raises, caught or not. -/
def callsRaise (id : Uuid) (run : Run) : Bool :=
  raises settings now (calls id).observed run ||
    ((calls id).observed.phase == some .active &&
      (run.cancelRequestedAt.isSome && (calls id).signalRaises ||
        stopsJob settings now run && (calls id).deleteRaises))

end Tick

variable {settings : Settings} {now : Instant} {calls : Uuid → KubernetesCalls}
  {rows : List (Uuid × Run)} {runs : Table Uuid Run} {id : Uuid} {run : Run} {result : Reconciled}

variable (settings now calls) in
/-- An exception leaves the loop at the row. -/
abbrev raisesAt (x : Uuid × Run) : Bool := raises settings now (calls x.1).observed x.2

theorem reconcileRuns_raised :
    (reconcileRuns settings now calls rows).raised = rows.any (raisesAt settings now calls) := by
  induction rows with
  | nil => rfl
  | cons x rest ih =>
      obtain ⟨id, run⟩ := x
      rw [reconcileRuns, List.any_cons]
      cases hresult : reconcileRun settings now (calls id).observed run with
      | none =>
          have hraises : raisesAt settings now calls (id, run) = true :=
            reconcileRun_eq_none_iff.mp hresult
          rw [hraises, Bool.true_or]
      | some result =>
          have hquiet : raisesAt settings now calls (id, run) = false :=
            (reconcileRun_cases hresult).1
          rw [hquiet, Bool.false_or]
          exact ih

theorem exists_reconcileRun (h : raises settings now (calls id).observed run = false) :
    ∃ result, reconcileRun settings now (calls id).observed run = some result := by
  apply Option.ne_none_iff_exists'.mp
  intro hnone
  rw [reconcileRun_eq_none_iff, h] at hnone
  cases hnone

/-- A loop that no exception ends has looked at every row. -/
theorem reconcileRuns_done (hquiet : rows.any (raisesAt settings now calls) = false) :
    (reconcileRuns settings now calls rows).done.map (fun t => (t.key, t.read)) = rows ∧
      ∀ t ∈ (reconcileRuns settings now calls rows).done, ∃ result,
        reconcileRun settings now (calls t.key).observed t.read = some result ∧
          t.work = result.run := by
  induction rows with
  | nil => exact ⟨rfl, fun t ht => absurd ht List.not_mem_nil⟩
  | cons x rest ih =>
      obtain ⟨id, run⟩ := x
      rw [List.any_cons, Bool.or_eq_false_iff] at hquiet
      obtain ⟨result, hresult⟩ := exists_reconcileRun hquiet.1
      obtain ⟨hrows, hwork⟩ := ih hquiet.2
      rw [reconcileRuns, hresult]
      refine ⟨?_, fun t ht => ?_⟩
      · rw [List.map_cons, hrows]
      · rcases List.mem_cons.mp ht with rfl | hrest
        · exact ⟨result, hresult, rfl⟩
        · exact hwork t hrest

/-- Without an update every row is as it was read. -/
theorem reconcileRuns_clean (hzero : (reconcileRuns settings now calls rows).updated = 0) :
    ∀ t ∈ (reconcileRuns settings now calls rows).done, t.work = t.read := by
  induction rows with
  | nil => exact fun t ht => absurd ht List.not_mem_nil
  | cons x rest ih =>
      obtain ⟨id, run⟩ := x
      rw [reconcileRuns] at hzero ⊢
      cases hresult : reconcileRun settings now (calls id).observed run with
      | none => exact fun t ht => absurd ht List.not_mem_nil
      | some result =>
          rw [hresult] at hzero
          obtain ⟨hfirst, hrest⟩ := Nat.add_eq_zero_iff.mp hzero
          intro t ht
          rcases List.mem_cons.mp ht with rfl | ht
          · exact (reconcileRun_frame hresult).2 (by simpa using hfirst)
          · exact ih hrest t ht

/-- The deleted Jobs are those that are stopped, with effect, before the loop ends. -/
theorem mem_reconcileRuns_deleted :
    id ∈ (reconcileRuns settings now calls rows).deleted ↔
      ∃ run, (id, run) ∈ rows.takeWhile (fun x => !raisesAt settings now calls x) ∧
        (calls id).observed.phase = some .active ∧ stopsJob settings now run = true ∧
        (calls id).observed.deleted = true := by
  induction rows with
  | nil => simp [reconcileRuns]
  | cons x rest ih =>
      obtain ⟨id', run'⟩ := x
      rw [reconcileRuns]
      cases hresult : reconcileRun settings now (calls id').observed run' with
      | none =>
          have hraises : raisesAt settings now calls (id', run') = true :=
            reconcileRun_eq_none_iff.mp hresult
          simp [hraises]
      | some result =>
          have hquiet : raisesAt settings now calls (id', run') = false :=
            (reconcileRun_cases hresult).1
          have hgoes : (id', run') :: rest.takeWhile (fun x => !raisesAt settings now calls x) =
              ((id', run') :: rest).takeWhile (fun x => !raisesAt settings now calls x) := by
            rw [List.takeWhile_cons_of_pos (by rw [hquiet]; rfl)]
          have hdeleted : (result.deletes && (calls id').observed.deleted) = true ↔
              (calls id').observed.phase = some .active ∧ stopsJob settings now run' = true ∧
                (calls id').observed.deleted = true := by
            rw [Bool.and_eq_true, deletes_iff hresult, and_assoc]
          rw [← hgoes]
          dsimp only
          split
          · next hgone =>
            rw [List.mem_cons, ih]
            constructor
            · rintro (rfl | ⟨run, hmem, hstops⟩)
              · exact ⟨run', List.mem_cons_self, hdeleted.mp hgone⟩
              · exact ⟨run, List.mem_cons_of_mem _ hmem, hstops⟩
            · rintro ⟨run, hmem, hstops⟩
              rcases List.mem_cons.mp hmem with heq | hmem
              · exact Or.inl (congrArg Prod.fst heq)
              · exact Or.inr ⟨run, hmem, hstops⟩
          · next hkept =>
            rw [ih]
            constructor
            · rintro ⟨run, hmem, hstops⟩
              exact ⟨run, List.mem_cons_of_mem _ hmem, hstops⟩
            · rintro ⟨run, hmem, hstops⟩
              rcases List.mem_cons.mp hmem with heq | hmem
              · cases heq
                exact absurd (hdeleted.mpr hstops) hkept
              · exact ⟨run, hmem, hstops⟩

variable (settings now calls) in
/-- An exception leaves the tick. -/
abbrev tickRaises (runs : Table Uuid Run) : Bool :=
  (runs.select fun _ run => run.isTracked).any (raisesAt settings now calls)

theorem reconcileRuns_raised_eq : (reconcileRuns settings now calls
    (runs.select fun _ run => run.isTracked)).raised = tickRaises settings now calls runs :=
  reconcileRuns_raised

/-- A tick that an exception leaves commits nothing. -/
theorem reconcileOnce_of_raises (h : tickRaises settings now calls runs = true) :
    (reconcileOnce settings now calls runs).runs = runs := by
  rw [reconcileOnce, reconcileRuns_raised_eq, h]
  rfl

theorem exists_flushAll_reconcileRuns (hquiet : tickRaises settings now calls runs = false) :
    ∃ runs', runs.flushAll (reconcileRuns settings now calls
      (runs.select fun _ run => run.isTracked)).done = some runs' := by
  apply Table.exists_flushAll
  intro t ht
  have hselected : (t.key, t.read) ∈ runs.select fun _ run => run.isTracked :=
    (reconcileRuns_done hquiet).1 ▸ List.mem_map_of_mem ht
  rw [(Table.mem_select.mp hselected).1]
  rfl

/-- Otherwise every tracked run is committed as its own calls determine. -/
theorem lookup_reconcileOnce (hquiet : tickRaises settings now calls runs = false)
    (hrow : runs.lookup id = some run) (htracked : run.isTracked = true)
    (hresult : reconcileRun settings now (calls id).observed run = some result) :
    (reconcileOnce settings now calls runs).runs.lookup id = some result.run := by
  obtain ⟨hreads, hworks⟩ := reconcileRuns_done hquiet
  have hmem : (id, run) ∈ runs.select fun _ run => run.isTracked :=
    Table.mem_select.mpr ⟨hrow, htracked⟩
  rw [← hreads] at hmem
  obtain ⟨⟨key, read, work⟩, ht, hpair⟩ := List.mem_map.mp hmem
  cases hpair
  obtain ⟨result', hresult', rfl⟩ := hworks _ ht
  obtain rfl : result = result' := Option.some.inj (hresult.symm.trans hresult')
  rw [reconcileOnce, reconcileRuns_raised_eq, hquiet, Bool.false_or]
  dsimp only
  split
  · next hzero =>
    have hclean := reconcileRuns_clean (beq_iff_eq.mp hzero) _ ht
    exact hrow.trans (congrArg some hclean.symm)
  · have hnodup : ((reconcileRuns settings now calls
        (runs.select fun _ run => run.isTracked)).done.map Tracked.key).Nodup := by
      have hkeys := Table.nodup_select runs fun _ run => run.isTracked
      rw [← hreads, List.map_map] at hkeys
      exact hkeys
    obtain ⟨runs', hflush⟩ := exists_flushAll_reconcileRuns hquiet
    rw [hflush, Option.getD_some, Table.lookup_flushAll_of_mem hflush hnodup ht, hrow,
      Option.map_some, writeBack_fresh]

variable (settings now calls) in
/-- A run that is not tracked is not touched. -/
theorem lookup_reconcileOnce_other
    (huntracked : ∀ run, runs.lookup id = some run → run.isTracked = false) :
    (reconcileOnce settings now calls runs).runs.lookup id = runs.lookup id := by
  cases hraises : tickRaises settings now calls runs with
  | true => rw [reconcileOnce_of_raises hraises]
  | false =>
      rw [reconcileOnce, reconcileRuns_raised_eq, hraises, Bool.false_or]
      dsimp only
      split
      · rfl
      · obtain ⟨runs', hflush⟩ := exists_flushAll_reconcileRuns hraises
        rw [hflush, Option.getD_some, Table.lookup_flushAll_of_notMem hflush]
        intro hmem
        obtain ⟨t, ht, rfl⟩ := List.mem_map.mp hmem
        have hselected : (t.key, t.read) ∈ runs.select fun _ run => run.isTracked :=
          (reconcileRuns_done hraises).1 ▸ List.mem_map_of_mem ht
        obtain ⟨hread, htracked⟩ := Table.mem_select.mp hselected
        rw [huntracked t.read hread] at htracked
        cases htracked

/-! ### The tick among the other calls -/

section System

open Lifecycle

variable {parsers : Parsers} {w : World} {c : Nat}

variable (settings now calls) in
/-- The labels of an uninterrupted tick. -/
def tickActs (c : Nat) (runs : Table Uuid Run) : List Act :=
  let rows := runs.select fun _ run => run.isTracked
  .reconcileRead c now ::
    ((rows.takeWhile fun x => !raisesAt settings now calls x).map
      (fun x => Act.reconcileNext c (calls x.1).observed) ++
    [if rows.any (raisesAt settings now calls) then .crash c else .reconcileCommit c])

/-- The rows of the loop, one label each. -/
theorem exec_reconcileNext {done : List (Tracked Uuid Run)} {updated : Nat}
    (hcall : w.calls c = some (.reconciling now rows done updated)) :
    ∃ w', (system settings parsers).exec w ((rows.takeWhile fun x =>
        !raisesAt settings now calls x).map (fun x => Act.reconcileNext c (calls x.1).observed)) = some w' ∧
      w'.runs = w.runs ∧ w'.locks = w.locks ∧
      w'.calls c = some (.reconciling now (rows.dropWhile fun x => !raisesAt settings now calls x)
        (done ++ (reconcileRuns settings now calls rows).done)
        (updated + (reconcileRuns settings now calls rows).updated)) := by
  induction rows generalizing w done updated with
  | nil => exact ⟨w, rfl, rfl, rfl, by simpa [reconcileRuns] using hcall⟩
  | cons x rest ih =>
      obtain ⟨id, run⟩ := x
      cases hresult : reconcileRun settings now (calls id).observed run with
      | none =>
          have hraises : raisesAt settings now calls (id, run) = true :=
            reconcileRun_eq_none_iff.mp hresult
          refine ⟨w, ?_, rfl, rfl, ?_⟩
          · rw [List.takeWhile_cons_of_neg (by simp [hraises])]
            rfl
          · rw [List.dropWhile_cons_of_neg (by simp [hraises]), reconcileRuns, hresult]
            simpa using hcall
      | some result =>
          have hquiet : raisesAt settings now calls (id, run) = false :=
            (reconcileRun_cases hresult).1
          set w₁ := (if result.deletes && (calls id).observed.deleted then
              w.dropJob (run.k8sJobName.getD []) else w).spawn c
            (.reconciling now rest (done ++ [⟨id, run, result.run⟩])
              (updated + result.updated.toNat)) with hw₁
          have hstep : step settings parsers w (.reconcileNext c (calls id).observed) = some w₁ := by
            simp only [step, reconcileNext, hcall]
            rw [hresult]
            rfl
          have hruns : w₁.runs = w.runs := by
            rw [hw₁, spawn_runs]
            split <;> rfl
          have hlocks : w₁.locks = w.locks := by
            rw [hw₁, spawn_locks]
            split <;> rfl
          obtain ⟨w', hexec, hruns', hlocks', hcall'⟩ := ih (w := w₁) (Function.update_self ..)
          refine ⟨w', ?_, hruns'.trans hruns, hlocks'.trans hlocks, ?_⟩
          · rw [List.takeWhile_cons_of_pos (by simp [hquiet]), List.map_cons, System.exec_cons_eq_some]
            exact ⟨w₁, hstep, hexec⟩
          · rw [hcall', List.dropWhile_cons_of_pos (by simp [hquiet]), reconcileRuns, hresult]
            simp [Nat.add_assoc]

/-- A tick that runs without interruption is an execution of the lifecycle system. -/
theorem exec_tickActs (hcall : w.calls c = none) (hunlocked : ∀ id, w.locks id = none) :
    ∃ w', (system settings parsers).exec w (tickActs settings now calls c w.runs) = some w' ∧
      w'.runs = (reconcileOnce settings now calls w.runs).runs := by
  set rows := w.runs.select fun _ run => run.isTracked with hrows
  have hread : step settings parsers w (.reconcileRead c now) =
      some (w.spawn c (.reconciling now rows [] 0)) := by
    simp [step, reconcileRead, hcall, hrows]
  have hspawned : (w.spawn c (.reconciling now rows [] 0)).calls c =
      some (.reconciling now rows [] 0) := Function.update_self ..
  obtain ⟨u, hnext, hruns, hlocks, hcallU⟩ :=
    @exec_reconcileNext settings _ calls _ parsers _ _ _ _ hspawned
  suffices hlast : ∃ w', step settings parsers u (if rows.any (raisesAt settings now calls) then
      .crash c else .reconcileCommit c) = some w' ∧
        w'.runs = (reconcileOnce settings now calls w.runs).runs by
    obtain ⟨w', hstep, hend⟩ := hlast
    refine ⟨w', ?_, hend⟩
    rw [tickActs, System.exec_cons_eq_some]
    refine ⟨_, hread, (System.exec_append_eq_some _).mpr ⟨u, hnext, ?_⟩⟩
    rw [System.exec_cons_eq_some]
    exact ⟨w', hstep, rfl⟩
  cases hraises : rows.any (raisesAt settings now calls) with
  | true =>
      rw [if_pos rfl]
      refine ⟨u.finish c, by simp [step, crash, hcallU], ?_⟩
      rw [reconcileOnce_of_raises hraises]
      exact hruns
  | false =>
      rw [if_neg Bool.false_ne_true]
      have hall : rows.dropWhile (fun x => !raisesAt settings now calls x) = [] := by
        rw [List.dropWhile_eq_nil_iff]
        intro x hx
        simpa using List.any_eq_false.mp hraises x hx
      rw [hall, List.nil_append, Nat.zero_add] at hcallU
      have hfree : ∀ t : Tracked Uuid Run, u.mayWrite t = true := fun t =>
        mayWrite_iff.mpr (Or.inr (by rw [hlocks]; exact hunlocked t.key))
      obtain ⟨runs', hflush⟩ := exists_flushAll_reconcileRuns hraises
      rw [reconcileOnce, reconcileRuns_raised_eq, tickRaises, ← hrows, hraises, Bool.false_or]
      by_cases hzero : (reconcileRuns settings now calls rows).updated = 0
      · refine ⟨u.finish c, by simp [step, reconcileCommit, hcallU, hzero], ?_⟩
        rw [hzero]
        exact hruns
      · refine ⟨{ u with runs := runs' }.finish c, ?_, ?_⟩
        · have hflushU : u.runs.flushAll (reconcileRuns settings now calls rows).done = some runs' := by
            rw [hruns]
            exact hflush
          simp [step, reconcileCommit, hcallU, hzero, hfree, hflushU]
        · rw [if_neg (by simpa using hzero), hflush]
          rfl

end System

/-- The run is the only one. -/
def onlyRun (id : Uuid) (run : Run) : Table Uuid Run := AList.singleton id run

theorem lookup_onlyRun : (onlyRun id run).lookup id = some run := by
  simp [onlyRun, AList.lookup]

/-- How a run stands at its end. -/
def fate (run : Run) : RunStatus × Option Instant × Option Text × Option Text :=
  (run.status, run.finishedAt, run.finishCode, run.finishMessage)

variable (settings now calls) in
/-- No run suffers from the exceptions of the calls for another one: a run none of whose calls raises
is committed as if it were the only tracked run, and a run whose Job is deleted as ended. -/
structure Isolated (runs : Table Uuid Run) : Prop where
  alone : ∀ id run, runs.lookup id = some run → run.isTracked = true →
    callsRaise settings now calls id run = false →
      ((reconcileOnce settings now calls runs).runs.lookup id).map fate =
        ((reconcileOnce settings now calls (onlyRun id run)).runs.lookup id).map fate
  ended : ∀ id ∈ (reconcileOnce settings now calls runs).deleted, ∃ run,
    (reconcileOnce settings now calls runs).runs.lookup id = some run ∧ run.isTerminal = true

variable (settings now calls) in
/-- No exception leaves the tick, or there is nothing to lose: every run none of whose calls raises is
left alone, and no Job is deleted before the first exception. -/
def NothingLost (runs : Table Uuid Run) : Prop :=
  tickRaises settings now calls runs = false ∨
    ((∀ id run, runs.lookup id = some run → run.isTracked = true →
        callsRaise settings now calls id run = false →
          leftAlone settings now (calls id).observed run = true) ∧
      ∀ x ∈ (runs.select fun _ run => run.isTracked).takeWhile
          (fun x => !raisesAt settings now calls x),
        (calls x.1).observed.phase = some .active → stopsJob settings now x.2 = true →
          (calls x.1).observed.deleted = false)

/-- A run that is the only tracked one is committed as its own calls determine. -/
theorem lookup_reconcileOnce_singleton (htracked : run.isTracked = true)
    (hresult : reconcileRun settings now (calls id).observed run = some result) :
    (reconcileOnce settings now calls (onlyRun id run)).runs.lookup id = some result.run := by
  refine lookup_reconcileOnce ?_ lookup_onlyRun htracked hresult
  have honly : (onlyRun id run).select (fun _ run => run.isTracked) = [(id, run)] := by
    simp [Table.select, onlyRun, htracked]
  rw [tickRaises, honly, List.any_cons, List.any_nil, Bool.or_false]
  exact (reconcileRun_cases hresult).1

theorem raises_of_not_callsRaise (h : callsRaise settings now calls id run = false) :
    raises settings now (calls id).observed run = false :=
  (Bool.or_eq_false_iff.mp h).1

theorem mem_deleted_iff : id ∈ (reconcileOnce settings now calls runs).deleted ↔
    ∃ run, (id, run) ∈ (runs.select fun _ run => run.isTracked).takeWhile
        (fun x => !raisesAt settings now calls x) ∧
      (calls id).observed.phase = some .active ∧ stopsJob settings now run = true ∧
        (calls id).observed.deleted = true :=
  mem_reconcileRuns_deleted

/-- No exception: every run is committed as its own calls determine. -/
theorem isolated_of_quiet (hquiet : tickRaises settings now calls runs = false) :
    Isolated settings now calls runs := by
  constructor
  · intro id run hrow htracked hraise
    obtain ⟨result, hresult⟩ := exists_reconcileRun (raises_of_not_callsRaise hraise)
    rw [lookup_reconcileOnce hquiet hrow htracked hresult,
      lookup_reconcileOnce_singleton htracked hresult]
  · intro id hdeleted
    obtain ⟨run, hmem, hactive, hstops, -⟩ := mem_deleted_iff.mp hdeleted
    obtain ⟨hrow, htracked⟩ := Table.mem_select.mp ((List.takeWhile_subset _) hmem)
    have hraises : raises settings now (calls id).observed run = false := by
      simpa using List.mem_takeWhile_imp hmem
    obtain ⟨result, hresult⟩ := exists_reconcileRun hraises
    refine ⟨result.run, lookup_reconcileOnce hquiet hrow htracked hresult, ?_⟩
    obtain ⟨-, ⟨halone, -⟩ | ⟨-, hended⟩⟩ := reconcileRun_cases hresult
    · rw [leftAlone_active hactive, hstops] at halone
      cases halone
    · exact hended.terminal

/-- One bad run does not stop the reconciliation of the others exactly if nothing is lost with it. -/
theorem isolated_iff : Isolated settings now calls runs ↔ NothingLost settings now calls runs := by
  cases hraises : tickRaises settings now calls runs with
  | false => exact iff_of_true (isolated_of_quiet hraises) (Or.inl hraises)
  | true =>
      have hruns := reconcileOnce_of_raises hraises
      constructor
      · intro hisolated
        refine Or.inr ⟨fun id run hrow htracked hraise => ?_, ?_⟩
        · obtain ⟨result, hresult⟩ := exists_reconcileRun (raises_of_not_callsRaise hraise)
          obtain ⟨-, ⟨halone, -⟩ | ⟨-, hended⟩⟩ := reconcileRun_cases hresult
          · exact halone
          · have hsame := hisolated.alone id run hrow htracked hraise
            rw [hruns, hrow, lookup_reconcileOnce_singleton htracked hresult, Option.map_some,
              Option.map_some, Option.some.injEq, fate, fate, Prod.mk.injEq] at hsame
            have hterminal := hended.terminal
            rw [Run.isTerminal, ← hsame.1, ← Run.isTerminal,
              (Run.isTracked_iff.mp htracked).2] at hterminal
            cases hterminal
        · rintro ⟨id, run⟩ hmem hactive hstops
          apply Bool.eq_false_iff.mpr
          intro hgone
          obtain ⟨run', hrow', hterminal⟩ :=
            hisolated.ended id (mem_deleted_iff.mpr ⟨run, hmem, hactive, hstops, hgone⟩)
          obtain ⟨hrow, htracked⟩ := Table.mem_select.mp ((List.takeWhile_subset _) hmem)
          rw [hruns, hrow, Option.some.injEq] at hrow'
          subst hrow'
          rw [(Run.isTracked_iff.mp htracked).2] at hterminal
          cases hterminal
      · rintro (hquiet | ⟨hleft, hkept⟩)
        · rw [hraises] at hquiet
          cases hquiet
        · constructor
          · intro id run hrow htracked hraise
            obtain ⟨result, hresult⟩ := exists_reconcileRun (raises_of_not_callsRaise hraise)
            have halone := hleft id run hrow htracked hraise
            obtain ⟨-, ⟨-, rfl⟩ | ⟨hchanged, -⟩⟩ := reconcileRun_cases hresult
            · rw [hruns, hrow, lookup_reconcileOnce_singleton htracked hresult]
            · rw [halone] at hchanged
              cases hchanged
          · intro id hdeleted
            obtain ⟨run, hmem, hactive, hstops, hgone⟩ := mem_deleted_iff.mp hdeleted
            rw [hkept (id, run) hmem hactive hstops] at hgone
            cases hgone

/-- A run whose Job is running. -/
def sampleTrackedRun (id : Uuid) : Run :=
  { RunService.createRun {} id Lifecycle.sampleRequest
      { pdeImage := "pde:1".toList, envVars := [], resources := [], createdAt := 0, updatedAt := 0 }
      none 0 with
    status := .inProgress
    k8sJobName := some (RunService.jobName id) }

/-- Two runs without a sign of life. -/
def twoStuckRuns : Table Uuid Run := (onlyRun 2 (sampleTrackedRun 2)).insert 1 (sampleTrackedRun 1)

/-- The Job of the first run can be deleted; Kubernetes does not answer for the second one. -/
def secondUnreachable (id : Uuid) : KubernetesCalls :=
  { observed := { phase := if id = 1 then some .active else none } }

/-- The tick deletes the Job of the first run and does not commit its end. -/
theorem secondUnreachable_not_isolated :
    ¬∀ (settings : Settings) (now : Instant) (calls : Uuid → KubernetesCalls)
      (runs : Table Uuid Run), Isolated settings now calls runs := by
  intro h
  have hdeleted : (reconcileOnce {} (seconds 300) secondUnreachable twoStuckRuns).deleted = [1] := by
    decide
  have hcommitted : ((reconcileOnce {} (seconds 300) secondUnreachable twoStuckRuns).runs.lookup 1).map
      Run.isTerminal = some false := by
    decide
  obtain ⟨run, hrow, hterminal⟩ := (h {} (seconds 300) secondUnreachable twoStuckRuns).ended 1
    (by rw [hdeleted]; exact List.mem_cons_self)
  rw [hrow, Option.map_some, hterminal] at hcommitted
  cases hcommitted

end JobReconciler
end PdeOperator
