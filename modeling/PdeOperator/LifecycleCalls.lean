import PdeOperator.LifecycleSteps

/-! What the calls in flight carry: each changed row is what the modelled functions make of the row
as it was read, whatever the other calls do in between. -/

namespace PdeOperator.Lifecycle
open Base

variable {settings : Settings} {parsers : Parsers}

/-- The rows of a session as they were read. -/
def readRows (done : List (Tracked Uuid Run)) (todo : List (Uuid × Run)) : List (Uuid × Run) :=
  done.map (fun t => (t.key, t.read)) ++ todo

@[simp] theorem readRows_nil (todo : List (Uuid × Run)) : readRows [] todo = todo := rfl

theorem readRows_advance (done : List (Tracked Uuid Run)) (todo : List (Uuid × Run)) (id : Uuid)
    (run work : Run) : readRows (done ++ [⟨id, run, work⟩]) todo = readRows done ((id, run) :: todo) := by
  simp [readRows]

theorem mem_advance {done : List (Tracked Uuid Run)} {t last : Tracked Uuid Run}
    (h : t ∈ done ++ [last]) : t ∈ done ∨ t = last := by
  rwa [List.mem_append, List.mem_singleton] at h

theorem mem_readRows {done : List (Tracked Uuid Run)} {todo : List (Uuid × Run)}
    {t : Tracked Uuid Run} (h : t ∈ done) : (t.key, t.read) ∈ readRows done todo :=
  List.mem_append_left _ (List.mem_map_of_mem h)

/-- The keys of the finished rows are distinct when all keys of the session are. -/
theorem nodup_keys {done : List (Tracked Uuid Run)} {todo : List (Uuid × Run)}
    (h : ((readRows done todo).map Prod.fst).Nodup) : (done.map Tracked.key).Nodup := by
  rw [readRows, List.map_append, List.map_map] at h
  exact (List.nodup_append.mp h).1

variable (settings parsers) in
/-- The data of a call agrees with the functions that produce it. -/
def Call.Valid : Call → Prop
  | .writing change now _ row => change.apply parsers now row.key row.read = .ok row.work
  | .reconciling now todo done updated =>
      (∀ x ∈ readRows done todo, x.2.isTracked = true) ∧
      ((readRows done todo).map Prod.fst).Nodup ∧
      (∀ t ∈ done, ∃ observed result,
        JobReconciler.reconcileRun settings now observed t.read = some result ∧
          t.work = result.run) ∧
      (updated = 0 → ∀ t ∈ done, t.work = t.read)
  | .admitting now todo done _ =>
      (∀ x ∈ readRows done todo, x.2.isQueued = true) ∧
      ((readRows done todo).map Prod.fst).Nodup ∧
      (∀ t ∈ done, ∃ profile outcome, t.work = QueueService.admitRun now t.key profile outcome t.read)
  | .creating runId run _ =>
      run.isQueued = true ∨
        (settings.queueEnabled = false ∧ run.k8sJobName = some (RunService.jobName runId))
  | _ => True

variable (settings parsers) in
def AllValid (calls : Nat → Option Call) : Prop :=
  ∀ c call, calls c = some call → call.Valid settings parsers

theorem AllValid.spawn {w : World} (h : AllValid settings parsers w.calls) (c : Nat) {call : Call}
    (hcall : call.Valid settings parsers) : AllValid settings parsers (w.spawn c call).calls := by
  intro c' call' hcall'
  rcases calls_spawn hcall' with ⟨-, rfl⟩ | ⟨-, hold⟩
  · exact hcall
  · exact h c' call' hold

theorem AllValid.finish {w : World} (h : AllValid settings parsers w.calls) (c : Nat) :
    AllValid settings parsers (w.finish c).calls :=
  fun c' call' hcall' => h c' call' (calls_finish hcall').2

theorem isTracked_of_mem_select {runs : Table Uuid Run} {x : Uuid × Run}
    (h : x ∈ runs.select fun _ run => run.isTracked) : x.2.isTracked = true :=
  (Table.mem_select.mp h).2

/-- The reconciler's data after one more row. -/
theorem valid_reconcileNext {now : Instant} {id : Uuid} {run : Run} {todo : List (Uuid × Run)}
    {done : List (Tracked Uuid Run)} {updated : Nat} {observed : JobObservation}
    {result : Reconciled}
    (h : (Call.reconciling now ((id, run) :: todo) done updated).Valid settings parsers)
    (hresult : JobReconciler.reconcileRun settings now observed run = some result) :
    (Call.reconciling now todo (done ++ [⟨id, run, result.run⟩])
      (updated + result.updated.toNat)).Valid settings parsers := by
  obtain ⟨htracked, hnodup, hdone, hclean⟩ := h
  refine ⟨?_, ?_, ?_, ?_⟩
  · rwa [readRows_advance]
  · rwa [readRows_advance]
  · intro t ht
    rcases mem_advance ht with ht | rfl
    · exact hdone t ht
    · exact ⟨observed, result, hresult, rfl⟩
  · intro hzero t ht
    obtain ⟨hupdated, hresultZero⟩ := Nat.add_eq_zero_iff.mp hzero
    rcases mem_advance ht with ht | rfl
    · exact hclean hupdated t ht
    · exact (JobReconciler.reconcileRun_frame hresult).2 (by simpa using hresultZero)

/-- The queue worker's data after one more row. -/
theorem valid_admitNext {now : Instant} {id : Uuid} {run : Run} {todo : List (Uuid × Run)}
    {done : List (Tracked Uuid Run)} {started started' : Nat} {profile : Option Profile}
    {outcome : JobOutcome}
    (h : (Call.admitting now ((id, run) :: todo) done started).Valid settings parsers) :
    (Call.admitting now todo
      (done ++ [⟨id, run, QueueService.admitRun now id profile outcome run⟩]) started').Valid
        settings parsers := by
  obtain ⟨hqueued, hnodup, hdone⟩ := h
  refine ⟨?_, ?_, ?_⟩
  · rwa [readRows_advance]
  · rwa [readRows_advance]
  · intro t ht
    rcases mem_advance ht with ht | rfl
    · exact hdone t ht
    · exact ⟨profile, outcome, rfl⟩

/-- Every step keeps the data of all calls valid. -/
theorem allValid_step {w w' : World} {a : Act} (hinv : AllValid settings parsers w.calls)
    (h : step settings parsers w a = some w') : AllValid settings parsers w'.calls := by
  cases step_cases h with
  | readRow hcall hrun happly => exact hinv.spawn _ happly
  | putNext hcall | storeInput hcall | startLater hcall =>
      have hvalid := hinv _ _ hcall
      exact hinv.spawn _ hvalid
  | commitRow | reconcileNothing | reconcileCommit | admitNone | admitCommit | startRefused
  | startLost | insertCommit | deleteCommit | crash => exact AllValid.finish hinv _
  | reconcileRead =>
      refine hinv.spawn _ ⟨?_, ?_, ?_, ?_⟩
      · exact fun x hx => isTracked_of_mem_select hx
      · rw [readRows_nil]
        exact Table.nodup_select _ _
      · exact fun t ht => absurd ht List.not_mem_nil
      · exact fun _ t ht => absurd ht List.not_mem_nil
  | reconcileNext hcall hresult | reconcileDelete hcall hresult =>
      exact AllValid.spawn hinv _ (valid_reconcileNext (hinv _ _ hcall) hresult)
  | admitSelect hcall hqueued =>
      refine hinv.spawn _ ⟨?_, ?_, ?_⟩
      · exact fun x hx => (QueueService.mem_selectQueued (hqueued ▸ hx)).2.1
      · rw [readRows_nil, hqueued]
        exact QueueService.nodup_selectQueued _ _ _
      · exact fun t ht => absurd ht List.not_mem_nil
  | admitStart hcall | admitPass hcall =>
      exact AllValid.spawn hinv _ (valid_admitNext (hinv _ _ hcall))
  | admitCount | retryRead | deleteRead | deleteObjects => exact AllValid.spawn hinv _ trivial
  | createRead | retryLoad => exact AllValid.spawn hinv _ (Or.inl rfl)
  | startNow hcall hsync => exact AllValid.spawn hinv _ (Or.inr ⟨hsync, rfl⟩)
  | jobEnds | editProfiles => exact hinv

/-- The id of the run that a call is going to insert. -/
def Call.newId : Call → Option Uuid
  | .retrying runId .. => some runId
  | .creating runId .. => some runId
  | _ => none

/-- The rows that a call will write back, with the versions it has read. -/
def Call.tracked : Call → List (Tracked Uuid Run)
  | .writing _ _ _ row => [row]
  | .reconciling _ _ done _ => done
  | .admitting _ _ done _ => done
  | _ => []

/-- The rows that a call has read. -/
def Call.copies : Call → List (Uuid × Run)
  | .writing _ _ _ row => [(row.key, row.read)]
  | .reconciling _ todo done _ => readRows done todo
  | .admitting _ todo done _ => readRows done todo
  | _ => []

/-- The run whose status a call delivers. -/
def Call.delivers : Call → Option Uuid
  | .writing (.deliverStatus _) _ _ row => some row.key
  | _ => none

/-- What a step does to the calls: one call begins, goes on or ends. -/
inductive CallStep (w w' : World) (a : Act) : Prop
  | begins {c : Nat} {call : Call} (hact : a.call = some c) (hnone : w.calls c = none)
      (hcalls : w'.calls = (w.spawn c call).calls) (hissued : w'.issued = w.issued)
      (hnew : call.newId = none) (hheld : call.held = [])
      (hread : ∀ x ∈ call.copies, w.runs.lookup x.1 = some x.2)
      (hnames : ∀ t ∈ call.tracked, t.work.k8sJobName = t.read.k8sJobName)
      (hdelivers : ∀ id ∈ call.delivers, ∃ status now, a = .readRow c id (.deliverStatus status) now)
  | issues {c : Nat} {call : Call} {runId : Uuid} (hact : a.call = some c)
      (hnone : w.calls c = none) (hcalls : w'.calls = (w.spawn c call).calls)
      (hissued : w'.issued = runId :: w.issued) (hfresh : runId ∉ w.issued)
      (hnew : call.newId = some runId) (hheld : call.held = []) (hread : call.copies = [])
      (hwork : call.tracked = []) (hdelivers : call.delivers = none)
  | goesOn {c : Nat} {old call : Call} (hact : a.call = some c) (hcall : w.calls c = some old)
      (hcalls : w'.calls = (w.spawn c call).calls) (hissued : w'.issued = w.issued)
      (hnew : call.newId = old.newId) (hheld : call.held = old.held)
      (hread : call.copies = old.copies) (hwork : ∀ t ∈ old.tracked, t ∈ call.tracked)
      (hnames : ∀ t ∈ call.tracked, t ∈ old.tracked ∨ t.work.k8sJobName = t.read.k8sJobName ∨
        RunService.jobName t.key ∈ w'.created)
      (hdelivers : call.delivers = old.delivers)
  | locks {c : Nat} {free : Option Nat} {call : Call} (hact : a.call = some c)
      (hcall : w.calls c = some (.counted free)) (hcalls : w'.calls = (w.spawn c call).calls)
      (hissued : w'.issued = w.issued) (hnew : call.newId = none) (hheld : call.held = call.copies)
      (hread : ∀ x ∈ call.copies, w.runs.lookup x.1 = some x.2 ∧ x.2.isQueued = true)
      (hwork : call.tracked = []) (hdelivers : call.delivers = none)
  | ends {c : Nat} {old : Call} (hact : a.call = some c) (hcall : w.calls c = some old)
      (hcalls : w'.calls = (w.finish c).calls) (hissued : w'.issued = w.issued)
      (hwritten : a = .crash c ∨ ∀ t ∈ old.tracked,
        w'.runs.lookup t.key = (w.runs.lookup t.key).map (writeBack t.read t.work))
  | outside (hact : a.call = none) (hcalls : w'.calls = w.calls) (hissued : w'.issued = w.issued)

variable {w w' : World} {c : Nat}

theorem forall_tracked_nil {p : Tracked Uuid Run → Prop} : ∀ t ∈ ([] : List (Tracked Uuid Run)), p t :=
  fun _ ht => absurd ht List.not_mem_nil

theorem forall_mem_none {p : Uuid → Prop} : ∀ id ∈ (none : Option Uuid), p id :=
  fun _ hid => by cases hid

/-- Rows that no tick has updated are as they were read, so ending the call writes them all. -/
theorem written_of_clean {done : List (Tracked Uuid Run)} (hclean : ∀ t ∈ done, t.work = t.read) :
    ∀ t ∈ done, w.runs.lookup t.key = (w.runs.lookup t.key).map (writeBack t.read t.work) := by
  intro t ht
  rw [hclean t ht]
  cases w.runs.lookup t.key with
  | none => rfl
  | some run => rw [Option.map_some, writeBack_clean]

theorem callStep_reconcileNext {now : Instant} {id : Uuid} {run : Run} {todo : List (Uuid × Run)}
    {done : List (Tracked Uuid Run)} {updated : Nat} {observed : JobObservation}
    {result : Reconciled} (hcall : w.calls c = some (.reconciling now ((id, run) :: todo) done updated))
    (hresult : JobReconciler.reconcileRun settings now observed run = some result)
    (hcalls : w'.calls = (w.spawn c (.reconciling now todo (done ++ [⟨id, run, result.run⟩])
      (updated + result.updated.toNat))).calls) (hissued : w'.issued = w.issued) :
    CallStep w w' (.reconcileNext c observed) := by
  refine .goesOn rfl hcall hcalls hissued rfl rfl (readRows_advance _ _ _ _ _)
    (fun t ht => List.mem_append_left _ ht) (fun t ht => ?_) rfl
  refine (mem_advance ht).imp_right fun heq => Or.inl ?_
  subst heq
  exact (JobReconciler.reconcileRun_frame hresult).1

theorem callStep_admitNext {now : Instant} {id : Uuid} {run : Run} {todo : List (Uuid × Run)}
    {done : List (Tracked Uuid Run)} {started started' : Nat} {profile : Option Profile}
    {outcome : JobOutcome}
    (hcall : w.calls c = some (.admitting now ((id, run) :: todo) done started))
    (hcalls : w'.calls = (w.spawn c (.admitting now todo
      (done ++ [⟨id, run, QueueService.admitRun now id profile outcome run⟩]) started')).calls)
    (hissued : w'.issued = w.issued)
    (hname : (QueueService.admitRun now id profile outcome run).k8sJobName = run.k8sJobName ∨
      RunService.jobName id ∈ w'.created) :
    CallStep w w' (.admitNext c outcome) := by
  refine .goesOn rfl hcall hcalls hissued rfl (readRows_advance _ _ _ _ _)
    (readRows_advance _ _ _ _ _) (fun t ht => List.mem_append_left _ ht) (fun t ht => ?_) rfl
  refine (mem_advance ht).imp_right fun heq => ?_
  subst heq
  exact hname

/-- Every step lets one call begin, go on or end, or comes from outside. -/
theorem callStep_of_step {a : Act} (hvalid : AllValid settings parsers w.calls)
    (h : step settings parsers w a = some w') : CallStep w w' a := by
  cases step_cases h with
  | @readRow c runId change now run work hcall hrun happly =>
      refine .begins rfl hcall rfl rfl rfl rfl (fun x hx => ?_) (fun t ht => ?_) fun id hid => ?_
      · obtain rfl := List.mem_singleton.mp hx
        exact hrun
      · obtain rfl := List.mem_singleton.mp ht
        exact RunChange.apply_k8sJobName happly
      · cases change with
        | deliverStatus status =>
            obtain rfl : runId = id := Option.some.inj hid
            exact ⟨status, now, rfl⟩
        | _ => cases hid
  | @putNext c change _ _ _ _ hcall =>
      refine .goesOn rfl hcall rfl rfl rfl rfl rfl (fun t ht => ht) (fun t ht => Or.inl ht) ?_
      cases change <;> rfl
  | commitRow hcall hlock hflush =>
      refine .ends rfl hcall rfl rfl (Or.inr fun t ht => ?_)
      obtain rfl := List.mem_singleton.mp ht
      exact Table.lookup_flush_self hflush
  | reconcileRead hcall =>
      refine .begins rfl hcall rfl rfl rfl rfl (fun x hx => ?_) forall_tracked_nil forall_mem_none
      have hmem : x ∈ w.runs.select fun _ run => run.isTracked := hx
      exact (Table.mem_select.mp hmem).1
  | reconcileNext hcall hresult => exact callStep_reconcileNext hcall hresult rfl rfl
  | reconcileDelete hcall hresult => exact callStep_reconcileNext hcall hresult rfl rfl
  | reconcileNothing hcall =>
      obtain ⟨-, -, -, hclean⟩ := hvalid _ _ hcall
      exact .ends rfl hcall rfl rfl (Or.inr (written_of_clean (hclean rfl)))
  | reconcileCommit hcall hlock hflush =>
      obtain ⟨-, hnodup, -, -⟩ := hvalid _ _ hcall
      exact .ends rfl hcall rfl rfl
        (Or.inr fun t ht => Table.lookup_flushAll_of_mem hflush (nodup_keys hnodup) ht)
  | admitCount hcall | deleteRead hcall =>
      exact .begins rfl hcall rfl rfl rfl rfl (fun x hx => absurd hx List.not_mem_nil)
        forall_tracked_nil forall_mem_none
  | admitSelect hcall hqueued =>
      refine .locks rfl hcall rfl rfl rfl rfl (fun x hx => ?_) rfl rfl
      have hselected := QueueService.mem_selectQueued (hqueued ▸ hx)
      exact ⟨hselected.1, hselected.2.1⟩
  | admitStart hcall => exact callStep_admitNext hcall rfl rfl (Or.inr List.mem_cons_self)
  | admitPass hcall hprofile hpass =>
      refine callStep_admitNext hcall rfl rfl (Or.inl ?_)
      exact QueueService.admitRun_k8sJobName hpass
  | admitCommit hcall hflush =>
      obtain ⟨-, hnodup, -⟩ := hvalid _ _ hcall
      exact .ends rfl hcall rfl rfl
        (Or.inr fun t ht => Table.lookup_flushAll_of_mem hflush (nodup_keys hnodup) ht)
  | createRead hcall hfresh | retryRead hcall hfresh =>
      exact .issues rfl hcall rfl rfl hfresh rfl rfl rfl rfl rfl
  | retryLoad hcall | storeInput hcall | startLater hcall | startNow hcall | deleteObjects hcall =>
      exact .goesOn rfl hcall rfl rfl rfl rfl rfl forall_tracked_nil forall_tracked_nil rfl
  | admitNone hcall | startRefused hcall | startLost hcall | insertCommit hcall
  | deleteCommit hcall => exact .ends rfl hcall rfl rfl (Or.inr forall_tracked_nil)
  | crash hcall => exact .ends rfl hcall rfl rfl (Or.inl rfl)
  | jobEnds | editProfiles => exact .outside rfl rfl rfl

end PdeOperator.Lifecycle
