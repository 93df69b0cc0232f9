import PdeOperator.LifecycleSystem

/-! Inversion of the steps of `LifecycleSystem`: one rule for each way in which a label can be taken,
with the call it continues and the world it leaves. -/

namespace PdeOperator.Lifecycle
open Base

variable {settings : Settings} {parsers : Parsers} {w w' : World}

variable (settings parsers) in
inductive Step (w : World) : Act → World → Prop where
  | readRow {c runId change now run work} (hcall : w.calls c = none)
      (hrun : w.runs.lookup runId = some run)
      (happly : change.apply parsers now runId run = .ok work) :
      Step w (.readRow c runId change now)
        (w.spawn c (.writing change now change.puts ⟨runId, run, work⟩))
  | putNext {c change now kind kinds row}
      (hcall : w.calls c = some (.writing change now (kind :: kinds) row)) :
      Step w (.putNext c) { w.spawn c (.writing change now kinds row) with
        objects := artifactKey row.key kind :: w.objects }
  | commitRow {c change now row runs} (hcall : w.calls c = some (.writing change now [] row))
      (hlock : row.work = row.read ∨ w.locks row.key = none)
      (hflush : w.runs.flush row = some runs) :
      Step w (.commitRow c) ({ w with runs }.finish c)
  | reconcileRead {c now} (hcall : w.calls c = none) :
      Step w (.reconcileRead c now)
        (w.spawn c (.reconciling now (w.runs.select fun _ run => run.isTracked) [] 0))
  | reconcileNext {c observed now id run todo done updated result}
      (hcall : w.calls c = some (.reconciling now ((id, run) :: todo) done updated))
      (hresult : JobReconciler.reconcileRun settings now observed run = some result) :
      Step w (.reconcileNext c observed) (w.spawn c (.reconciling now todo
        (done ++ [⟨id, run, result.run⟩]) (updated + result.updated.toNat)))
  | reconcileDelete {c observed now id run todo done updated result}
      (hcall : w.calls c = some (.reconciling now ((id, run) :: todo) done updated))
      (hresult : JobReconciler.reconcileRun settings now observed run = some result) :
      Step w (.reconcileNext c observed) ((w.dropJob (run.k8sJobName.getD [])).spawn c
        (.reconciling now todo (done ++ [⟨id, run, result.run⟩])
          (updated + result.updated.toNat)))
  | reconcileNothing {c now done} (hcall : w.calls c = some (.reconciling now [] done 0)) :
      Step w (.reconcileCommit c) (w.finish c)
  | reconcileCommit {c now done updated runs}
      (hcall : w.calls c = some (.reconciling now [] done updated))
      (hlock : ∀ row ∈ done, row.work = row.read ∨ w.locks row.key = none)
      (hflush : w.runs.flushAll done = some runs) :
      Step w (.reconcileCommit c) ({ w with runs }.finish c)
  | admitCount {c} (hcall : w.calls c = none) :
      Step w (.admitCount c) (w.spawn c (.counted (QueueService.freeSlots settings w.runs)))
  | admitNone {c now free} (hcall : w.calls c = some (.counted free)) :
      Step w (.admitSelect c now) (w.finish c)
  | admitSelect {c now free queued} (hcall : w.calls c = some (.counted free))
      (hqueued : queued =
        QueueService.selectQueued w.runs (fun id => (w.locks id).isSome) free) :
      Step w (.admitSelect c now) { w.spawn c (.admitting now queued [] 0) with
        locks := fun id => if id ∈ queued.map Prod.fst then some c else w.locks id }
  | admitStart {c outcome now id run todo done started profile}
      (hcall : w.calls c = some (.admitting now ((id, run) :: todo) done started))
      (hprofile : w.profiles.lookup run.profileId = some profile) (hmade : outcome ≠ .refused)
      (hjob : RunService.jobName id ∉ w.jobs) :
      Step w (.admitNext c outcome) ((w.addJob (RunService.jobName id)).spawn c
        (.admitting now todo
          (done ++ [⟨id, run, QueueService.admitRun now id (some profile) outcome run⟩])
          (started + (outcome == .created).toNat)))
  | admitPass {c outcome now id run todo done started profile}
      (hcall : w.calls c = some (.admitting now ((id, run) :: todo) done started))
      (hprofile : profile = w.profiles.lookup run.profileId)
      (hpass : profile = none ∨ outcome = .refused) :
      Step w (.admitNext c outcome) (w.spawn c (.admitting now todo
        (done ++ [⟨id, run, QueueService.admitRun now id profile outcome run⟩]) started))
  | admitCommit {c now done started runs}
      (hcall : w.calls c = some (.admitting now [] done started))
      (hflush : w.runs.flushAll done = some runs) :
      Step w (.admitCommit c) ({ w with runs }.finish c)
  | createRead {c runId request triggeredBy now profile} (hcall : w.calls c = none)
      (hfresh : runId ∉ w.issued) (hprofile : w.profiles.lookup request.profileId = some profile) :
      Step w (.createRead c runId request triggeredBy now)
        { w.spawn c (.creating runId
            (RunService.createRun settings runId request profile triggeredBy now) .store) with
          issued := runId :: w.issued }
  | retryRead {c runId parentId request now parent} (hcall : w.calls c = none)
      (hfresh : runId ∉ w.issued) (hparent : w.runs.lookup parentId = some parent)
      (hretriable : RunService.checkRetriable parent = .ok ()) :
      Step w (.retryRead c runId parentId request now)
        { w.spawn c (.retrying runId parentId parent request now) with
          issued := runId :: w.issued }
  | retryLoad {c runId parentId parent request now profile}
      (hcall : w.calls c = some (.retrying runId parentId parent request now))
      (hprofile : w.profiles.lookup parent.profileId = some profile) :
      Step w (.retryLoad c) (w.spawn c (.creating runId
        (RunService.retryRun settings runId parentId parent profile request now) .store))
  | storeInput {c runId run} (hcall : w.calls c = some (.creating runId run .store)) :
      Step w (.storeInput c) { w.spawn c (.creating runId run .job) with
        objects := inputKey runId :: w.objects }
  | startLater {c outcome now runId run} (hcall : w.calls c = some (.creating runId run .job)) :
      Step w (.startJob c outcome now) (w.spawn c (.creating runId run .insert))
  | startRefused {c now runId run} (hcall : w.calls c = some (.creating runId run .job)) :
      Step w (.startJob c .refused now) (w.finish c)
  | startLost {c now runId run} (hcall : w.calls c = some (.creating runId run .job))
      (hsync : settings.queueEnabled = false) (hjob : RunService.jobName runId ∉ w.jobs) :
      Step w (.startJob c .lost now) ((w.addJob (RunService.jobName runId)).finish c)
  | startNow {c outcome now runId run} (hcall : w.calls c = some (.creating runId run .job))
      (hsync : settings.queueEnabled = false) (hjob : RunService.jobName runId ∉ w.jobs) :
      Step w (.startJob c outcome now) ((w.addJob (RunService.jobName runId)).spawn c
        (.creating runId (RunService.startRunJobNow now runId run) .insert))
  | insertCommit {c runId run} (hcall : w.calls c = some (.creating runId run .insert))
      (hrun : w.runs.lookup runId = none) :
      Step w (.insertCommit c) ({ w with runs := w.runs.insert runId run }.finish c)
  | deleteRead {c runId} (hcall : w.calls c = none) :
      Step w (.deleteRead c runId) (w.spawn c (.deleting runId false))
  | deleteObjects {c kept runId} (hcall : w.calls c = some (.deleting runId false)) :
      Step w (.deleteObjects c kept)
        { w.spawn c (.deleting runId true) with objects := deleteUnder runId kept w.objects }
  | deleteCommit {c runId} (hcall : w.calls c = some (.deleting runId true))
      (hfree : w.locks runId = none) :
      Step w (.deleteCommit c) ({ w with runs := w.runs.erase runId }.finish c)
  | crash {c call} (hcall : w.calls c = some call) : Step w (.crash c) (w.finish c)
  | jobEnds {name} : Step w (.jobEnds name) (w.dropJob name)
  | editProfiles {profiles} : Step w (.editProfiles profiles) { w with profiles }

variable {c : Nat}

@[simp] theorem spawn_runs (call : Call) : (w.spawn c call).runs = w.runs := rfl
@[simp] theorem spawn_jobs (call : Call) : (w.spawn c call).jobs = w.jobs := rfl
@[simp] theorem spawn_created (call : Call) : (w.spawn c call).created = w.created := rfl
@[simp] theorem spawn_issued (call : Call) : (w.spawn c call).issued = w.issued := rfl
@[simp] theorem spawn_locks (call : Call) : (w.spawn c call).locks = w.locks := rfl
@[simp] theorem finish_runs : (w.finish c).runs = w.runs := rfl
@[simp] theorem finish_jobs : (w.finish c).jobs = w.jobs := rfl
@[simp] theorem finish_created : (w.finish c).created = w.created := rfl
@[simp] theorem finish_issued : (w.finish c).issued = w.issued := rfl
@[simp] theorem addJob_runs (name : Text) : (w.addJob name).runs = w.runs := rfl
@[simp] theorem addJob_issued (name : Text) : (w.addJob name).issued = w.issued := rfl
@[simp] theorem addJob_calls (name : Text) : (w.addJob name).calls = w.calls := rfl
@[simp] theorem addJob_locks (name : Text) : (w.addJob name).locks = w.locks := rfl
@[simp] theorem dropJob_runs (name : Text) : (w.dropJob name).runs = w.runs := rfl
@[simp] theorem dropJob_created (name : Text) : (w.dropJob name).created = w.created := rfl
@[simp] theorem dropJob_issued (name : Text) : (w.dropJob name).issued = w.issued := rfl
@[simp] theorem dropJob_calls (name : Text) : (w.dropJob name).calls = w.calls := rfl
@[simp] theorem dropJob_locks (name : Text) : (w.dropJob name).locks = w.locks := rfl

theorem spawn_calls (call : Call) :
    (w.spawn c call).calls = Function.update w.calls c (some call) := rfl

theorem finish_calls : (w.finish c).calls = Function.update w.calls c none := rfl

theorem finish_locks (id : Uuid) :
    (w.finish c).locks id = if w.locks id = some c then none else w.locks id := rfl

theorem calls_spawn {call call' : Call} {c' : Nat} (h : (w.spawn c call).calls c' = some call') :
    (c' = c ∧ call' = call) ∨ (c' ≠ c ∧ w.calls c' = some call') := by
  by_cases hc : c' = c
  · subst hc
    rw [spawn_calls, Function.update_self, Option.some.injEq] at h
    exact Or.inl ⟨rfl, h.symm⟩
  · rw [spawn_calls, Function.update_of_ne hc] at h
    exact Or.inr ⟨hc, h⟩

theorem calls_finish {call' : Call} {c' : Nat} (h : (w.finish c).calls c' = some call') :
    c' ≠ c ∧ w.calls c' = some call' := by
  by_cases hc : c' = c
  · subst hc
    rw [finish_calls, Function.update_self] at h
    cases h
  · rw [finish_calls, Function.update_of_ne hc] at h
    exact ⟨hc, h⟩

theorem mayWrite_iff {row : Tracked Uuid Run} :
    w.mayWrite row = true ↔ row.work = row.read ∨ w.locks row.key = none := by
  simp [World.mayWrite]

/-- The objects of a run are the keys with its prefix. -/
theorem isPrefixOf_ownKey {a b : Uuid} {tail : Text} :
    (objectPrefix a).isPrefixOf (Uuid.str b ++ '/' :: tail) = true ↔ a = b := by
  rw [List.isPrefixOf_iff_prefix, objectPrefix]
  constructor
  · rintro ⟨rest, hkey⟩
    rw [List.append_assoc] at hkey
    have hids := (List.append_inj hkey (by rw [Uuid.length_str, Uuid.length_str])).1
    exact Uuid.str_injective hids
  · rintro rfl
    exact ⟨tail, by simp⟩

theorem step_readRow {runId : Uuid} {change : RunChange} {now : Instant}
    (h : readRow parsers w c runId change now = some w') :
    Step settings parsers w (.readRow c runId change now) w' := by
  simp only [readRow, Option.bind_eq_bind, Option.bind_eq_some_iff, Option.guard_eq_some',
    Option.isNone_iff_eq_none] at h
  obtain ⟨-, hcall, run, hrun, work, hwork, h⟩ := h
  cases h
  exact .readRow hcall hrun (toOption_eq_some.mp hwork)

theorem step_putNext (h : putNext w c = some w') : Step settings parsers w (.putNext c) w' := by
  unfold putNext at h
  split at h
  · next hcall =>
    cases h
    exact .putNext hcall
  · cases h

theorem step_commitRow (h : commitRow w c = some w') :
    Step settings parsers w (.commitRow c) w' := by
  unfold commitRow at h
  split at h
  · next hcall =>
    simp only [Option.bind_eq_bind, Option.bind_eq_some_iff, Option.guard_eq_some', mayWrite_iff] at h
    obtain ⟨-, hlock, runs, hflush, h⟩ := h
    cases h
    exact .commitRow hcall hlock hflush
  · cases h

theorem step_reconcileRead {now : Instant} (h : reconcileRead w c now = some w') :
    Step settings parsers w (.reconcileRead c now) w' := by
  simp only [reconcileRead, Option.bind_eq_bind, Option.bind_eq_some_iff, Option.guard_eq_some',
    Option.isNone_iff_eq_none] at h
  obtain ⟨-, hcall, h⟩ := h
  cases h
  exact .reconcileRead hcall

theorem step_reconcileNext {observed : JobObservation}
    (h : reconcileNext settings w c observed = some w') :
    Step settings parsers w (.reconcileNext c observed) w' := by
  unfold reconcileNext at h
  split at h
  · next hcall =>
    obtain ⟨result, hresult, h⟩ := Option.bind_eq_some_iff.mp h
    cases h
    split
    · exact .reconcileDelete hcall hresult
    · exact .reconcileNext hcall hresult
  · cases h

theorem step_reconcileCommit (h : reconcileCommit w c = some w') :
    Step settings parsers w (.reconcileCommit c) w' := by
  unfold reconcileCommit at h
  split at h
  · next hcall =>
    split at h
    · next hzero =>
      cases h
      exact .reconcileNothing (hzero ▸ hcall)
    · simp only [Option.bind_eq_bind, Option.bind_eq_some_iff, Option.guard_eq_some',
        List.all_eq_true, mayWrite_iff] at h
      obtain ⟨-, hlock, runs, hflush, h⟩ := h
      cases h
      exact .reconcileCommit hcall hlock hflush
  · cases h

theorem step_admitCount (h : admitCount settings w c = some w') :
    Step settings parsers w (.admitCount c) w' := by
  simp only [admitCount, Option.bind_eq_bind, Option.bind_eq_some_iff, Option.guard_eq_some',
    Bool.and_eq_true, Option.isNone_iff_eq_none] at h
  obtain ⟨-, ⟨hcall, -⟩, -, -, h⟩ := h
  cases h
  exact .admitCount hcall

theorem step_admitSelect {now : Instant} (h : admitSelect w c now = some w') :
    Step settings parsers w (.admitSelect c now) w' := by
  unfold admitSelect at h
  split at h
  · next hcall =>
    dsimp only at h
    split at h
    · cases h
      exact .admitNone hcall
    · cases h
      exact .admitSelect hcall rfl
  · cases h

/-- One admitted row: the Job is created, or the row is passed over or failed without a Job. -/
theorem step_admitNext {outcome : JobOutcome} (h : admitNext w c outcome = some w') :
    Step settings parsers w (.admitNext c outcome) w' := by
  unfold admitNext at h
  split at h
  · next now id run todo done started hcall =>
    dsimp only at h
    cases hprofile : w.profiles.lookup run.profileId with
    | none =>
        rw [hprofile] at h
        cases h
        exact .admitPass hcall hprofile.symm (Or.inl rfl)
    | some profile =>
        rw [hprofile] at h
        by_cases hmade : outcome = .refused
        · subst hmade
          cases h
          exact .admitPass hcall hprofile.symm (Or.inr rfl)
        · rw [if_pos (by simp [hmade])] at h
          simp only [Option.bind_eq_bind, Option.bind_eq_some_iff, Option.guard_eq_some'] at h
          obtain ⟨-, hjob, h⟩ := h
          cases h
          exact .admitStart hcall hprofile hmade hjob
  · cases h

theorem step_admitCommit (h : admitCommit w c = some w') :
    Step settings parsers w (.admitCommit c) w' := by
  unfold admitCommit at h
  split at h
  · next hcall =>
    obtain ⟨runs, hflush, h⟩ := Option.bind_eq_some_iff.mp h
    cases h
    exact .admitCommit hcall hflush
  · cases h

theorem step_createRead {runId : Uuid} {request : CreateRunRequest} {triggeredBy : Option Text}
    {now : Instant} (h : createRead settings w c runId request triggeredBy now = some w') :
    Step settings parsers w (.createRead c runId request triggeredBy now) w' := by
  simp only [createRead, Option.bind_eq_bind, Option.bind_eq_some_iff, Option.guard_eq_some',
    Bool.and_eq_true, Option.isNone_iff_eq_none, Bool.not_eq_true', List.contains_eq_mem,
    decide_eq_false_iff_not] at h
  obtain ⟨-, ⟨hcall, hfresh⟩, profile, hprofile, h⟩ := h
  cases h
  exact .createRead hcall hfresh hprofile

theorem step_retryRead {runId parentId : Uuid} {request : Option RetryRunRequest} {now : Instant}
    (h : retryRead w c runId parentId request now = some w') :
    Step settings parsers w (.retryRead c runId parentId request now) w' := by
  simp only [retryRead, Option.bind_eq_bind, Option.bind_eq_some_iff, Option.guard_eq_some',
    Bool.and_eq_true, Option.isNone_iff_eq_none, Bool.not_eq_true', List.contains_eq_mem,
    decide_eq_false_iff_not, toOption_eq_some] at h
  obtain ⟨-, ⟨hcall, hfresh⟩, parent, hparent, _, hretriable, h⟩ := h
  cases h
  exact .retryRead hcall hfresh hparent hretriable

theorem step_retryLoad (h : retryLoad settings w c = some w') :
    Step settings parsers w (.retryLoad c) w' := by
  unfold retryLoad at h
  split at h
  · next hcall =>
    simp only [Option.bind_eq_bind, Option.bind_eq_some_iff, Option.guard_eq_some'] at h
    obtain ⟨-, -, profile, hprofile, h⟩ := h
    cases h
    exact .retryLoad hcall hprofile
  · cases h

theorem step_storeInput (h : storeInput w c = some w') :
    Step settings parsers w (.storeInput c) w' := by
  unfold storeInput at h
  split at h
  · next hcall =>
    cases h
    exact .storeInput hcall
  · cases h

/-- The Job of a new run is created at once only when the queue is off. -/
theorem step_startJob {outcome : JobOutcome} {now : Instant}
    (h : startJob settings w c outcome now = some w') :
    Step settings parsers w (.startJob c outcome now) w' := by
  unfold startJob at h
  split at h
  · next hcall =>
    split at h
    · cases h
      exact .startLater hcall
    · next hsync =>
      rw [Bool.or_eq_true, not_or, Bool.not_eq_true] at hsync
      split at h
      · next hrefused =>
        cases h
        exact hrefused ▸ .startRefused hcall
      · simp only [Option.bind_eq_bind, Option.bind_eq_some_iff, Option.guard_eq_some'] at h
        obtain ⟨-, hjob, h⟩ := h
        split at h
        · next hlost =>
          cases h
          exact hlost ▸ .startLost hcall hsync.1 hjob
        · cases h
          exact .startNow hcall hsync.1 hjob
  · cases h

theorem step_insertCommit (h : insertCommit w c = some w') :
    Step settings parsers w (.insertCommit c) w' := by
  unfold insertCommit at h
  split at h
  · next hcall =>
    simp only [Option.bind_eq_bind, Option.bind_eq_some_iff, Option.guard_eq_some',
      Option.isNone_iff_eq_none] at h
    obtain ⟨-, hrun, h⟩ := h
    cases h
    exact .insertCommit hcall hrun
  · cases h

theorem step_deleteRead {runId : Uuid} (h : deleteRead w c runId = some w') :
    Step settings parsers w (.deleteRead c runId) w' := by
  simp only [deleteRead, Option.bind_eq_bind, Option.bind_eq_some_iff, Option.guard_eq_some',
    Bool.and_eq_true, Option.isNone_iff_eq_none] at h
  obtain ⟨-, ⟨hcall, -⟩, h⟩ := h
  cases h
  exact .deleteRead hcall

theorem step_deleteObjects {kept : List Text} (h : deleteObjects w c kept = some w') :
    Step settings parsers w (.deleteObjects c kept) w' := by
  unfold deleteObjects at h
  split at h
  · next hcall =>
    cases h
    exact .deleteObjects hcall
  · cases h

theorem step_deleteCommit (h : deleteCommit w c = some w') :
    Step settings parsers w (.deleteCommit c) w' := by
  unfold deleteCommit at h
  split at h
  · next hcall =>
    simp only [Option.bind_eq_bind, Option.bind_eq_some_iff, Option.guard_eq_some', Bool.and_eq_true,
      Option.isNone_iff_eq_none] at h
    obtain ⟨-, ⟨-, hfree⟩, h⟩ := h
    cases h
    exact .deleteCommit hcall hfree
  · cases h

theorem step_crash (h : crash w c = some w') : Step settings parsers w (.crash c) w' := by
  simp only [crash, Option.bind_eq_bind, Option.bind_eq_some_iff, Option.guard_eq_some',
    Option.isSome_iff_exists] at h
  obtain ⟨-, ⟨call, hcall⟩, h⟩ := h
  cases h
  exact .crash hcall

/-- Every step is one of the rules. -/
theorem step_cases {a : Act} (h : step settings parsers w a = some w') :
    Step settings parsers w a w' := by
  cases a with
  | readRow c runId change now => exact step_readRow h
  | putNext c => exact step_putNext h
  | commitRow c => exact step_commitRow h
  | reconcileRead c now => exact step_reconcileRead h
  | reconcileNext c observed => exact step_reconcileNext h
  | reconcileCommit c => exact step_reconcileCommit h
  | admitCount c => exact step_admitCount h
  | admitSelect c now => exact step_admitSelect h
  | admitNext c outcome => exact step_admitNext h
  | admitCommit c => exact step_admitCommit h
  | createRead c runId request triggeredBy now => exact step_createRead h
  | retryRead c runId parentId request now => exact step_retryRead h
  | retryLoad c => exact step_retryLoad h
  | storeInput c => exact step_storeInput h
  | startJob c outcome now => exact step_startJob h
  | insertCommit c => exact step_insertCommit h
  | deleteRead c runId => exact step_deleteRead h
  | deleteObjects c kept => exact step_deleteObjects h
  | deleteCommit c => exact step_deleteCommit h
  | crash c => exact step_crash h
  | jobEnds name =>
      cases h
      exact .jobEnds
  | editProfiles profiles =>
      cases h
      exact .editProfiles

end PdeOperator.Lifecycle
