import PdeOperator.LifecycleJobs

/-! Cancelling a run in the queue. `cancel_run` reads the row without a lock and decides by the Job
name it has read; an admission that commits before the cancellation leaves a Job behind. -/

namespace PdeOperator.Lifecycle
open Base

variable {settings : Settings} {parsers : Parsers} {w w' : World} {id : Uuid}

def DeliversStatus (id : Uuid) (a : Act) : Prop :=
  ∃ c status now, a = .readRow c id (.deliverStatus status) now

/-- No status delivery to the run is in flight. -/
def Undelivered (w : World) (id : Uuid) : Prop :=
  ∀ c call, w.calls c = some call → call.delivers ≠ some id

theorem undelivered_step {a : Act} (hvalid : AllValid settings parsers w.calls)
    (hinv : Undelivered w id) (hok : ¬DeliversStatus id a)
    (h : step settings parsers w a = some w') : Undelivered w' id := by
  intro c call hcall hdelivering
  have hspawn : ∀ {c' : Nat} {new : Call}, w'.calls = (w.spawn c' new).calls →
      new.delivers ≠ some id → False := by
    intro c' new hcalls hnew
    rw [hcalls] at hcall
    rcases calls_spawn hcall with ⟨-, rfl⟩ | ⟨-, hcall⟩
    · exact hnew hdelivering
    · exact hinv c call hcall hdelivering
  cases callStep_of_step hvalid h with
  | begins hact hnone hcalls hissued hnew hheld hread hnames hdelivers =>
      refine hspawn hcalls fun hid => hok ?_
      obtain ⟨status, now, rfl⟩ := hdelivers id hid
      exact ⟨_, status, now, rfl⟩
  | issues hact hnone hcalls hissued hfresh hnew hheld hread hwork hdelivers =>
      exact hspawn hcalls fun hid => by rw [hdelivers] at hid; cases hid
  | goesOn hact hcall' hcalls hissued hnew hheld hread hwork hnames hdelivers =>
      exact hspawn hcalls fun hid => hinv _ _ hcall' (hdelivers ▸ hid)
  | locks hact hcall' hcalls hissued hnew hheld hread hwork hdelivers =>
      exact hspawn hcalls fun hid => by rw [hdelivers] at hid; cases hid
  | ends hact hcall' hcalls hissued hwritten =>
      rw [hcalls] at hcall
      exact hinv c call (calls_finish hcall).2 hdelivering
  | outside hact hcalls hissued => exact hinv c call (hcalls ▸ hcall) hdelivering

variable (settings parsers) in
/-- A run of the table whose status only the operator itself changes. -/
structure Watched (w : World) (id : Uuid) : Prop where
  sound : Sound settings parsers w
  taken : Taken w id
  behind : CopiesBehind w id
  named : NamesCreated w id
  undelivered : Undelivered w id

theorem watched_step {a : Act} (hinv : Watched settings parsers w id) (hok : ¬DeliversStatus id a)
    (h : step settings parsers w a = some w') : Watched settings parsers w' id where
  sound := sound_step hinv.sound h
  taken := taken_step hinv.sound.valid hinv.taken h
  behind := copiesBehind_step hinv.sound hinv.behind h
  named := namesCreated_step hinv.sound hinv.taken hinv.named h
  undelivered := undelivered_step hinv.sound.valid hinv.undelivered hok h

theorem Idle.copiesBehind (hidle : Idle w) : CopiesBehind w id := by
  have hnone : ∀ {c run}, (id, run) ∉ copiesIn w.calls c := by
    intro c run hx
    rw [copiesIn, hidle.quiet c] at hx
    exact List.not_mem_nil hx
  exact ⟨fun hx => absurd hx hnone, fun hx => absurd hx hnone⟩

/-- A waiting run, with no call in flight and without a Job. -/
theorem Idle.watched (hidle : Idle w) {run : Run} (hrow : w.runs.lookup id = some run)
    (hname : run.k8sJobName = none) : Watched settings parsers w id where
  sound := hidle.sound
  taken := ⟨hidle.issued id (by rw [hrow]; rfl), fun c hnew => by
    rw [newIdIn_of_none (hidle.quiet c)] at hnew
    cases hnew⟩
  behind := hidle.copiesBehind
  named :=
    { row := fun current hcurrent hset => by
        rw [hrow, Option.some.injEq] at hcurrent
        exact absurd (hcurrent ▸ hname) hset
      hand := fun ⟨c, call, t, hcall, _⟩ => by
        rw [hidle.quiet c] at hcall
        cases hcall }
  undelivered c call hcall := by
    rw [hidle.quiet c] at hcall
    cases hcall

variable (settings parsers) in
/-- A run that has been cancelled in the queue: nothing can start it any more. -/
structure Shelved (w : World) (id : Uuid) : Prop where
  watched : Watched settings parsers w id
  row : ∀ run, w.runs.lookup id = some run → run.status ≠ .queued ∧ run.k8sJobName = none
  unheld : ∀ c run, (id, run) ∉ heldIn w.calls c
  uncreated : RunService.jobName id ∉ w.created

theorem not_isQueued_of_status {run : Run} (h : run.status ≠ .queued) : run.isQueued = false := by
  simp [Run.isQueued, h]

/-- Nothing but a status delivery puts a run back into the queue. -/
theorem status_change {c : Nat} {change : RunChange} {now : Instant} {read work current : Run}
    (hundelivered : Undelivered w id)
    (hcall : w.calls c = some (.writing change now [] ⟨id, read, work⟩))
    (happly : change.apply parsers now id read = .ok work) (hcurrent : current.status ≠ .queued) :
    (writeBack read work current).status ≠ .queued := by
  have hsame : work.status = read.status → (writeBack read work current).status ≠ .queued := by
    intro heq
    rwa [Run.writeBack_status, heq, column_clean]
  cases change with
  | cancelRun =>
      obtain ⟨-, ⟨-, rfl⟩ | ⟨-, rfl⟩⟩ := RunService.cancelRun_ok happly
      · rw [Run.writeBack_status]
        rcases column_eq_or read.status RunStatus.cancelled current.status with heq | heq
        · rwa [heq]
        · rw [heq]
          decide
      · exact hsame rfl
  | deliverStatus status => exact absurd rfl (hundelivered c _ hcall)
  | deliverReport data =>
      cases happly
      exact hsame (RunService.deliverReport_same data).status
  | deliverLog =>
      cases happly
      exact hsame rfl
  | uploadArtifacts uploads =>
      cases happly
      exact hsame (RunService.uploadArtifacts_same id uploads).status

theorem shelved_row_step {a : Act} (hinv : Shelved settings parsers w id)
    (h : step settings parsers w a = some w') {run : Run} (hrun : w'.runs.lookup id = some run) :
    run.status ≠ .queued ∧ run.k8sJobName = none := by
  have hsound := hinv.watched.sound
  cases rowStep_of_step hsound h id with
  | same hrow => exact hinv.row run (hrow ▸ hrun)
  | change hcall happly hfree hrow =>
      rw [hrun] at hrow
      obtain ⟨current, hcurrent, rfl⟩ := Option.map_eq_some_iff.mp hrow.symm
      obtain ⟨hstatus, hname⟩ := hinv.row current hcurrent
      refine ⟨status_change hinv.watched.undelivered hcall happly hstatus, ?_⟩
      rw [Run.writeBack_k8sJobName, RunChange.apply_k8sJobName happly, column_clean, hname]
  | reconcile hcall hmem htracked hresult hwork hdirty hfree hrow =>
      rw [hrun] at hrow
      obtain ⟨current, hcurrent, rfl⟩ := Option.map_eq_some_iff.mp hrow.symm
      have hcopy := hinv.watched.behind.named (mem_copiesIn hcall (mem_readRows hmem)) hcurrent
        (hinv.row current hcurrent).2
      have hnamed := (Run.isTracked_iff.mp htracked).1
      rw [hcopy] at hnamed
      cases hnamed
  | @start c now done started read work profile outcome hcall hmem hqueued hwork hlock hold hrow =>
      refine absurd ?_ (hinv.unheld c read)
      rw [heldIn_of_some hcall]
      exact mem_readRows hmem
  | insert hcall hvalid hold hrow =>
      exact absurd (newIdIn_of_some hcall) (hinv.watched.taken.2 _)
  | erase hfree hrow =>
      rw [hrow] at hrun
      cases hrun

theorem shelved_step {a : Act} (hinv : Shelved settings parsers w id) (hok : ¬DeliversStatus id a)
    (h : step settings parsers w a = some w') : Shelved settings parsers w' id where
  watched := watched_step hinv.watched hok h
  row run hrun := shelved_row_step hinv h hrun
  unheld c run hheld := by
    rcases heldIn_step hinv.watched.sound.valid h hheld with hold | ⟨hrow, hqueued⟩
    · exact hinv.unheld c run hold
    · rw [not_isQueued_of_status (hinv.row run hrow).1] at hqueued
      cases hqueued
  uncreated hcreated := by
    rcases createsJob_of_step h hcreated with hmem | hcreates
    · exact hinv.uncreated hmem
    · cases hcreates with
      | @start c now run todo done started started' profile outcome hcall hprofile hmade hw' =>
          refine hinv.unheld c run ?_
          rw [heldIn_of_some hcall]
          exact List.mem_append_right _ List.mem_cons_self
      | create hcall hsync => exact hinv.watched.taken.2 _ (newIdIn_of_some hcall)

/-! ### The commit of the cancellation -/

/-- The commit of the in-queue branch shelves a run that has no Job name and no unnamed Job. -/
theorem shelved_of_cancel {c : Nat} {now : Instant} {read work : Run}
    (hinv : Watched settings parsers w id) (htraced : Traced w id)
    (hcall : w.calls c = some (.writing .cancelRun now [] ⟨id, read, work⟩))
    (hbranch : truthy read.k8sJobName = false)
    (hname : ∀ current, w.runs.lookup id = some current → current.k8sJobName = none)
    (h : step settings parsers w (.commitRow c) = some w') : Shelved settings parsers w' id := by
  cases step_cases h with
  | @commitRow _ _ _ row runs hcall' hlock hflush =>
      cases hcall.symm.trans hcall'
      have happly : RunService.cancelRun now read = .ok work := hinv.sound.valid c _ hcall
      obtain ⟨hactive, ⟨-, hwork⟩ | ⟨htruthy, -⟩⟩ := RunService.cancelRun_ok happly
      swap
      · rw [hbranch] at htruthy
        cases htruthy
      have hcancelled : work.status = .cancelled := by rw [hwork]
      have hread : work.status ≠ read.status := fun heq => by
        rw [Run.isTerminal, ← heq, hcancelled] at hactive
        exact absurd hactive (by decide)
      have hdirty : work ≠ read := fun heq => hread (congrArg Run.status heq)
      have hfree : w.locks id = none := hlock.resolve_left hdirty
      obtain ⟨current, hcurrent⟩ : ∃ current, w.runs.lookup id = some current := by
        rw [Table.flush, if_neg hdirty] at hflush
        obtain ⟨current, hcurrent, -⟩ := Option.map_eq_some_iff.mp hflush
        exact ⟨current, hcurrent⟩
      have hother : ¬DeliversStatus id (.commitRow c) := by
        rintro ⟨_, _, _, heq⟩
        cases heq
      refine ⟨watched_step hinv hother h, fun run hrun => ?_,
        fun c' run hheld => ?_, fun hcreated => ?_⟩
      · have hrow : runs.lookup id = (w.runs.lookup id).map (writeBack read work) :=
          Table.lookup_flush_self hflush
        rw [finish_runs, hrow, hcurrent, Option.map_some, Option.some.injEq] at hrun
        subst hrun
        constructor
        · rw [Run.writeBack_status, column, if_neg hread, hcancelled]
          decide
        · rw [Run.writeBack_k8sJobName, hwork, column_clean, hname current hcurrent]
      · have hlocked := (hinv.sound.consistent.held_row (ne_of_heldIn_finish hheld).2).2
        rw [hfree] at hlocked
        cases hlocked
      · obtain ⟨c', hlocked⟩ := inHand_locked hinv.sound
          (htraced current hcurrent (hname current hcurrent) hcreated)
        rw [hfree] at hlocked
        cases hlocked

/-- A run that is cancelled in the queue has no Job, then or later, exactly when its row still has no
Job name at the commit and no admission has lost a Job of it before. -/
theorem no_job_iff_unnamed_at_cancel {before after : List Act} {u v : World} {c : Nat} {now : Instant}
    {run read work : Run} (hidle : Idle w) (hrow : w.runs.lookup id = some run)
    (hname : run.k8sJobName = none) (hfresh : RunService.jobName id ∉ w.created)
    (hacts : ∀ a ∈ before ++ after, ¬DeliversStatus id a)
    (hbefore : (system settings parsers).exec w before = some u)
    (hcall : u.calls c = some (.writing .cancelRun now [] ⟨id, read, work⟩))
    (hbranch : truthy read.k8sJobName = false)
    (hafter : (system settings parsers).exec u (.commitRow c :: after) = some v) :
    RunService.jobName id ∉ v.created ↔
      (∀ current, u.runs.lookup id = some current → current.k8sJobName = none) ∧
        (system settings parsers).Meets (fun w a => ¬LosesJob id w a) w before := by
  obtain ⟨mid, hcommit, hrest⟩ := (System.exec_cons_eq_some _).mp hafter
  have hstart : Watched settings parsers w id := hidle.watched hrow hname
  have hokBefore : (system settings parsers).Meets (fun _ a => ¬DeliversStatus id a) w before :=
    System.meets_of_forall (p := fun a => ¬DeliversStatus id a) w
      fun a ha => hacts a (List.mem_append_left _ ha)
  have hokAfter : (system settings parsers).Meets (fun _ a => ¬DeliversStatus id a) mid after :=
    System.meets_of_forall (p := fun a => ¬DeliversStatus id a) mid
      fun a ha => hacts a (List.mem_append_right _ ha)
  have hwatched : Watched settings parsers u id :=
    System.exec_invariant (I := fun w => Watched settings parsers w id)
      (fun hi hok hs => watched_step hi hok hs) hstart hokBefore hbefore
  constructor
  · intro hnever
    have hgrows : ∀ {s t : World} {acts : List Act},
        (system settings parsers).exec s acts = some t → RunService.jobName id ∈ s.created →
          RunService.jobName id ∈ t.created := fun hexec hmem =>
      System.exec_invariant_of_forall (I := fun w => RunService.jobName id ∈ w.created)
        (fun hi hs => created_step hs hi) hmem hexec
    refine ⟨fun current hcurrent => ?_, ?_⟩
    · by_contra hset
      exact hnever (hgrows hafter (hwatched.named.row current hcurrent hset))
    · by_contra hmeets
      obtain ⟨first, a, rest, s, t, rfl, hfirst, hstep, hloses⟩ :=
        System.exists_of_not_meets hbefore hmeets
      have hsWatched : Watched settings parsers s id := System.exec_invariant
        (I := fun w => Watched settings parsers w id) (fun hi hok hs => watched_step hi hok hs) hstart
        hokBefore.append_left hfirst
      have hlost : RunService.jobName id ∈ t.created :=
        created_of_losesJob hsWatched.named (not_not.mp hloses) hstep
      have hthrough : (system settings parsers).exec t (rest ++ .commitRow c :: after) = some v := by
        obtain ⟨s', hs', hs'rest⟩ := (System.exec_append_eq_some _).mp hbefore
        obtain rfl := Option.some.inj (hfirst.symm.trans hs')
        obtain ⟨t', ht', ht'rest⟩ := (System.exec_cons_eq_some _).mp hs'rest
        obtain rfl := Option.some.inj (hstep.symm.trans ht')
        exact (System.exec_append_eq_some _).mpr ⟨u, ht'rest, hafter⟩
      exact hnever (hgrows hthrough hlost)
  · rintro ⟨hunnamed, hmeets⟩
    have htraced : Traced u id := by
      refine (System.exec_invariant
        (I := fun w => Watched settings parsers w id ∧ Traced w id)
        (fun hi hok hs => ⟨watched_step hi.1 hok.1 hs,
          traced_step hi.1.sound hi.1.taken hi.2 hok.2 hs⟩)
        ⟨hstart, fun current _ _ hcreated => absurd hcreated hfresh⟩
        (hokBefore.and hmeets) hbefore).2
    have hshelved := shelved_of_cancel hwatched htraced hcall hbranch hunnamed hcommit
    exact (System.exec_invariant (I := fun w => Shelved settings parsers w id)
      (fun hi hok hs => shelved_step hi hok hs) hshelved hokAfter hrest).uncreated

/-- Labels of `cancel_run` and `admit_once`. -/
def Act.isCancelOrAdmit : Act → Bool
  | .readRow _ _ .cancelRun _ | .commitRow _ | .admitCount _ | .admitSelect .. | .admitNext ..
  | .admitCommit _ => true
  | _ => false

def waitingRun : Run :=
  RunService.createRun {} 1 sampleRequest
    { pdeImage := "pde:1".toList, envVars := [], resources := [], createdAt := 0, updatedAt := 0 }
    none 0

/-- One run waits in the queue. -/
def waitingWorld : World := { sampleWorld with runs := AList.singleton 1 waitingRun, issued := [1] }

theorem waitingWorld_idle : Idle waitingWorld where
  quiet _ := rfl
  unlocked _ := rfl
  issued id h := by
    obtain ⟨run, hrun⟩ := Option.isSome_iff_exists.mp h
    have hmem : id ∈ waitingWorld.runs := AList.lookup_isSome.mp (by rw [hrun]; rfl)
    rw [waitingWorld, AList.mem_keys] at hmem
    exact hmem

def cancelledRun : Run :=
  { waitingRun with cancelRequestedAt := some 1, status := .cancelled, finishedAt := some 1 }

/-- An admission that comes between the read and the commit of a cancellation leaves a Job to the
cancelled run. -/
theorem admission_overtakes_cancel :
    ¬∀ (settings : Settings) (parsers : Parsers) (w u v : World) (before after : List Act)
        (id : Uuid) (c : Nat) (now : Instant) (run read work : Run), Idle w →
      w.runs.lookup id = some run → run.k8sJobName = none → RunService.jobName id ∉ w.created →
      (∀ a ∈ before ++ after, a.isCancelOrAdmit = true) →
      (system settings parsers).exec w before = some u →
      u.calls c = some (.writing .cancelRun now [] ⟨id, read, work⟩) →
      truthy read.k8sJobName = false →
      (system settings parsers).exec u (.commitRow c :: after) = some v →
      RunService.jobName id ∉ v.created := by
  intro h
  have hcall : ((system {} sampleParsers).exec waitingWorld
      (.readRow 1 1 .cancelRun 1 :: admitAlone 2 1)).bind (fun u => u.calls 1) =
        some (.writing .cancelRun 1 [] ⟨1, waitingRun, cancelledRun⟩) := by
    rfl
  have hjob : ((system {} sampleParsers).exec waitingWorld
      (.readRow 1 1 .cancelRun 1 :: admitAlone 2 1 ++ [.commitRow 1])).map
        (fun v => decide (RunService.jobName 1 ∈ v.created)) = some true := by
    decide
  obtain ⟨u, hbefore, hcall⟩ := Option.bind_eq_some_iff.mp hcall
  obtain ⟨v, hall, hcreated⟩ := Option.map_eq_some_iff.mp hjob
  obtain ⟨u', hbefore', hafter⟩ := (System.exec_append_eq_some _).mp hall
  obtain rfl := Option.some.inj (hbefore.symm.trans hbefore')
  exact h {} sampleParsers waitingWorld u v _ [] 1 1 1 waitingRun waitingRun cancelledRun
    waitingWorld_idle rfl rfl List.not_mem_nil (by decide) hbefore hcall rfl hafter
    (of_decide_eq_true hcreated)

/-- The equivalence for a cancellation that nothing overtakes. -/
theorem no_job_iff_unnamed_at_cancel_waitingRun :
    ∃ u v, (system {} sampleParsers).exec waitingWorld [.readRow 1 1 .cancelRun 1] = some u ∧
      (system {} sampleParsers).exec u [.commitRow 1, .admitCount 2, .admitSelect 2 2] = some v ∧
      (RunService.jobName 1 ∉ v.created ↔
        (∀ current, u.runs.lookup 1 = some current → current.k8sJobName = none) ∧
          (system {} sampleParsers).Meets (fun w a => ¬LosesJob 1 w a) waitingWorld
            [.readRow 1 1 .cancelRun 1]) := by
  have hcall : ((system {} sampleParsers).exec waitingWorld [.readRow 1 1 .cancelRun 1]).bind
      (fun u => u.calls 1) = some (.writing .cancelRun 1 [] ⟨1, waitingRun, cancelledRun⟩) := by
    rfl
  have hall : ((system {} sampleParsers).exec waitingWorld ([.readRow 1 1 .cancelRun 1] ++
      [.commitRow 1, .admitCount 2, .admitSelect 2 2])).isSome = true := by
    decide
  obtain ⟨u, hbefore, hcall⟩ := Option.bind_eq_some_iff.mp hcall
  obtain ⟨v, hall⟩ := Option.isSome_iff_exists.mp hall
  obtain ⟨u', hbefore', hafter⟩ := (System.exec_append_eq_some _).mp hall
  obtain rfl := Option.some.inj (hbefore.symm.trans hbefore')
  refine ⟨u, v, hbefore, hafter, no_job_iff_unnamed_at_cancel waitingWorld_idle rfl rfl
    List.not_mem_nil ?_ hbefore hcall rfl hafter⟩
  rintro a ha ⟨c, status, now, rfl⟩
  simp at ha

end PdeOperator.Lifecycle
