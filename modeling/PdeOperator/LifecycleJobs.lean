import PdeOperator.LifecycleRows

/-! Jobs and the rows that name them. A Job is created while its row is locked, and the name reaches
the row with the commit; between the two only the admitting session knows of it. -/

namespace PdeOperator.Lifecycle
open Base

variable {settings : Settings} {parsers : Parsers} {w w' : World} {id : Uuid}

def copiesIn (calls : Nat → Option Call) (c : Nat) : List (Uuid × Run) :=
  ((calls c).map Call.copies).getD []

theorem copiesIn_of_some {calls : Nat → Option Call} {c : Nat} {call : Call}
    (h : calls c = some call) : copiesIn calls c = call.copies := by
  rw [copiesIn, h]
  rfl

theorem mem_copiesIn {calls : Nat → Option Call} {c : Nat} {call : Call} {x : Uuid × Run}
    (h : calls c = some call) (hx : x ∈ call.copies) : x ∈ copiesIn calls c := by
  rw [copiesIn_of_some h]
  exact hx

theorem copiesIn_update {calls : Nat → Option Call} {c c' : Nat} {next : Option Call} :
    copiesIn (Function.update calls c next) c' =
      if c' = c then (next.map Call.copies).getD [] else copiesIn calls c' := by
  by_cases hc : c' = c
  · subst hc
    rw [copiesIn, Function.update_self, if_pos rfl]
  · rw [copiesIn, Function.update_of_ne hc, if_neg hc]
    rfl

/-- What a call has read after a step it has read before, or the row is in the table. -/
theorem copiesIn_step {a : Act} {c : Nat} {x : Uuid × Run}
    (hvalid : AllValid settings parsers w.calls) (h : step settings parsers w a = some w')
    (hx : x ∈ copiesIn w'.calls c) :
    x ∈ copiesIn w.calls c ∨ w.runs.lookup x.1 = some x.2 := by
  cases callStep_of_step hvalid h with
  | begins hact hnone hcalls hissued hnew hheld hread hnames hdelivers =>
      rw [hcalls, spawn_calls, copiesIn_update] at hx
      split at hx
      · exact Or.inr (hread x hx)
      · exact Or.inl hx
  | issues hact hnone hcalls hissued hfresh hnew hheld hread hwork hdelivers =>
      rw [hcalls, spawn_calls, copiesIn_update] at hx
      split at hx
      · rw [Option.map_some, Option.getD_some, hread] at hx
        exact absurd hx List.not_mem_nil
      · exact Or.inl hx
  | goesOn hact hcall hcalls hissued hnew hheld hread hwork hnames hdelivers =>
      rw [hcalls, spawn_calls, copiesIn_update] at hx
      split at hx
      · next hc =>
        rw [Option.map_some, Option.getD_some, hread] at hx
        rw [hc, copiesIn_of_some hcall]
        exact Or.inl hx
      · exact Or.inl hx
  | locks hact hcall hcalls hissued hnew hheld hread hwork hdelivers =>
      rw [hcalls, spawn_calls, copiesIn_update] at hx
      split at hx
      · exact Or.inr (hread x hx).1
      · exact Or.inl hx
  | ends hact hcall hcalls hissued hwritten =>
      rw [hcalls, finish_calls, copiesIn_update] at hx
      split at hx
      · exact absurd hx List.not_mem_nil
      · exact Or.inl hx
  | outside hact hcalls hissued => exact Or.inl (hcalls ▸ hx)

/-- A row that has been there before is not renamed: its Job name is kept once it is set. -/
theorem k8sJobName_step {a : Act} (hsound : Sound settings parsers w) (htaken : Taken w id)
    (h : step settings parsers w a = some w') {next : Run} (hnext : w'.runs.lookup id = some next) :
    ∃ current, w.runs.lookup id = some current ∧
      (next.k8sJobName = none → current.k8sJobName = none) := by
  have hwrite : ∀ {read work : Run},
      w'.runs.lookup id = (w.runs.lookup id).map (writeBack read work) →
      work.k8sJobName = read.k8sJobName → ∃ current, w.runs.lookup id = some current ∧
        (next.k8sJobName = none → current.k8sJobName = none) := by
    intro read work hrow hname
    rw [hnext] at hrow
    obtain ⟨current, hcurrent, rfl⟩ := Option.map_eq_some_iff.mp hrow.symm
    rw [Run.writeBack_k8sJobName, hname, column_clean]
    exact ⟨current, hcurrent, fun hnone => hnone⟩
  cases rowStep_of_step hsound h id with
  | same hrow => exact ⟨next, hrow ▸ hnext, fun hnone => hnone⟩
  | change hcall happly hfree hrow => exact hwrite hrow (RunChange.apply_k8sJobName happly)
  | reconcile hcall hmem htracked hresult hwork hdirty hfree hrow =>
      exact hwrite hrow (hwork ▸ (JobReconciler.reconcileRun_frame hresult).1)
  | start hcall hmem hqueued hwork hlock hold hrow =>
      exact ⟨_, hold, fun _ => (Run.isQueued_iff.mp hqueued).2⟩
  | insert hcall hvalid hold hrow => exact absurd (newIdIn_of_some hcall) (htaken.2 _)
  | erase hfree hrow =>
      rw [hrow] at hnext
      cases hnext

/-- What the calls have read is no newer than the rows: a copy with a Job name belongs to a row
with a Job name. -/
structure CopiesBehind (w : World) (id : Uuid) : Prop where
  taken : ∀ {c run}, (id, run) ∈ copiesIn w.calls c → Taken w id
  named : ∀ {c run current}, (id, run) ∈ copiesIn w.calls c → w.runs.lookup id = some current →
    current.k8sJobName = none → run.k8sJobName = none

theorem copiesBehind_step {a : Act} (hsound : Sound settings parsers w) (hinv : CopiesBehind w id)
    (h : step settings parsers w a = some w') : CopiesBehind w' id := by
  have htaken : ∀ {c run}, (id, run) ∈ copiesIn w'.calls c → Taken w id := by
    intro c run hx
    rcases copiesIn_step hsound.valid h hx with hold | hrow
    · exact hinv.taken hold
    · exact hsound.consistent.taken hrow
  refine ⟨fun hx => taken_step hsound.valid (htaken hx) h, fun {c run next} hx hnext hnone => ?_⟩
  obtain ⟨current, hcurrent, hname⟩ := k8sJobName_step hsound (htaken hx) h hnext
  rcases copiesIn_step hsound.valid h hx with hold | hrow
  · exact hinv.named hold hcurrent (hname hnone)
  · obtain rfl : current = run := Option.some.inj (hcurrent.symm.trans hrow)
    exact hname hnone

variable (settings) in
/-- How a step changes the Jobs. -/
inductive JobStep (w w' : World) : Act → Prop
  | same {a : Act} (hjobs : ∀ name ∈ w'.jobs, name ∈ w.jobs) (hcreated : w'.created = w.created) :
      JobStep w w' a
  | start {c : Nat} {now : Instant} {id : Uuid} {run : Run} {todo : List (Uuid × Run)}
      {done : List (Tracked Uuid Run)} {started started' : Nat} {profile : Profile}
      {outcome : JobOutcome}
      (hcall : w.calls c = some (.admitting now ((id, run) :: todo) done started))
      (hprofile : w.profiles.lookup run.profileId = some profile) (hmade : outcome ≠ .refused)
      (hw' : w' = (w.addJob (RunService.jobName id)).spawn c (.admitting now todo
        (done ++ [⟨id, run, QueueService.admitRun now id (some profile) outcome run⟩]) started')) :
      JobStep w w' (.admitNext c outcome)
  | create {c : Nat} {runId : Uuid} {run : Run} {outcome : JobOutcome} {now : Instant}
      (hcall : w.calls c = some (.creating runId run .job)) (hsync : settings.queueEnabled = false)
      (hjobs : w'.jobs = RunService.jobName runId :: w.jobs)
      (hcreated : w'.created = RunService.jobName runId :: w.created) :
      JobStep w w' (.startJob c outcome now)

theorem jobs_dropJob {name other : Text} (h : other ∈ (w.dropJob name).jobs) : other ∈ w.jobs :=
  List.mem_of_mem_filter h

theorem jobStep_of_step {a : Act} (h : step settings parsers w a = some w') :
    JobStep settings w w' a := by
  cases step_cases h with
  | admitStart hcall hprofile hmade => exact .start hcall hprofile hmade rfl
  | startLost hcall hsync => exact .create hcall hsync rfl rfl
  | startNow hcall hsync => exact .create hcall hsync rfl rfl
  | reconcileDelete | jobEnds => exact .same (fun _ hname => jobs_dropJob hname) rfl
  | _ => exact .same (fun _ hname => hname) rfl

variable (settings) in
/-- The step creates the Job of the run. -/
inductive CreatesJob (w w' : World) (id : Uuid) : Act → Prop
  | start {c : Nat} {now : Instant} {run : Run} {todo : List (Uuid × Run)}
      {done : List (Tracked Uuid Run)} {started started' : Nat} {profile : Profile}
      {outcome : JobOutcome}
      (hcall : w.calls c = some (.admitting now ((id, run) :: todo) done started))
      (hprofile : w.profiles.lookup run.profileId = some profile) (hmade : outcome ≠ .refused)
      (hw' : w' = (w.addJob (RunService.jobName id)).spawn c (.admitting now todo
        (done ++ [⟨id, run, QueueService.admitRun now id (some profile) outcome run⟩]) started')) :
      CreatesJob w w' id (.admitNext c outcome)
  | create {c : Nat} {run : Run} {outcome : JobOutcome} {now : Instant}
      (hcall : w.calls c = some (.creating id run .job)) (hsync : settings.queueEnabled = false) :
      CreatesJob w w' id (.startJob c outcome now)

/-- A Job that is there after a step was there before, or the step creates it. -/
theorem createsJob_of_step {a : Act} (h : step settings parsers w a = some w')
    (hcreated : RunService.jobName id ∈ w'.created) :
    RunService.jobName id ∈ w.created ∨ CreatesJob settings w w' id a := by
  cases jobStep_of_step h with
  | same hjobs hsame => exact Or.inl (hsame ▸ hcreated)
  | start hcall hprofile hmade hw' =>
      rw [hw'] at hcreated
      rcases List.mem_cons.mp hcreated with heq | hmem
      · obtain rfl := RunService.jobName_injective heq
        exact Or.inr (.start hcall hprofile hmade hw')
      · exact Or.inl hmem
  | create hcall hsync hjobs hsame =>
      rw [hsame] at hcreated
      rcases List.mem_cons.mp hcreated with heq | hmem
      · obtain rfl := RunService.jobName_injective heq
        exact Or.inr (.create hcall hsync)
      · exact Or.inl hmem

theorem heldIn_step {a : Act} {c : Nat} {run : Run} (hvalid : AllValid settings parsers w.calls)
    (h : step settings parsers w a = some w') (hx : (id, run) ∈ heldIn w'.calls c) :
    (id, run) ∈ heldIn w.calls c ∨ (w.runs.lookup id = some run ∧ run.isQueued = true) := by
  cases callStep_of_step hvalid h with
  | begins hact hnone hcalls hissued hnew hheld hread hnames hdelivers =>
      rw [hcalls, heldIn_spawn (hheld.trans (heldIn_of_none hnone).symm)] at hx
      exact Or.inl hx
  | issues hact hnone hcalls hissued hfresh hnew hheld hread hwork hdelivers =>
      rw [hcalls, heldIn_spawn (hheld.trans (heldIn_of_none hnone).symm)] at hx
      exact Or.inl hx
  | goesOn hact hcall hcalls hissued hnew hheld hread hwork hnames hdelivers =>
      rw [hcalls, heldIn_spawn (hheld.trans (heldIn_of_some hcall).symm)] at hx
      exact Or.inl hx
  | @locks c' free call hact hcall hcalls hissued hnew hheld hread hwork hdelivers =>
      rw [hcalls, heldIn, spawn_calls] at hx
      by_cases hc : c = c'
      · rw [hc, Function.update_self, Option.map_some, Option.getD_some, hheld] at hx
        exact Or.inr (hread (id, run) hx)
      · rw [Function.update_of_ne hc] at hx
        exact Or.inl hx
  | ends hact hcall hcalls hissued hwritten =>
      rw [hcalls] at hx
      exact Or.inl (ne_of_heldIn_finish hx).2
  | outside hact hcalls hissued => exact Or.inl (hcalls ▸ hx)

/-! ### Jobs that an admission has created and not yet committed -/

/-- The session has given the row a Job name that the table does not show yet. -/
def Names (t : Tracked Uuid Run) (id : Uuid) : Prop :=
  t.key = id ∧ t.read.k8sJobName = none ∧ t.work.k8sJobName.isSome = true

/-- An open session is going to write the Job name of the run. -/
def InHand (w : World) (id : Uuid) : Prop :=
  ∃ c call t, w.calls c = some call ∧ t ∈ call.tracked ∧ Names t id

/-- The step loses track of the run's Job: the session that has created it dies before its commit,
or the answer of the Kubernetes API to the creation is lost. -/
def LosesJob (id : Uuid) (w : World) : Act → Prop
  | .crash c => ∃ call t, w.calls c = some call ∧ t ∈ call.tracked ∧ Names t id
  | .admitNext c .lost => ∃ now run todo done started,
      w.calls c = some (.admitting now ((id, run) :: todo) done started) ∧
        (w.profiles.lookup run.profileId).isSome = true
  | _ => False

theorem Names.changed {t : Tracked Uuid Run} (h : Names t id) :
    t.work.k8sJobName ≠ t.read.k8sJobName := by
  obtain ⟨-, hread, hwork⟩ := h
  intro heq
  rw [heq, hread] at hwork
  cases hwork

/-- Only an admission names a Job, and the name is that of the run. -/
theorem Names.admitting {call : Call} {t : Tracked Uuid Run}
    (hvalid : call.Valid settings parsers) (ht : t ∈ call.tracked) (h : Names t id) :
    (∃ now todo done started, call = .admitting now todo done started ∧ t ∈ done) ∧
      t.work.k8sJobName = some (RunService.jobName id) := by
  cases call with
  | writing change now puts row =>
      obtain rfl := List.mem_singleton.mp ht
      exact absurd (RunChange.apply_k8sJobName hvalid) h.changed
  | reconciling now todo done updated =>
      obtain ⟨observed, result, hresult, heq⟩ := hvalid.2.2.1 t ht
      exact absurd (heq ▸ (JobReconciler.reconcileRun_frame hresult).1) h.changed
  | admitting now todo done started =>
      refine ⟨⟨now, todo, done, started, rfl, ht⟩, ?_⟩
      obtain ⟨profile, outcome, hwork⟩ := hvalid.2.2 t ht
      have hpass : ¬(profile = none ∨ outcome = .refused) := fun hpass =>
        h.changed (hwork ▸ QueueService.admitRun_k8sJobName hpass)
      rw [not_or] at hpass
      cases profile with
      | none => exact absurd rfl hpass.1
      | some profile =>
          cases outcome with
          | created => rw [hwork, ← h.1]; rfl
          | refused => exact absurd rfl hpass.2
          | lost => exact absurd (congrArg Run.k8sJobName hwork) h.changed
  | _ => exact absurd ht List.not_mem_nil

/-- Only a session that holds the row locked can name its Job. -/
theorem inHand_locked (hsound : Sound settings parsers w) (h : InHand w id) :
    ∃ c, w.locks id = some c := by
  obtain ⟨c, call, t, hcall, ht, hnames⟩ := h
  obtain ⟨⟨now, todo, done, started, rfl, hdone⟩, -⟩ := hnames.admitting (hsound.valid c _ hcall) ht
  exact ⟨c, hnames.1 ▸ (hsound.consistent.held_eq hcall (mem_readRows hdone)).2⟩

/-- A session that names a run's Job keeps it in hand until it has written the name. -/
theorem inHand_step {a : Act} (hsound : Sound settings parsers w) (hinv : InHand w id)
    (hok : ¬LosesJob id w a) (h : step settings parsers w a = some w') :
    InHand w' id ∨ ∀ next, w'.runs.lookup id = some next →
      next.k8sJobName = some (RunService.jobName id) := by
  obtain ⟨c₀, call₀, t, hcall₀, ht, hpending⟩ := hinv
  have hother : ∀ {c : Nat} {next : Option Call}, c₀ ≠ c →
      w'.calls = Function.update w.calls c next → InHand w' id := by
    intro c next hc hcalls
    refine ⟨c₀, call₀, t, ?_, ht, hpending⟩
    rw [hcalls, Function.update_of_ne hc, hcall₀]
  cases callStep_of_step hsound.valid h with
  | begins hact hnone hcalls hissued hnew hheld hread hnames hdelivers =>
      exact Or.inl (hother (fun hc => by rw [← hc, hcall₀] at hnone; cases hnone) hcalls)
  | issues hact hnone hcalls hissued hfresh hnew hheld hread hwork hdelivers =>
      exact Or.inl (hother (fun hc => by rw [← hc, hcall₀] at hnone; cases hnone) hcalls)
  | @goesOn c old call hact hcall hcalls hissued hnew hheld hread hwork hnames hdelivers =>
      by_cases hc : c₀ = c
      · subst hc
        obtain rfl := Option.some.inj (hcall₀.symm.trans hcall)
        refine Or.inl ⟨c₀, call, t, ?_, hwork t ht, hpending⟩
        rw [hcalls, spawn_calls, Function.update_self]
      · exact Or.inl (hother hc hcalls)
  | locks hact hcall hcalls hissued hnew hheld hread hwork hdelivers =>
      refine Or.inl (hother (fun hc => ?_) hcalls)
      rw [← hc, hcall₀, Option.some.injEq] at hcall
      subst hcall
      exact absurd ht List.not_mem_nil
  | @ends c old hact hcall hcalls hissued hwritten =>
      by_cases hc : c₀ = c
      · subst hc
        obtain rfl := Option.some.inj (hcall₀.symm.trans hcall)
        rcases hwritten with rfl | hwritten
        · exact absurd ⟨call₀, t, hcall₀, ht, hpending⟩ hok
        · right
          intro next hnext
          have hrow := hwritten t ht
          rw [hpending.1, hnext] at hrow
          obtain ⟨current, -, rfl⟩ := Option.map_eq_some_iff.mp hrow.symm
          rw [Run.writeBack_k8sJobName, column, if_neg hpending.changed]
          exact (hpending.admitting (hsound.valid c₀ _ hcall₀) ht).2
      · exact Or.inl (hother hc hcalls)
  | outside hact hcalls hissued =>
      exact Or.inl ⟨c₀, call₀, t, hcalls ▸ hcall₀, ht, hpending⟩

/-- A Job of a row that names none is in the hand of an open session. -/
def Traced (w : World) (id : Uuid) : Prop :=
  ∀ run, w.runs.lookup id = some run → run.k8sJobName = none →
    RunService.jobName id ∈ w.created → InHand w id

theorem traced_step {a : Act} (hsound : Sound settings parsers w) (htaken : Taken w id)
    (hinv : Traced w id) (hok : ¬LosesJob id w a) (h : step settings parsers w a = some w') :
    Traced w' id := by
  intro next hnext hnone hcreated
  obtain ⟨current, hcurrent, hname⟩ := k8sJobName_step hsound htaken h hnext
  have hold : RunService.jobName id ∈ w.created → InHand w' id := fun hmem =>
    (inHand_step hsound (hinv current hcurrent (hname hnone) hmem) hok h).resolve_right
      fun hset => by
        rw [hset next hnext] at hnone
        cases hnone
  rcases createsJob_of_step h hcreated with hmem | hcreates
  · exact hold hmem
  · cases hcreates with
    | @start c now run todo done started started' profile outcome hcall hprofile hmade hw' =>
        subst hw'
        cases outcome with
        | refused => exact absurd rfl hmade
        | lost =>
            refine absurd ⟨now, run, todo, done, started, hcall, ?_⟩ hok
            rw [hprofile]
            rfl
        | created =>
            refine ⟨c, .admitting now todo (done ++ [⟨id, run, RunService.startRunJobNow now id run⟩])
              started', ⟨id, run, RunService.startRunJobNow now id run⟩, ?_, ?_, rfl, ?_, rfl⟩
            · exact Function.update_self ..
            · exact List.mem_append_right _ List.mem_cons_self
            · have hqueued := (hsound.valid c _ hcall).1 (id, run)
                (List.mem_append_right _ List.mem_cons_self)
              exact (Run.isQueued_iff.mp hqueued).2
    | create hcall hsync => exact absurd (newIdIn_of_some hcall) (htaken.2 _)

/-- The list of the Jobs ever created only grows. -/
theorem created_step {a : Act} {name : Text} (h : step settings parsers w a = some w')
    (hname : name ∈ w.created) : name ∈ w'.created := by
  cases jobStep_of_step h with
  | same hjobs hcreated => exact hcreated ▸ hname
  | start hcall hprofile hmade hw' =>
      subst hw'
      exact List.mem_cons_of_mem _ hname
  | create hcall hsync hjobs hcreated =>
      rw [hcreated]
      exact List.mem_cons_of_mem _ hname

/-- A run whose Job name is set, or is about to be set, has had its Job created. -/
structure NamesCreated (w : World) (id : Uuid) : Prop where
  row : ∀ run, w.runs.lookup id = some run → run.k8sJobName ≠ none →
    RunService.jobName id ∈ w.created
  hand : InHand w id → RunService.jobName id ∈ w.created

theorem namesCreated_step {a : Act} (hsound : Sound settings parsers w) (htaken : Taken w id)
    (hinv : NamesCreated w id) (h : step settings parsers w a = some w') : NamesCreated w' id := by
  constructor
  · intro next hnext hname
    cases rowStep_of_step hsound h id with
    | same hrow => exact created_step h (hinv.row next (hrow ▸ hnext) hname)
    | change hcall happly hfree hrow =>
        rw [hnext] at hrow
        obtain ⟨current, hcurrent, rfl⟩ := Option.map_eq_some_iff.mp hrow.symm
        rw [Run.writeBack_k8sJobName, RunChange.apply_k8sJobName happly, column_clean] at hname
        exact created_step h (hinv.row current hcurrent hname)
    | reconcile hcall hmem htracked hresult hwork hdirty hfree hrow =>
        rw [hnext] at hrow
        obtain ⟨current, hcurrent, rfl⟩ := Option.map_eq_some_iff.mp hrow.symm
        rw [Run.writeBack_k8sJobName, hwork, (JobReconciler.reconcileRun_frame hresult).1,
          column_clean] at hname
        exact created_step h (hinv.row current hcurrent hname)
    | start hcall hmem hqueued hwork hlock hold hrow =>
        obtain rfl := Option.some.inj (hrow.symm.trans hnext)
        exact created_step h (hinv.hand ⟨_, _, _, hcall, hmem, rfl, (Run.isQueued_iff.mp hqueued).2,
          Option.isSome_iff_ne_none.mpr hname⟩)
    | insert hcall hvalid hold hrow => exact absurd (newIdIn_of_some hcall) (htaken.2 _)
    | erase hfree hrow =>
        rw [hrow] at hnext
        cases hnext
  · rintro ⟨c, call, t, hcall, ht, hpending⟩
    have hunnamed := hpending.changed
    have hold : w.calls c = some call → RunService.jobName id ∈ w'.created := fun hcall =>
      created_step h (hinv.hand ⟨c, call, t, hcall, ht, hpending⟩)
    have hspawn : ∀ {c' : Nat} {new : Call}, w'.calls = (w.spawn c' new).calls →
        (t ∈ new.tracked → RunService.jobName id ∈ w'.created) →
        RunService.jobName id ∈ w'.created := by
      intro c' new hcalls hnew
      rw [hcalls] at hcall
      rcases calls_spawn hcall with ⟨-, rfl⟩ | ⟨-, hcall⟩
      · exact hnew ht
      · exact hold hcall
    cases callStep_of_step hsound.valid h with
    | begins hact hnone hcalls hissued hnew hheld hread hnames hdelivers =>
        exact hspawn hcalls fun ht => absurd (hnames t ht) hunnamed
    | issues hact hnone hcalls hissued hfresh hnew hheld hread hwork hdelivers =>
        exact hspawn hcalls fun ht => absurd (hwork ▸ ht) List.not_mem_nil
    | goesOn hact hcall' hcalls hissued hnew hheld hread hwork hnames hdelivers =>
        apply hspawn hcalls
        intro ht
        rcases hnames t ht with ht | heq | hmem
        · exact created_step h (hinv.hand ⟨_, _, t, hcall', ht, hpending⟩)
        · exact absurd heq hunnamed
        · exact hpending.1 ▸ hmem
    | locks hact hcall' hcalls hissued hnew hheld hread hwork hdelivers =>
        exact hspawn hcalls fun ht => absurd (hwork ▸ ht) List.not_mem_nil
    | ends hact hcall' hcalls hissued hwritten =>
        rw [hcalls] at hcall
        exact hold (calls_finish hcall).2
    | outside hact hcalls hissued => exact hold (hcalls ▸ hcall)

/-- A Job that is lost has been created. -/
theorem created_of_losesJob {a : Act} (hnamed : NamesCreated w id) (hloses : LosesJob id w a)
    (h : step settings parsers w a = some w') : RunService.jobName id ∈ w'.created := by
  cases a with
  | crash c =>
      obtain ⟨call, t, hcall, ht, hpending⟩ := hloses
      exact created_step h (hnamed.hand ⟨c, call, t, hcall, ht, hpending⟩)
  | admitNext c outcome =>
      cases outcome with
      | lost =>
          obtain ⟨_, run, _, _, _, hcall, hprofile⟩ := hloses
          cases step_cases h with
          | admitStart hcall' =>
              cases hcall.symm.trans hcall'
              exact List.mem_cons_self
          | admitPass hcall' hnone hpass =>
              cases hcall.symm.trans hcall'
              rcases hpass with hmissing | hrefused
              · rw [← hnone, hmissing] at hprofile
                cases hprofile
              · cases hrefused
      | created => exact absurd hloses fun hfalse => hfalse
      | refused => exact absurd hloses fun hfalse => hfalse
  | _ => exact absurd hloses fun hfalse => hfalse

end PdeOperator.Lifecycle
