import PdeOperator.LifecycleJobs

/-! Each run is started once. While an admission holds a row locked nobody else can start its Job;
after the commit the row carries the Job name, and no operation clears it again. A Job whose creation is
not answered, or whose admission ends without its commit, is on no row and may be created again. -/

namespace PdeOperator.Lifecycle
open Base

variable {settings : Settings} {parsers : Parsers} {w w' : World} {id : Uuid}

variable (settings) in
/-- The run whose Job the step creates, whether the answer arrives or not. -/
def createdBy (w : World) : Act → Option Uuid
  | .admitNext c outcome =>
      match w.calls c with
      | some (.admitting _ ((id, run) :: _) _ _) =>
          if (w.profiles.lookup run.profileId).isSome && outcome != .refused then some id else none
      | _ => none
  | .startJob c outcome _ =>
      match w.calls c with
      | some (.creating runId _ .job) =>
          if settings.queueEnabled || !settings.k8sJobCreationEnabled || outcome == .refused then none
          else some runId
      | _ => none
  | _ => none

/-- With the queue on only an admission creates Jobs, and the answer arrives unless the Job is lost. -/
theorem createdBy_eq_some {a : Act} (hqueue : settings.queueEnabled = true)
    (hok : ∀ id, ¬LosesJob id w a) (h : createdBy settings w a = some id) :
    ∃ c now run todo done started profile, a = .admitNext c .created ∧
      w.calls c = some (.admitting now ((id, run) :: todo) done started) ∧
      w.profiles.lookup run.profileId = some profile := by
  unfold createdBy at h
  split at h
  · next c outcome =>
    split at h
    · next now id' run todo done started hcall =>
      split at h
      · next hmade =>
        obtain rfl := Option.some.inj h
        rw [Bool.and_eq_true] at hmade
        obtain ⟨profile, hprofile⟩ := Option.isSome_iff_exists.mp hmade.1
        cases outcome with
        | created => exact ⟨c, now, run, todo, done, started, profile, rfl, hcall, hprofile⟩
        | refused => cases hmade.2
        | lost => exact absurd ⟨now, run, todo, done, started, hcall, hmade.1⟩ (hok _)
      · cases h
    · cases h
  · split at h
    · rw [hqueue, Bool.true_or, Bool.true_or, if_pos rfl] at h
      cases h
    · cases h
  · cases h

/-- The row of the run carries its Job name as long as it exists. -/
def Named (w : World) (id : Uuid) : Prop :=
  ∀ run, w.runs.lookup id = some run → run.k8sJobName = some (RunService.jobName id)

/-- No operation clears a Job name or replaces it by another one. -/
theorem named_step {a : Act} (hsound : Sound settings parsers w) (htaken : Taken w id)
    (hinv : Named w id) (h : step settings parsers w a = some w') : Named w' id := by
  have hwrite : ∀ {read work : Run},
      w'.runs.lookup id = (w.runs.lookup id).map (writeBack read work) →
      work.k8sJobName = read.k8sJobName → Named w' id := by
    intro read work hrow hname next hnext
    rw [hnext] at hrow
    obtain ⟨current, hcurrent, rfl⟩ := Option.map_eq_some_iff.mp hrow.symm
    rw [Run.writeBack_k8sJobName, hname, column_clean]
    exact hinv current hcurrent
  cases rowStep_of_step hsound h id with
  | same hrow => exact fun next hnext => hinv next (hrow ▸ hnext)
  | change hcall happly hfree hrow => exact hwrite hrow (RunChange.apply_k8sJobName happly)
  | reconcile hcall hmem htracked hresult hwork hdirty hfree hrow =>
      exact hwrite hrow (hwork ▸ (JobReconciler.reconcileRun_frame hresult).1)
  | start hcall hmem hqueued hwork hlock hold hrow =>
      have hname := hinv _ hold
      rw [(Run.isQueued_iff.mp hqueued).2] at hname
      cases hname
  | insert hcall hvalid hold hrow => exact absurd (newIdIn_of_some hcall) (htaken.2 _)
  | erase hfree hrow =>
      intro next hnext
      rw [hrow] at hnext
      cases hnext

/-- The Job of the run has been started: an open admission is going to write its name, or the row
carries it. -/
structure Started (w : World) (id : Uuid) : Prop where
  taken : Taken w id
  kept : InHand w id ∨ Named w id

/-- A row that an admission has still to look at belongs to no started run. -/
theorem Started.notMem_todo {c : Nat} {now : Instant} {run : Run} {todo : List (Uuid × Run)}
    {done : List (Tracked Uuid Run)} {started : Nat} (hsound : Sound settings parsers w)
    (hcall : w.calls c = some (.admitting now ((id, run) :: todo) done started)) :
    ¬Started w id := by
  rintro ⟨-, hhand | hnamed⟩
  · obtain ⟨c', call, t, hcall', ht, hnames⟩ := hhand
    obtain ⟨⟨now', todo', done', started', rfl, hdone⟩, -⟩ :=
      hnames.admitting (hsound.valid c' _ hcall') ht
    have hlock := (hsound.consistent.held_eq hcall
      (List.mem_append_right _ List.mem_cons_self)).2
    have hlock' := (hsound.consistent.held_eq hcall' (mem_readRows hdone)).2
    rw [hnames.1] at hlock'
    obtain rfl : c = c' := Option.some.inj (hlock.symm.trans hlock')
    cases hcall.symm.trans hcall'
    have hnodup := (hsound.valid c _ hcall).2.1
    rw [readRows, List.map_append, List.nodup_append] at hnodup
    refine hnodup.2.2 id ?_ id List.mem_cons_self rfl
    rw [List.map_map]
    exact List.mem_map.mpr ⟨t, hdone, hnames.1⟩
  · have hmem : (id, run) ∈ (Call.admitting now ((id, run) :: todo) done started).held :=
      List.mem_append_right _ List.mem_cons_self
    have hrow := (hsound.consistent.held_eq hcall hmem).1
    have hqueued := (hsound.valid c _ hcall).1 (id, run) hmem
    have hname := hnamed run hrow
    rw [(Run.isQueued_iff.mp hqueued).2] at hname
    cases hname

theorem started_step {a : Act} (hsound : Sound settings parsers w) (hinv : Started w id)
    (hok : ¬LosesJob id w a) (h : step settings parsers w a = some w') : Started w' id := by
  refine ⟨taken_step hsound.valid hinv.taken h, ?_⟩
  rcases hinv.kept with hhand | hnamed
  · exact inHand_step hsound hhand hok h
  · exact Or.inr (named_step hsound hinv.taken hnamed h)

/-- The open admission `c` is going to write the Job name of the run. -/
def Starting (w : World) (c : Nat) (id : Uuid) : Prop :=
  ∃ now todo done started t,
    w.calls c = some (.admitting now todo done started) ∧ t ∈ done ∧ Names t id

theorem Starting.inHand {c : Nat} (h : Starting w c id) : InHand w id := by
  obtain ⟨now, todo, done, started, t, hcall, hdone, hnames⟩ := h
  exact ⟨c, _, t, hcall, hdone, hnames⟩

/-- The session that starts a Job has the row in hand, with the name of the Job. -/
theorem starting_of_createdBy {c : Nat} {now : Instant} {run : Run} {todo : List (Uuid × Run)}
    {done : List (Tracked Uuid Run)} {started : Nat} {profile : Profile}
    (hsound : Sound settings parsers w)
    (hcall : w.calls c = some (.admitting now ((id, run) :: todo) done started))
    (hprofile : w.profiles.lookup run.profileId = some profile)
    (h : step settings parsers w (.admitNext c .created) = some w') :
    Starting w' c id ∧ Started w' id := by
  have hmem : (id, run) ∈ (Call.admitting now ((id, run) :: todo) done started).held :=
    List.mem_append_right _ List.mem_cons_self
  have hrow := (hsound.consistent.held_eq hcall hmem).1
  have hqueued := (hsound.valid c _ hcall).1 (id, run) hmem
  have hstarting : Starting w' c id := by
    cases step_cases h with
    | admitStart hcall' hprofile' =>
        cases hcall.symm.trans hcall'
        refine ⟨now, todo, _, _, ⟨id, run, RunService.startRunJobNow now id run⟩,
          Function.update_self .., ?_, rfl, (Run.isQueued_iff.mp hqueued).2, rfl⟩
        exact List.mem_append_right _ List.mem_cons_self
    | admitPass hcall' hprofile' hpass =>
        cases hcall.symm.trans hcall'
        rw [hprofile', hprofile] at hpass
        rcases hpass with hnone | hrefused
        · cases hnone
        · cases hrefused
  exact ⟨hstarting, taken_step hsound.valid (hsound.consistent.taken hrow) h, Or.inl hstarting.inHand⟩

/-- An admission goes on until its commit. -/
theorem starting_step {a : Act} {c : Nat} (hvalid : AllValid settings parsers w.calls)
    (hinv : Starting w c id) (hok : ¬LosesJob id w a) (hopen : a ≠ .admitCommit c)
    (h : step settings parsers w a = some w') : Starting w' c id := by
  obtain ⟨now, todo, done, started, t, hadmits, hdone, hnames⟩ := hinv
  by_cases hc : a.call = some c
  · cases step_cases h with
    | readRow hcall | putNext hcall | commitRow hcall | reconcileRead hcall | reconcileNext hcall
    | reconcileDelete hcall | reconcileNothing hcall | reconcileCommit hcall | admitCount hcall
    | admitNone hcall | admitSelect hcall | createRead hcall | retryRead hcall | retryLoad hcall
    | storeInput hcall | startLater hcall | startRefused hcall | startLost hcall | startNow hcall
    | insertCommit hcall | deleteRead hcall | deleteObjects hcall | deleteCommit hcall =>
        cases hc
        cases hcall.symm.trans hadmits
    | admitStart hcall | admitPass hcall =>
        cases hc
        cases hcall.symm.trans hadmits
        exact ⟨now, _, _, _, t, Function.update_self .., List.mem_append_left _ hdone, hnames⟩
    | admitCommit hcall =>
        cases hc
        exact absurd rfl hopen
    | crash hcall =>
        cases hc
        exact absurd ⟨_, t, hadmits, hdone, hnames⟩ hok
    | jobEnds | editProfiles => cases hc
  · exact ⟨now, todo, done, started, t, (calls_step hvalid h hc).trans hadmits, hdone, hnames⟩

/-- The commit of an admission puts the Job name on the row. -/
theorem named_of_admitCommit {c : Nat} (hsound : Sound settings parsers w)
    (hinv : Starting w c id) (h : step settings parsers w (.admitCommit c) = some w') :
    ∃ run, w'.runs.lookup id = some run ∧ run.k8sJobName = some (RunService.jobName id) := by
  obtain ⟨now, todo, done, started, t, hadmits, hdone, hnames⟩ := hinv
  have hvalid := hsound.valid c _ hadmits
  have hname := (hnames.admitting hvalid hdone).2
  cases step_cases h with
  | admitCommit hcall hflush =>
      cases hcall.symm.trans hadmits
      have hold := (hsound.consistent.held_eq hadmits (mem_readRows hdone)).1
      have hrow := Table.lookup_flushAll_of_mem hflush (nodup_keys hvalid.2.1) hdone
      rw [hold, Option.map_some, writeBack_fresh, hnames.1] at hrow
      exact ⟨t.work, hrow, hname⟩

/-- The commit of an admission never has to wait, and none of its rows can be gone. -/
theorem admitCommit_enabled {c : Nat} {now : Instant} {done : List (Tracked Uuid Run)} {started : Nat}
    (hsound : Sound settings parsers w)
    (hcall : w.calls c = some (.admitting now [] done started)) :
    ∃ w', step settings parsers w (.admitCommit c) = some w' := by
  obtain ⟨runs, hflush⟩ : ∃ runs, w.runs.flushAll done = some runs := by
    apply Table.exists_flushAll
    intro t ht
    rw [(hsound.consistent.held_eq hcall (mem_readRows ht)).1]
    rfl
  refine ⟨{ w with runs }.finish c, ?_⟩
  simp [step, admitCommit, hcall, hflush]

/-- The step keeps track of all Jobs: no admission that has created one ends without its commit, and the
answers to the creations arrive. -/
def KeepsJobs (w : World) (a : Act) : Prop := ∀ id, ¬LosesJob id w a

/-- The step ends the admission, with its commit or without. -/
def Act.EndsAdmission (c : Nat) (a : Act) : Prop := a = .admitCommit c ∨ a = .crash c

/-- The Job of each run is created at most once, and the end of the admission that has created it leaves
its name on the row, where it stays as long as the row exists. -/
structure StartsOnce (settings : Settings) (parsers : Parsers) (w : World) (acts : List Act)
    (w' : World) : Prop where
  once : ((system settings parsers).observed (createdBy settings) w acts).Nodup
  named : ∀ before a during z later c u v id, acts = before ++ a :: (during ++ z :: later) →
    a.call = some c → z.EndsAdmission c → (∀ b ∈ during, ¬b.EndsAdmission c) →
    (system settings parsers).exec w before = some u → createdBy settings u a = some id →
    (system settings parsers).exec w (before ++ a :: (during ++ [z])) = some v →
    (∃ run, v.runs.lookup id = some run ∧ run.k8sJobName = some (RunService.jobName id)) ∧
      ∀ run, w'.runs.lookup id = some run → run.k8sJobName = some (RunService.jobName id)

section Histories

variable {acts : List Act}

theorem starting_exec {c : Nat} (hsound : Sound settings parsers w) (hinv : Starting w c id)
    (hok : (system settings parsers).Meets KeepsJobs w acts) (hopen : Act.admitCommit c ∉ acts)
    (hexec : (system settings parsers).exec w acts = some w') : Starting w' c id := by
  have hlabels : ∀ a ∈ acts, a ≠ .admitCommit c := fun a ha heq => hopen (heq ▸ ha)
  have hmeets := hok.and (System.meets_of_forall (S := system settings parsers) w hlabels)
  exact (System.exec_invariant (I := fun w => Sound settings parsers w ∧ Starting w c id)
    (fun hi hstep hs =>
      ⟨sound_step hi.1 hs, starting_step hi.1.valid hi.2 (hstep.1 id) hstep.2 hs⟩)
    ⟨hsound, hinv⟩ hmeets hexec).2

theorem named_exec (hsound : Sound settings parsers w) (htaken : Taken w id) (hinv : Named w id)
    (hexec : (system settings parsers).exec w acts = some w') : Named w' id :=
  (System.exec_invariant_of_forall
    (I := fun w => Sound settings parsers w ∧ Taken w id ∧ Named w id)
    (fun hi hs => ⟨sound_step hi.1 hs, taken_step hi.1.valid hi.2.1 hs,
      named_step hi.1 hi.2.1 hi.2.2 hs⟩) ⟨hsound, htaken, hinv⟩ hexec).2.2

theorem nodup_createdBy (hqueue : settings.queueEnabled = true) (hsound : Sound settings parsers w)
    (hok : (system settings parsers).Meets KeepsJobs w acts)
    (hexec : (system settings parsers).exec w acts = some w') :
    ((system settings parsers).observed (createdBy settings) w acts).Nodup := by
  have hinit : Sound settings parsers w ∧ ∀ id ∈ ([] : List Uuid), Started w id :=
    ⟨hsound, fun id hid => absurd hid List.not_mem_nil⟩
  refine System.nodup_observed
    (I := fun w seen => Sound settings parsers w ∧ ∀ id ∈ seen, Started w id) ?_ ?_ hinit
    List.nodup_nil hok hexec
  · intro w a w' seen id hinv hstep hs hcreates hmem
    obtain ⟨c, now, run, todo, done, started, profile, -, hcall, -⟩ :=
      createdBy_eq_some hqueue hstep hcreates
    exact Started.notMem_todo hinv.1 hcall (hinv.2 id hmem)
  · intro w a w' seen hinv hstep hs
    refine ⟨sound_step hinv.1 hs, fun id hid => ?_⟩
    rcases List.mem_append.mp hid with hold | hnew
    · exact started_step hinv.1 (hinv.2 id hold) (hstep id) hs
    · obtain ⟨c, now, run, todo, done, started, profile, rfl, hcall, hprofile⟩ :=
        createdBy_eq_some hqueue hstep (Option.mem_toList.mp hnew)
      exact (starting_of_createdBy hinv.1 hcall hprofile hs).2

end Histories

/-- With the queue on, and as long as no step loses track of a Job, each run is started at most once and
is named from the end of its admission on. -/
theorem started_once_and_named {acts : List Act} (hidle : Idle w)
    (hqueue : settings.queueEnabled = true)
    (hok : (system settings parsers).Meets KeepsJobs w acts)
    (hexec : (system settings parsers).exec w acts = some w') :
    StartsOnce settings parsers w acts w' := by
  have hsound : Sound settings parsers w := hidle.sound
  refine ⟨nodup_createdBy hqueue hsound hok hexec, ?_⟩
  rintro before a during z later c u v id rfl hcall hends hopen hbefore hcreates hupto
  have hafter := hok.append_right hbefore
  obtain ⟨c', now, run, todo, done, started, profile, rfl, hadmitting, hprofile⟩ :=
    createdBy_eq_some hqueue hafter.1 hcreates
  obtain rfl : c' = c := Option.some.inj hcall
  rw [System.exec_append, hbefore, Option.bind_some] at hupto
  obtain ⟨u', hstart, hrest⟩ := (System.exec_cons_eq_some _).mp hupto
  obtain ⟨v₀, hduring, hlast⟩ := (System.exec_append_eq_some _).mp hrest
  obtain ⟨v', hend, hv'⟩ := (System.exec_cons_eq_some _).mp hlast
  obtain rfl : v' = v := Option.some.inj hv'
  have hadmit : step settings parsers u (.admitNext c' .created) = some u' := hstart
  have hwrite : step settings parsers v₀ z = some v' := hend
  have hsoundU := sound_exec hsound hbefore
  have hsoundU' := sound_step hsoundU hadmit
  have hsoundV₀ := sound_exec hsoundU' hduring
  -- the admission keeps the run from the creation of its Job to its end
  have hstarting := (starting_of_createdBy hsoundU hadmitting hprofile hadmit).1
  have hmeets : (system settings parsers).Meets KeepsJobs u' (during ++ z :: later) :=
    hafter.2 u' hstart
  have hkept : Starting v₀ c' id := by
    refine starting_exec hsoundU' hstarting hmeets.append_left (fun hmem => ?_) hduring
    exact hopen _ hmem (Or.inl rfl)
  rcases hends with rfl | rfl
  · obtain ⟨run', hrow, hname⟩ := named_of_admitCommit hsoundV₀ hkept hwrite
    have hnamed : Named v' id := fun next hnext => by
      obtain rfl := Option.some.inj (hrow.symm.trans hnext)
      exact hname
    have hsoundV := sound_step hsoundV₀ hwrite
    have hlater : (system settings parsers).exec v' later = some w' := by
      rw [System.exec_append, hbefore, Option.bind_some, System.exec_cons, hstart, Option.bind_some,
        System.exec_append, hduring, Option.bind_some, System.exec_cons, hend, Option.bind_some] at hexec
      exact hexec
    exact ⟨⟨run', hrow, hname⟩, named_exec hsoundV (hsoundV.consistent.taken hrow) hnamed hlater⟩
  · -- an admission that has created a Job is not cut off
    obtain ⟨now', todo', done', started', t, hopen', hdone, hnames⟩ := hkept
    exact absurd ⟨_, t, hopen', hdone, hnames⟩ ((hmeets.append_right hduring).1 id)

/-- A run that is created, admitted and then cancelled. -/
def admittedThenCancelled : List Act :=
  createAlone 0 1 sampleRequest 0 ++ admitAlone 1 1 ++ changeAlone 2 1 .cancelRun 2

/-- Labels that cannot lose a Job. -/
def Act.keepsJobs : Act → Bool
  | .crash _ | .admitNext _ .lost => false
  | _ => true

/-- The result at such a run: the cancellation leaves the Job name on the row. -/
theorem started_once_and_named_cancelledRun :
    ∃ w run, (system {} sampleParsers).exec sampleWorld admittedThenCancelled = some w ∧
      StartsOnce {} sampleParsers sampleWorld admittedThenCancelled w ∧
      w.runs.lookup 1 = some run ∧ run.cancelRequestedAt = some 2 ∧
      run.k8sJobName = some (RunService.jobName 1) := by
  have hrow : (rowAfter sampleWorld admittedThenCancelled 1).map
      (fun run => (run.cancelRequestedAt, run.k8sJobName)) =
        some (some 2, some (RunService.jobName 1)) := by
    decide
  obtain ⟨run, hrow, hcolumns⟩ := Option.map_eq_some_iff.mp hrow
  rw [Prod.mk.injEq] at hcolumns
  obtain ⟨w, hexec, hrun⟩ := Option.bind_eq_some_iff.mp hrow
  have hkeeps : (system {} sampleParsers).Meets KeepsJobs sampleWorld admittedThenCancelled := by
    refine (System.meets_of_forall (p := fun a : Act => a.keepsJobs = true) _ (by decide)).imp ?_
    intro w a hkeeps id hloses
    unfold LosesJob at hloses
    split at hloses
    · cases hkeeps
    · cases hkeeps
    · exact hloses
  exact ⟨w, run, hexec, started_once_and_named (World.initial_idle sampleProfiles) rfl hkeeps hexec,
    hrun, hcolumns.1, hcolumns.2⟩

def Act.isCrash : Act → Bool
  | .crash _ => true
  | _ => false

/-- A run whose Job is created without an answer, and once more after the Job has been removed. -/
def createdTwice : List Act :=
  createAlone 0 1 sampleRequest 0 ++
    [.admitCount 1, .admitSelect 1 1, .admitNext 1 .lost, .admitCommit 1,
      .jobEnds (RunService.jobName 1)] ++ admitAlone 2 2

/-- No call fails or dies, and the run is started twice. -/
theorem lostAnswer_starts_twice :
    ¬∀ (settings : Settings) (parsers : Parsers) (profiles : Table Text Profile) (acts : List Act)
        (w : World), settings.queueEnabled = true → (∀ a ∈ acts, a.isCrash = false) →
      (system settings parsers).exec (World.initial profiles) acts = some w →
      StartsOnce settings parsers (World.initial profiles) acts w := by
  intro h
  have hcreated : ((system {} sampleParsers).exec sampleWorld createdTwice).isSome = true ∧
      (system {} sampleParsers).observed (createdBy {}) sampleWorld createdTwice = [1, 1] := by
    decide
  obtain ⟨w, hexec⟩ := Option.isSome_iff_exists.mp hcreated.1
  have honce := (h {} sampleParsers sampleProfiles createdTwice w rfl (by decide) hexec).once
  have htwice := hcreated.2 ▸ honce
  revert htwice
  decide

end PdeOperator.Lifecycle
