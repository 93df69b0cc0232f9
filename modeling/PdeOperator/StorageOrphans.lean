import PdeOperator.StorageSystem

/-! Orphaned objects: in every interleaving whose steps all spare the stored objects, each object lies
under the id of a run or of a schedule as soon as no call is in flight. In between, an id may also be
accounted for by a call that will insert its row or delete what is stored under it. -/

namespace PdeOperator.Storage
open Base

variable {settings : Settings} {parsers : Parsers} {cron : CronLibrary}
  {adapter : RunTemplate → JsonObject → Except ScheduleService.Error CreateRunRequest}
  {w w' : World} {c : Nat} {id : Uuid} {k : Caller}

/-- Every object lies under an id, and every id under which an object is stored is accounted for. -/
structure Tidy (w : World) : Prop where
  keyed : ∀ key ∈ w.life.objects, ∃ id, Owns id key
  accounted : ∀ id, w.Stored id → w.Accounted id

theorem owed_run {call : Lifecycle.Call} (h : w.life.calls c = some call) :
    w.owed (.run c) = runOwes call := by
  rw [World.owed, h]
  rfl

theorem owed_run_none (h : w.life.calls c = none) : w.owed (.run c) = [] := by
  rw [World.owed, h]
  rfl

theorem owed_task {task : ScheduleTask} (h : w.tasks c = some task) :
    w.owed (.task c) = task.owes := by
  rw [World.owed, h]
  rfl

theorem owed_task_none (h : w.tasks c = none) : w.owed (.task c) = [] := by
  rw [World.owed, h]
  rfl

theorem owns_ownKey {id' : Uuid} {tail : Text} : Owns id' (Uuid.str id ++ '/' :: tail) ↔ id' = id :=
  Lifecycle.isPrefixOf_ownKey

/-- No object is added, no row is taken away, and what a caller no longer owes is accounted for. -/
theorem Tidy.mono (h : Tidy w) (hobjects : ∀ key ∈ w'.life.objects, key ∈ w.life.objects)
    (hrows : ∀ id, w.HasRow id → w'.HasRow id)
    (howed : ∀ k id, id ∈ w.owed k → w'.Accounted id) : Tidy w' := by
  refine ⟨fun key hkey => h.keyed key (hobjects key hkey), ?_⟩
  rintro id ⟨key, hkey, howns⟩
  rcases h.accounted id ⟨key, hobjects key hkey, howns⟩ with hrow | ⟨k, hk⟩
  · exact Or.inl (hrows id hrow)
  · exact howed k id hk

/-- An object is stored. -/
theorem tidy_put_iff (h : Tidy w) {tail : Text}
    (hobjects : w'.life.objects = (Uuid.str id ++ '/' :: tail) :: w.life.objects)
    (haccounted : ∀ id, w.Accounted id → w'.Accounted id) : Tidy w' ↔ w'.Accounted id := by
  constructor
  · intro hafter
    exact hafter.accounted id ⟨_, hobjects ▸ List.mem_cons_self, owns_ownKey.mpr rfl⟩
  · intro hid
    constructor
    · intro key hkey
      rw [hobjects] at hkey
      rcases List.mem_cons.mp hkey with rfl | hkey
      · exact ⟨id, owns_ownKey.mpr rfl⟩
      · exact h.keyed key hkey
    · rintro id' ⟨key, hkey, howns⟩
      rw [hobjects] at hkey
      rcases List.mem_cons.mp hkey with rfl | hkey
      · exact owns_ownKey.mp howns ▸ hid
      · exact haccounted id' (h.accounted id' ⟨key, hkey, howns⟩)

theorem stored_congr (hobjects : w'.life.objects = w.life.objects) (id : Uuid) :
    w'.Stored id ↔ w.Stored id := by
  rw [World.Stored, World.Stored, hobjects]

/-- A caller owes fewer ids than before. -/
theorem tidy_release_iff (h : Tidy w) {left : List Uuid}
    (hobjects : w'.life.objects = w.life.objects) (hrows : ∀ id, w'.HasRow id ↔ w.HasRow id)
    (hself : w'.owed k = left) (hothers : ∀ k', k' ≠ k → w'.owed k' = w.owed k') :
    Tidy w' ↔ ∀ id ∈ w.owed k, w.Stored id → w.AccountedBut id k left := by
  have hafter : ∀ id, w'.Accounted id ↔ w.AccountedBut id k left := by
    intro id
    constructor
    · rintro (hrow | ⟨k', hk'⟩)
      · exact Or.inl ((hrows id).mp hrow)
      · by_cases hk : k' = k
        · exact Or.inr (Or.inl (hself ▸ hk ▸ hk'))
        · exact Or.inr (Or.inr ⟨k', hk, hothers k' hk ▸ hk'⟩)
    · rintro (hrow | hleft | ⟨k', hk, hk'⟩)
      · exact Or.inl ((hrows id).mpr hrow)
      · exact Or.inr ⟨k, hself ▸ hleft⟩
      · exact Or.inr ⟨k', (hothers k' hk).symm ▸ hk'⟩
  have hstored := stored_congr hobjects
  constructor
  · intro htidy id _ hid
    exact (hafter id).mp (htidy.accounted id ((hstored id).mpr hid))
  · intro hall
    refine ⟨hobjects.symm ▸ h.keyed, fun id hid => ?_⟩
    have hid := (hstored id).mp hid
    refine (hafter id).mpr ?_
    by_cases howed : id ∈ w.owed k
    · exact hall id howed hid
    · rcases h.accounted id hid with hrow | ⟨k', hk'⟩
      · exact Or.inl hrow
      · exact Or.inr (Or.inr ⟨k', fun hk => howed (hk ▸ hk'), hk'⟩)

/-- Rows are deleted. -/
theorem tidy_erase_iff (h : Tidy w) {gone : Uuid → Prop}
    (hobjects : w'.life.objects = w.life.objects)
    (hrows : ∀ id, ¬gone id → w.HasRow id → w'.HasRow id)
    (howed : ∀ k id, id ∈ w.owed k → id ∈ w'.owed k) :
    Tidy w' ↔ ∀ id, gone id → w.Stored id → w'.Accounted id := by
  have hstored := stored_congr hobjects
  constructor
  · intro htidy id _ hid
    exact htidy.accounted id ((hstored id).mpr hid)
  · intro hall
    refine ⟨hobjects.symm ▸ h.keyed, fun id hid => ?_⟩
    have hid := (hstored id).mp hid
    by_cases hgone : gone id
    · exact hall id hgone hid
    · rcases h.accounted id hid with hrow | ⟨k, hk⟩
      · exact Or.inl (hrows id hgone hrow)
      · exact Or.inr ⟨k, howed k id hk⟩

variable {life : Lifecycle.World}

theorem calls_ne {call : Option Lifecycle.Call}
    (hcalls : life.calls = Function.update w.life.calls c call) :
    ∀ c', c' ≠ c → life.calls c' = w.life.calls c' :=
  fun c' hc => by rw [hcalls, Function.update_of_ne hc]

/-- Only one call of the run lifecycle takes the step. -/
theorem owed_life_ne (hcalls : ∀ c', c' ≠ c → life.calls c' = w.life.calls c') (hk : k ≠ .run c) :
    ({ w with life } : World).owed k = w.owed k := by
  cases k with
  | run c' =>
      have hc : c' ≠ c := fun h => hk (congrArg Caller.run h)
      rw [World.owed, World.owed]
      dsimp only
      rw [hcalls c' hc]
  | task c' => rfl

theorem hasRow_life (hrows : ∀ id, (w.life.runs.lookup id).isSome = true →
    (life.runs.lookup id).isSome = true) (h : w.HasRow id) : ({ w with life } : World).HasRow id := by
  rcases h with hrun | hschedule
  · exact Or.inl (hrows id hrun)
  · exact Or.inr hschedule

/-- What the other callers owe stays, and so do the rows. -/
theorem accounted_life (hcalls : ∀ c', c' ≠ c → life.calls c' = w.life.calls c')
    (hrows : ∀ id, (w.life.runs.lookup id).isSome = true → (life.runs.lookup id).isSome = true)
    (hself : ∀ id ∈ w.owed (.run c), ({ w with life } : World).Accounted id) (h : w.Accounted id) :
    ({ w with life } : World).Accounted id := by
  rcases h with hrow | ⟨k, hk⟩
  · exact Or.inl (hasRow_life hrows hrow)
  · by_cases hkc : k = .run c
    · exact hself id (hkc ▸ hk)
    · exact Or.inr ⟨k, (owed_life_ne hcalls hkc).symm ▸ hk⟩

/-- A step of the run lifecycle that stores nothing and takes no row away. -/
theorem tidy_life (h : Tidy w) (hcalls : ∀ c', c' ≠ c → life.calls c' = w.life.calls c')
    (hobjects : ∀ key ∈ life.objects, key ∈ w.life.objects)
    (hrows : ∀ id, (w.life.runs.lookup id).isSome = true → (life.runs.lookup id).isSome = true)
    (hself : ∀ id ∈ w.owed (.run c), ({ w with life } : World).Accounted id) :
    Tidy { w with life } :=
  h.mono hobjects (fun _ hrow => hasRow_life hrows hrow)
    fun k _ hk => accounted_life hcalls hrows hself (Or.inr ⟨k, hk⟩)

theorem calls_spawn_ne (v : Lifecycle.World) (call : Lifecycle.Call) :
    ∀ c', c' ≠ c → (v.spawn c call).calls c' = v.calls c' :=
  fun _ hc => Function.update_of_ne hc _ _

theorem calls_finish_ne (v : Lifecycle.World) :
    ∀ c', c' ≠ c → (v.finish c).calls c' = v.calls c' :=
  fun _ hc => Function.update_of_ne hc _ _

/-- A call that owes nothing goes on or ends. -/
theorem tidy_life_of_free (h : Tidy w) (hfree : w.owed (.run c) = [])
    (hcalls : ∀ c', c' ≠ c → life.calls c' = w.life.calls c')
    (hobjects : ∀ key ∈ life.objects, key ∈ w.life.objects)
    (hrows : ∀ id, (w.life.runs.lookup id).isSome = true → (life.runs.lookup id).isSome = true) :
    Tidy { w with life } :=
  tidy_life h hcalls hobjects hrows fun id hid => by
    rw [hfree] at hid
    cases hid

/-- Such a call leaves objects and rows as they are. -/
theorem tidy_life_unchanged (h : Tidy w) (hfree : w.owed (.run c) = [])
    (hcalls : ∀ c', c' ≠ c → life.calls c' = w.life.calls c')
    (hobjects : life.objects = w.life.objects) (hruns : life.runs = w.life.runs) :
    Tidy { w with life } :=
  tidy_life_of_free h hfree hcalls (fun _ hkey => hobjects ▸ hkey) fun _ hrow => hruns ▸ hrow

/-- A call goes on and owes what it has owed. -/
theorem tidy_life_of_goesOn {call : Lifecycle.Call} (h : Tidy w) (hcall : life.calls c = some call)
    (howes : w.owed (.run c) = runOwes call)
    (hcalls : ∀ c', c' ≠ c → life.calls c' = w.life.calls c')
    (hobjects : ∀ key ∈ life.objects, key ∈ w.life.objects)
    (hrows : ∀ id, (w.life.runs.lookup id).isSome = true → (life.runs.lookup id).isSome = true) :
    Tidy { w with life } := by
  refine tidy_life h hcalls hobjects hrows fun id hid => Or.inr ⟨.run c, ?_⟩
  have hafter : ({ w with life } : World).owed (.run c) = runOwes call := by
    rw [World.owed]
    dsimp only
    rw [hcall]
    rfl
  rw [hafter, ← howes]
  exact hid

/-- A call that has stored an input fails. -/
theorem tidy_life_ends_iff (h : Tidy w) (hcalls : life.calls = Function.update w.life.calls c none)
    (hobjects : life.objects = w.life.objects) (hruns : life.runs = w.life.runs) :
    Tidy { w with life } ↔
      ∀ id ∈ w.owed (.run c), w.Stored id → w.AccountedBut id (.run c) [] := by
  have hrows : ∀ id, ({ w with life } : World).HasRow id ↔ w.HasRow id := fun id => by
    rw [World.HasRow, World.HasRow]
    dsimp only
    rw [hruns]
  refine tidy_release_iff h hobjects hrows ?_ fun k hk => owed_life_ne (calls_ne hcalls) hk
  rw [World.owed]
  dsimp only
  rw [hcalls, Function.update_self]
  rfl

/-- A caller that owes nothing before and after the step. -/
theorem owed_life_of_free {call : Option Lifecycle.Call}
    (hcalls : life.calls = Function.update w.life.calls c call) (hfree : w.owed (.run c) = [])
    (hafter : (call.map runOwes).getD [] = []) (k : Caller) :
    ({ w with life } : World).owed k = w.owed k := by
  by_cases hk : k = .run c
  · rw [hk, hfree, World.owed]
    dsimp only
    rw [hcalls, Function.update_self, hafter]
  · exact owed_life_ne (calls_ne hcalls) hk

/-- An artifact is stored. -/
theorem spares_putNext_iff {change : Lifecycle.RunChange} {now : Instant} {kind : ArtifactKind}
    {kinds : List ArtifactKind} {row : Tracked Uuid Run} (h : Tidy w)
    (hcall : w.life.calls c = some (.writing change now (kind :: kinds) row))
    (hcalls : life.calls = Function.update w.life.calls c (some (.writing change now kinds row)))
    (hobjects : life.objects = artifactKey row.key kind :: w.life.objects)
    (hruns : life.runs = w.life.runs) :
    SparesObjects settings w (.run (.putNext c)) ↔ Tidy { w with life } := by
  have howed := owed_life_of_free hcalls (owed_run hcall) rfl
  have haccounted : ∀ id, ({ w with life } : World).Accounted id ↔ w.Accounted id := by
    intro id
    simp only [World.Accounted, World.HasRow, howed, hruns]
  rw [tidy_put_iff h hobjects fun id => (haccounted id).mpr, haccounted]
  constructor
  · intro hspares
    exact hspares _ _ _ _ _ hcall
  · intro hrow change' now' kind' kinds' row' hcall'
    cases hcall.symm.trans hcall'
    exact hrow

/-- The row of a run is deleted. -/
theorem spares_deleteCommit_iff {runId : Uuid} (h : Tidy w)
    (hcall : w.life.calls c = some (.deleting runId true))
    (hcalls : life.calls = Function.update w.life.calls c none)
    (hobjects : life.objects = w.life.objects) (hruns : life.runs = w.life.runs.erase runId) :
    SparesObjects settings w (.run (.deleteCommit c)) ↔ Tidy { w with life } := by
  have howed := owed_life_of_free hcalls (owed_run hcall) rfl
  have haccounted : ({ w with life } : World).Accounted runId ↔
      (w.schedules.lookup runId).isSome = true ∨ ∃ k, runId ∈ w.owed k := by
    simp only [World.Accounted, World.HasRow, howed, hruns, AList.lookup_erase, Option.isSome_none,
      Bool.false_eq_true, false_or]
  have hrows : ∀ id, ¬id = runId → w.HasRow id → ({ w with life } : World).HasRow id := by
    rintro id hid (hrun | hschedule)
    · refine Or.inl ?_
      dsimp only
      rw [hruns, AList.lookup_erase_ne hid, hrun]
    · exact Or.inr hschedule
  rw [tidy_erase_iff h hobjects hrows fun k id hk => (howed k).symm ▸ hk]
  constructor
  · rintro hspares id rfl hstored
    exact haccounted.mpr (hspares id hcall hstored)
  · intro hall runId' hcall' hstored
    cases hcall.symm.trans hcall'
    exact haccounted.mp (hall runId rfl hstored)

/-- The input of a new run is stored. -/
theorem tidy_storeInput {runId : Uuid} {run : Run} (h : Tidy w)
    (hcall : w.life.calls c = some (.creating runId run .store))
    (hcalls : life.calls = Function.update w.life.calls c (some (.creating runId run .job)))
    (hobjects : life.objects = Lifecycle.inputKey runId :: w.life.objects)
    (hruns : life.runs = w.life.runs) : Tidy { w with life } := by
  have hafter : ({ w with life } : World).owed (.run c) = [runId] := by
    rw [World.owed]
    dsimp only
    rw [hcalls, Function.update_self]
    rfl
  refine (tidy_put_iff h hobjects fun id => ?_).mpr (Or.inr ⟨.run c, hafter ▸ List.mem_cons_self⟩)
  refine accounted_life (calls_ne hcalls) (fun _ hrow => hruns ▸ hrow) fun id hid => ?_
  rw [owed_run hcall] at hid
  cases hid

theorem spares_crashRun_iff {call : Lifecycle.Call} (h : Tidy w) (hcall : w.life.calls c = some call)
    (hcalls : life.calls = Function.update w.life.calls c none)
    (hobjects : life.objects = w.life.objects) (hruns : life.runs = w.life.runs) :
    SparesObjects settings w (.run (.crash c)) ↔ Tidy { w with life } := by
  rw [tidy_life_ends_iff h hcalls hobjects hruns, owed_run hcall]
  constructor
  · intro hspares id hid
    exact hspares call id hcall hid
  · intro hall call' id hcall' hid
    cases hcall.symm.trans hcall'
    exact hall id hid

/-- `_start_run_job_now` fails after the input has been stored. -/
theorem spares_startJob_iff {outcome : JobOutcome} {now : Instant} (h : Tidy w)
    (hstep : Lifecycle.startJob settings w.life c outcome now = some life) :
    SparesObjects settings w (.run (.startJob c outcome now)) ↔ Tidy { w with life } := by
  unfold Lifecycle.startJob at hstep
  split at hstep
  · next runId run hcall =>
    have howed : w.owed (.run c) = [runId] := owed_run hcall
    have hends : settings.queueEnabled = false → settings.k8sJobCreationEnabled = true →
        outcome ≠ .created → life.calls = Function.update w.life.calls c none →
        life.objects = w.life.objects → life.runs = w.life.runs →
        (SparesObjects settings w (.run (.startJob c outcome now)) ↔ Tidy { w with life }) := by
      intro hqueue hjobs hfails hcalls hobjects hruns
      rw [tidy_life_ends_iff h hcalls hobjects hruns, howed]
      constructor
      · intro hspares id hid
        obtain rfl := List.mem_singleton.mp hid
        exact hspares id run hcall hqueue hjobs hfails
      · intro hall runId' run' hcall' _ _ _
        cases hcall.symm.trans hcall'
        exact hall runId List.mem_cons_self
    split at hstep
    · next hlater =>
      obtain rfl := Option.some.inj hstep
      refine iff_of_true (fun _ _ _ hqueue hjobs => ?_) (tidy_life_of_goesOn h
        (Function.update_self ..) howed (calls_spawn_ne _ _) (fun _ hkey => hkey) fun _ hrow => hrow)
      rw [hqueue, hjobs] at hlater
      cases hlater
    · next hsync =>
      rw [Bool.or_eq_true, not_or, Bool.not_eq_true, Bool.not_eq_true', Bool.not_eq_false] at hsync
      split at hstep
      · next hrefused =>
        obtain rfl := Option.some.inj hstep
        exact hends hsync.1 hsync.2 (by rw [hrefused]; decide) rfl rfl rfl
      · next hmade =>
        obtain ⟨-, -, hstep⟩ := Option.bind_eq_some_iff.mp hstep
        dsimp only at hstep
        split at hstep
        · next hlost =>
          obtain rfl := Option.some.inj hstep
          exact hends hsync.1 hsync.2 (by rw [hlost]; decide) rfl rfl rfl
        · next hkept =>
          obtain rfl := Option.some.inj hstep
          have hcreated : outcome = .created := by
            cases outcome with
            | created => rfl
            | refused => exact absurd rfl hmade
            | lost => exact absurd rfl hkept
          refine iff_of_true (fun _ _ _ _ _ hfails => absurd hcreated hfails) (tidy_life_of_goesOn h
            (Function.update_self ..) howed (calls_spawn_ne _ _) (fun _ hkey => hkey)
            fun _ hrow => hrow)
  · cases hstep

/-- One step of the run lifecycle. -/
theorem spares_run_iff {a : Lifecycle.Act} (h : Tidy w)
    (hstep : Lifecycle.step settings parsers w.life a = some life) :
    SparesObjects settings w (.run a) ↔ Tidy { w with life } := by
  cases Lifecycle.step_cases hstep with
  | startLater hcall => exact spares_startJob_iff h hstep
  | startRefused hcall => exact spares_startJob_iff h hstep
  | startLost hcall hsync hjob => exact spares_startJob_iff h hstep
  | startNow hcall hsync hjob => exact spares_startJob_iff h hstep
  | putNext hcall => exact spares_putNext_iff h hcall rfl rfl rfl
  | deleteCommit hcall hfree => exact spares_deleteCommit_iff h hcall rfl rfl rfl
  | storeInput hcall => exact iff_of_true trivial (tidy_storeInput h hcall rfl rfl rfl)
  | crash hcall => exact spares_crashRun_iff h hcall rfl rfl rfl
  | @insertCommit c runId run hcall hrun =>
      refine iff_of_true trivial (tidy_life h (calls_finish_ne _) (fun _ hkey => hkey) ?_ ?_)
      · intro id hrow
        by_cases hid : id = runId
        · rw [hid]
          exact congrArg Option.isSome (AList.lookup_insert _)
        · exact (congrArg Option.isSome (AList.lookup_insert_ne hid)).trans hrow
      · intro id hid
        rw [owed_run hcall] at hid
        obtain rfl := List.mem_singleton.mp hid
        exact Or.inl (Or.inl (congrArg Option.isSome (AList.lookup_insert _)))
  | readRow hcall hrun happly =>
      exact iff_of_true trivial (tidy_life_unchanged h (owed_run_none hcall) (calls_spawn_ne _ _) rfl rfl)
  | commitRow hcall hlock hflush =>
      exact iff_of_true trivial (tidy_life_of_free h (owed_run hcall) (calls_finish_ne _)
        (fun _ hkey => hkey) fun id hrow => (Table.isSome_flush hflush id).trans hrow)
  | reconcileRead hcall =>
      exact iff_of_true trivial (tidy_life_unchanged h (owed_run_none hcall) (calls_spawn_ne _ _) rfl rfl)
  | reconcileNext hcall hresult =>
      exact iff_of_true trivial (tidy_life_unchanged h (owed_run hcall) (calls_spawn_ne _ _) rfl rfl)
  | reconcileDelete hcall hresult =>
      exact iff_of_true trivial (tidy_life_unchanged h (owed_run hcall) (calls_spawn_ne _ _) rfl rfl)
  | reconcileNothing hcall =>
      exact iff_of_true trivial (tidy_life_unchanged h (owed_run hcall) (calls_finish_ne _) rfl rfl)
  | reconcileCommit hcall hlock hflush =>
      exact iff_of_true trivial (tidy_life_of_free h (owed_run hcall) (calls_finish_ne _)
        (fun _ hkey => hkey) fun id hrow => (Table.isSome_flushAll hflush id).trans hrow)
  | admitCount hcall =>
      exact iff_of_true trivial (tidy_life_unchanged h (owed_run_none hcall) (calls_spawn_ne _ _) rfl rfl)
  | admitNone hcall =>
      exact iff_of_true trivial (tidy_life_unchanged h (owed_run hcall) (calls_finish_ne _) rfl rfl)
  | admitSelect hcall hqueued =>
      exact iff_of_true trivial (tidy_life_unchanged h (owed_run hcall) (calls_spawn_ne _ _) rfl rfl)
  | admitStart hcall hprofile hmade hjob =>
      exact iff_of_true trivial (tidy_life_unchanged h (owed_run hcall) (calls_spawn_ne _ _) rfl rfl)
  | admitPass hcall hprofile hpass =>
      exact iff_of_true trivial (tidy_life_unchanged h (owed_run hcall) (calls_spawn_ne _ _) rfl rfl)
  | admitCommit hcall hflush =>
      exact iff_of_true trivial (tidy_life_of_free h (owed_run hcall) (calls_finish_ne _)
        (fun _ hkey => hkey) fun id hrow => (Table.isSome_flushAll hflush id).trans hrow)
  | createRead hcall hfresh hprofile =>
      exact iff_of_true trivial (tidy_life_unchanged h (owed_run_none hcall) (calls_spawn_ne _ _) rfl rfl)
  | retryRead hcall hfresh hparent hretriable =>
      exact iff_of_true trivial (tidy_life_unchanged h (owed_run_none hcall) (calls_spawn_ne _ _) rfl rfl)
  | retryLoad hcall hprofile =>
      exact iff_of_true trivial (tidy_life_unchanged h (owed_run hcall) (calls_spawn_ne _ _) rfl rfl)
  | deleteRead hcall =>
      exact iff_of_true trivial (tidy_life_unchanged h (owed_run_none hcall) (calls_spawn_ne _ _) rfl rfl)
  | deleteObjects hcall =>
      exact iff_of_true trivial (tidy_life_of_free h (owed_run hcall) (calls_spawn_ne _ _)
        (fun _ hkey => List.mem_of_mem_filter hkey) fun _ hrow => hrow)
  | jobEnds =>
      exact iff_of_true trivial (h.mono (fun _ hkey => hkey) (fun _ hrow => hrow)
        fun k _ hk => Or.inr ⟨k, hk⟩)
  | editProfiles =>
      exact iff_of_true trivial (h.mono (fun _ hkey => hkey) (fun _ hrow => hrow)
        fun k _ hk => Or.inr ⟨k, hk⟩)

/-! ### The calls of `ScheduleService` -/

variable {task : Option ScheduleTask}

theorem owed_task_self (htasks : w'.tasks = Function.update w.tasks c task) :
    w'.owed (.task c) = (task.map ScheduleTask.owes).getD [] := by
  rw [World.owed, htasks, Function.update_self]

theorem owed_task_ne (htasks : w'.tasks = Function.update w.tasks c task)
    (hcalls : w'.life.calls = w.life.calls) (hk : k ≠ .task c) : w'.owed k = w.owed k := by
  cases k with
  | run c' => rw [World.owed, World.owed, hcalls]
  | task c' =>
      have hc : c' ≠ c := fun h => hk (congrArg Caller.task h)
      rw [World.owed, World.owed, htasks, Function.update_of_ne hc]

/-- A task that owes nothing before and after the step. -/
theorem owed_of_free (htasks : w'.tasks = Function.update w.tasks c task)
    (hcalls : w'.life.calls = w.life.calls) (hfree : w.owed (.task c) = [])
    (hafter : (task.map ScheduleTask.owes).getD [] = []) (k : Caller) : w'.owed k = w.owed k := by
  by_cases hk : k = .task c
  · rw [hk, owed_task_self htasks, hfree, hafter]
  · exact owed_task_ne htasks hcalls hk

theorem accounted_task (htasks : w'.tasks = Function.update w.tasks c task)
    (hcalls : w'.life.calls = w.life.calls) (hrows : ∀ id, w.HasRow id → w'.HasRow id)
    (hself : ∀ id ∈ w.owed (.task c), w'.Accounted id) (h : w.Accounted id) : w'.Accounted id := by
  rcases h with hrow | ⟨k, hk⟩
  · exact Or.inl (hrows id hrow)
  · by_cases hkc : k = .task c
    · exact hself id (hkc ▸ hk)
    · exact Or.inr ⟨k, (owed_task_ne htasks hcalls hkc).symm ▸ hk⟩

/-- A task that owes nothing goes on or ends, and stores nothing. -/
theorem tidy_task_of_free (h : Tidy w) (hfree : w.owed (.task c) = [])
    (htasks : w'.tasks = Function.update w.tasks c task) (hcalls : w'.life.calls = w.life.calls)
    (hobjects : ∀ key ∈ w'.life.objects, key ∈ w.life.objects)
    (hrows : ∀ id, w.HasRow id → w'.HasRow id) : Tidy w' := by
  refine h.mono hobjects hrows fun k id hk => ?_
  refine accounted_task htasks hcalls hrows (fun id hid => ?_) (Or.inr ⟨k, hk⟩)
  rw [hfree] at hid
  cases hid

theorem hasRow_schedules (hruns : w'.life.runs = w.life.runs)
    (hschedules : ∀ id, (w.schedules.lookup id).isSome = true →
      (w'.schedules.lookup id).isSome = true) (h : w.HasRow id) : w'.HasRow id := by
  rcases h with hrun | hschedule
  · exact Or.inl (hruns.symm ▸ hrun)
  · exact Or.inr (hschedules id hschedule)

theorem isSome_insert {schedules : Table Uuid ScheduledRun} {scheduleId : Uuid} {row : ScheduledRun}
    (h : (schedules.lookup id).isSome = true) :
    ((schedules.insert scheduleId row).lookup id).isSome = true := by
  by_cases hid : id = scheduleId
  · rw [hid, AList.lookup_insert]
    rfl
  · rw [AList.lookup_insert_ne hid, h]

/-- The payload of a new schedule is stored, and the row is still to come. -/
theorem tidy_storeNew {scheduleId : Uuid} {row : Except ScheduleService.Error ScheduledRun}
    (h : Tidy w) (htask : w.tasks c = some (.creating scheduleId row false)) :
    Tidy ((w.setTask c (some (.creating scheduleId row true))).put
      (Lifecycle.inputKey scheduleId)) := by
  set w' := (w.setTask c (some (.creating scheduleId row true))).put (Lifecycle.inputKey scheduleId)
    with hw'
  have htasks : w'.tasks = Function.update w.tasks c (some (.creating scheduleId row true)) := rfl
  have hself : w'.owed (.task c) = [scheduleId] := owed_task_self htasks
  refine (tidy_put_iff h rfl fun id => ?_).mpr (Or.inr ⟨.task c, hself ▸ List.mem_cons_self⟩)
  refine accounted_task htasks rfl (fun _ hrow => hrow) fun id hid => ?_
  rw [owed_task htask] at hid
  cases hid

/-- The payload of a schedule that is updated is stored. -/
theorem spares_storeUpdate_iff {scheduleId : Uuid} {read : ScheduledRun}
    {work : Except ScheduleService.Error ScheduledRun} (h : Tidy w)
    (htask : w.tasks c = some (.updating scheduleId read work false)) :
    SparesObjects settings w (.storePayload c) ↔
      Tidy ((w.setTask c (some (.updating scheduleId read work true))).put
        (Lifecycle.inputKey scheduleId)) := by
  set w' := (w.setTask c (some (.updating scheduleId read work true))).put
    (Lifecycle.inputKey scheduleId) with hw'
  have htasks : w'.tasks = Function.update w.tasks c (some (.updating scheduleId read work true)) :=
    rfl
  have howed : ∀ k, w'.owed k = w.owed k := owed_of_free htasks rfl (owed_task htask) rfl
  have haccounted : ∀ id, w'.Accounted id ↔ w.Accounted id := by
    intro id
    refine or_congr Iff.rfl (exists_congr fun k => ?_)
    rw [howed k]
  rw [tidy_put_iff h rfl fun id => (haccounted id).mpr, haccounted]
  constructor
  · intro hspares
    exact hspares scheduleId read work htask
  · intro hrow id read' work' htask'
    cases htask.symm.trans htask'
    exact hrow

/-- A new schedule is committed. -/
theorem tidy_insertSchedule {scheduleId : Uuid} {row : ScheduledRun} (h : Tidy w)
    (htask : w.tasks c = some (.creating scheduleId (.ok row) true)) :
    Tidy ({ w with schedules := w.schedules.insert scheduleId row }.setTask c none) := by
  set w' := { w with schedules := w.schedules.insert scheduleId row }.setTask c none with hw'
  have htasks : w'.tasks = Function.update w.tasks c none := rfl
  have hrows : ∀ id, w.HasRow id → w'.HasRow id :=
    fun _ => hasRow_schedules rfl fun _ hrow => isSome_insert hrow
  refine h.mono (fun _ hkey => hkey) hrows fun k id hk => ?_
  refine accounted_task htasks rfl hrows (fun id hid => ?_) (Or.inr ⟨k, hk⟩)
  rw [owed_task htask] at hid
  obtain rfl := List.mem_singleton.mp hid
  exact Or.inl (Or.inr (congrArg Option.isSome (AList.lookup_insert _)))

theorem lookup_eraseAll {ids : List Uuid} {schedules : Table Uuid ScheduledRun} :
    (ids.foldl (fun schedules id => schedules.erase id) schedules).lookup id =
      if id ∈ ids then none else schedules.lookup id := by
  induction ids generalizing schedules with
  | nil => rfl
  | cons first rest ih =>
      rw [List.foldl_cons, ih]
      by_cases hid : id = first
      · subst hid
        simp
      · simp [hid]

theorem hasRow_eraseSchedules {ids : List Uuid} (hruns : w'.life.runs = w.life.runs)
    (hschedules : w'.schedules = ids.foldl (fun schedules id => schedules.erase id) w.schedules)
    (hid : id ∉ ids) (h : w.HasRow id) : w'.HasRow id := by
  rcases h with hrun | hschedule
  · exact Or.inl (hruns.symm ▸ hrun)
  · refine Or.inr ?_
    rw [hschedules, lookup_eraseAll, if_neg hid, hschedule]

theorem hasRow_erased_iff {ids : List Uuid} (hruns : w'.life.runs = w.life.runs)
    (hschedules : w'.schedules = ids.foldl (fun schedules id => schedules.erase id) w.schedules)
    (hid : id ∈ ids) : w'.HasRow id ↔ (w.life.runs.lookup id).isSome = true := by
  rw [World.HasRow, hruns, hschedules, lookup_eraseAll, if_pos hid]
  simp

/-- The row of a schedule is deleted. -/
theorem spares_deleteSchedule_iff {scheduleId : Uuid} (h : Tidy w)
    (htask : w.tasks c = some (.deleting scheduleId true)) :
    SparesObjects settings w (.deleteSchedule c) ↔
      Tidy ((w.eraseSchedules [scheduleId]).setTask c none) := by
  set w' := (w.eraseSchedules [scheduleId]).setTask c none with hw'
  have htasks : w'.tasks = Function.update w.tasks c none := rfl
  have hobjects : w'.life.objects = w.life.objects := rfl
  have howed : ∀ k, w'.owed k = w.owed k := owed_of_free htasks rfl (owed_task htask) rfl
  have hgone : w'.HasRow scheduleId ↔ (w.life.runs.lookup scheduleId).isSome = true :=
    hasRow_erased_iff rfl rfl List.mem_cons_self
  have haccounted : w'.Accounted scheduleId ↔
      (w.life.runs.lookup scheduleId).isSome = true ∨ ∃ k, scheduleId ∈ w.owed k := by
    rw [World.Accounted, hgone]
    simp only [howed]
  have hrows : ∀ id, ¬id = scheduleId → w.HasRow id → w'.HasRow id := by
    intro id hid
    refine hasRow_eraseSchedules rfl rfl ?_
    rwa [List.mem_singleton]
  rw [tidy_erase_iff h hobjects hrows fun k id hk => (howed k).symm ▸ hk]
  constructor
  · rintro hspares id rfl hstored
    exact haccounted.mpr (hspares id htask hstored)
  · intro hall id htask' hstored
    cases htask.symm.trans htask'
    exact haccounted.mp (hall scheduleId rfl hstored)

/-- The rows that `delete_all_schedules` has found are deleted; it goes on to clean up under those that
it has listed. -/
theorem spares_commitDelete_iff {ids rows : List Uuid} (h : Tidy w)
    (htask : w.tasks c = some (.purging ids rows)) :
    SparesObjects settings w (.commitDelete c) ↔
      Tidy ((w.eraseSchedules rows).setTask c (some (.cleaning ids))) := by
  set w' := (w.eraseSchedules rows).setTask c (some (.cleaning ids)) with hw'
  have htasks : w'.tasks = Function.update w.tasks c (some (.cleaning ids)) := rfl
  have hself : w'.owed (.task c) = ids := owed_task_self htasks
  have hfree : w.owed (.task c) = [] := owed_task htask
  have hothers : ∀ k, k ≠ .task c → w'.owed k = w.owed k := fun _ => owed_task_ne htasks rfl
  have howed : ∀ k id, id ∈ w.owed k → id ∈ w'.owed k := by
    intro k id hk
    rw [hothers k]
    · exact hk
    · rintro rfl
      rw [hfree] at hk
      cases hk
  have hobjects : w'.life.objects = w.life.objects := rfl
  have hrows : ∀ id, ¬id ∈ rows → w.HasRow id → w'.HasRow id :=
    fun _ => hasRow_eraseSchedules rfl rfl
  have herased : ∀ id ∈ rows, (w'.HasRow id ↔ (w.life.runs.lookup id).isSome = true) :=
    fun _ => hasRow_erased_iff rfl rfl
  rw [tidy_erase_iff h hobjects hrows howed]
  constructor
  · intro hspares id hgone hstored
    by_cases hlisted : id ∈ ids
    · exact Or.inr ⟨.task c, hself ▸ hlisted⟩
    · rcases hspares ids rows id htask hgone hlisted hstored with hrun | ⟨k, hk⟩
      · exact Or.inl ((herased id hgone).mpr hrun)
      · exact Or.inr ⟨k, howed k id hk⟩
  · intro hall ids' rows' id htask' hgone hlisted hstored
    cases htask.symm.trans htask'
    rcases hall id hgone hstored with hrow | ⟨k, hk⟩
    · exact Or.inl ((herased id hgone).mp hrow)
    · refine Or.inr ⟨k, hothers k ?_ ▸ hk⟩
      rintro rfl
      exact hlisted (hself ▸ hk)

theorem tidy_deleteObjects {kept : List Text} (h : Tidy w) : Tidy (w.deleteObjects id kept) :=
  h.mono (fun _ hkey => List.mem_of_mem_filter hkey) (fun _ hrow => hrow) fun k _ hk => Or.inr ⟨k, hk⟩

/-- What is stored under a listed id is deleted, as far as the storage goes along. -/
theorem spares_clean_iff {scheduleId : Uuid} {ids : List Uuid} {kept : List Text} (h : Tidy w)
    (htask : w.tasks c = some (.cleaning (scheduleId :: ids))) :
    SparesObjects settings w (.cleanNext c kept) ↔
      Tidy ((w.deleteObjects scheduleId kept).setTask c (some (.cleaning ids))) := by
  set w' := (w.deleteObjects scheduleId kept).setTask c (some (.cleaning ids)) with hw'
  have hdeleted : Tidy (w.deleteObjects scheduleId kept) := tidy_deleteObjects h
  have htasks : w'.tasks = Function.update w.tasks c (some (.cleaning ids)) := rfl
  have hobjects : w'.life.objects = (w.deleteObjects scheduleId kept).life.objects := rfl
  have hrows : ∀ id, w'.HasRow id ↔ w.HasRow id := fun _ => Iff.rfl
  have hself : w'.owed (.task c) = ids := owed_task_self htasks
  have hothers : ∀ k, k ≠ .task c → w'.owed k = w.owed k := fun _ => owed_task_ne htasks rfl
  have howed : (w.deleteObjects scheduleId kept).owed (.task c) = scheduleId :: ids := owed_task htask
  rw [tidy_release_iff hdeleted hobjects hrows hself hothers, howed]
  constructor
  · intro hspares id hid hstored
    rcases List.mem_cons.mp hid with rfl | hid
    · exact hspares id ids htask hstored
    · exact Or.inr (Or.inl hid)
  · intro hall id ids' htask' hstored
    cases htask.symm.trans htask'
    exact hall scheduleId List.mem_cons_self hstored

/-- A call raises or dies. -/
theorem spares_crash_iff {last : ScheduleTask} (h : Tidy w) (htask : w.tasks c = some last) :
    SparesObjects settings w (.crash c) ↔ Tidy (w.setTask c none) := by
  set w' := w.setTask c none with hw'
  have htasks : w'.tasks = Function.update w.tasks c none := rfl
  have hobjects : w'.life.objects = w.life.objects := rfl
  have hrows : ∀ id, w'.HasRow id ↔ w.HasRow id := fun _ => Iff.rfl
  have hself : w'.owed (.task c) = [] := owed_task_self htasks
  have hothers : ∀ k, k ≠ .task c → w'.owed k = w.owed k := fun _ => owed_task_ne htasks rfl
  rw [tidy_release_iff h hobjects hrows hself hothers, owed_task htask]
  constructor
  · intro hspares id hid
    exact hspares last id htask hid
  · intro hall task' id htask' hid
    cases htask.symm.trans htask'
    exact hall id hid

theorem spares_storePayload_iff (h : Tidy w) (hstep : storePayload w c = some w') :
    SparesObjects settings w (.storePayload c) ↔ Tidy w' := by
  unfold storePayload at hstep
  split at hstep
  · next scheduleId row htask =>
    obtain rfl := Option.some.inj hstep
    refine iff_of_true (fun id read work htask' => ?_) (tidy_storeNew h htask)
    cases htask.symm.trans htask'
  · next scheduleId read work htask =>
    obtain rfl := Option.some.inj hstep
    exact spares_storeUpdate_iff h htask
  · cases hstep

theorem tidy_saveSchedule (h : Tidy w) (hstep : saveSchedule w c = some w') : Tidy w' := by
  unfold saveSchedule at hstep
  split at hstep
  · next scheduleId row htask =>
    obtain ⟨-, -, hstep⟩ := Option.bind_eq_some_iff.mp hstep
    obtain rfl := Option.some.inj hstep
    exact tidy_insertSchedule h htask
  · next scheduleId read work htask =>
    obtain ⟨schedules, hflush, hstep⟩ := Option.bind_eq_some_iff.mp hstep
    obtain rfl := Option.some.inj hstep
    refine tidy_task_of_free h (owed_task htask) rfl rfl (fun _ hkey => hkey) fun _ => ?_
    exact hasRow_schedules rfl fun id hrow => (Table.isSome_flush hflush id).trans hrow
  · cases hstep

/-- A task that owes nothing goes on, or ends. -/
theorem tidy_setTask_of_free {last : ScheduleTask} (h : Tidy w) (htask : w.tasks c = some last)
    (hfree : last.owes = []) : Tidy (w.setTask c task) :=
  tidy_task_of_free h ((owed_task htask).trans hfree) rfl rfl (fun _ hkey => hkey) fun _ hrow => hrow

/-- A task begins. -/
theorem tidy_setTask_of_none (h : Tidy w) (hnone : w.tasks c = none) : Tidy (w.setTask c task) :=
  tidy_task_of_free h (owed_task_none hnone) rfl rfl (fun _ hkey => hkey) fun _ hrow => hrow

theorem tidy_createSchedule {env : CallEnv} {request : CreateScheduledRunRequest} (h : Tidy w)
    (hstep : createSchedule settings cron adapter w c id env request = some w') : Tidy w' := by
  simp only [createSchedule, Option.bind_eq_bind, Option.bind_eq_some_iff, Option.guard_eq_some',
    Option.isNone_iff_eq_none, Option.some.injEq] at hstep
  obtain ⟨-, hnone, _, _, rfl⟩ := hstep
  exact tidy_setTask_of_none h hnone

theorem tidy_updateSchedule {env : CallEnv} {request : UpdateScheduledRunRequest}
    {current : RunInputPayload} (h : Tidy w)
    (hstep : updateSchedule settings cron w c id env request current = some w') : Tidy w' := by
  simp only [updateSchedule, Option.bind_eq_bind, Option.bind_eq_some_iff, Option.guard_eq_some',
    Option.isNone_iff_eq_none, Option.some.injEq] at hstep
  obtain ⟨-, hnone, ⟨_, _⟩, _, rfl⟩ := hstep
  exact tidy_setTask_of_none h hnone

theorem tidy_readSchedule (h : Tidy w) (hstep : readSchedule w c id = some w') : Tidy w' := by
  simp only [readSchedule, Option.bind_eq_bind, Option.bind_eq_some_iff, Option.guard_eq_some',
    Bool.and_eq_true, Option.isNone_iff_eq_none, Option.some.injEq] at hstep
  obtain ⟨-, ⟨hnone, -⟩, rfl⟩ := hstep
  exact tidy_setTask_of_none h hnone

theorem tidy_deleteInput {kept : List Text} (h : Tidy w) (hstep : deleteInput w c kept = some w') :
    Tidy w' := by
  unfold deleteInput at hstep
  split at hstep
  · next scheduleId htask =>
    obtain rfl := Option.some.inj hstep
    exact tidy_task_of_free h (owed_task htask) rfl rfl (fun _ hkey => List.mem_of_mem_filter hkey)
      fun _ hrow => hrow
  · cases hstep

theorem tidy_listSchedules (h : Tidy w) (hstep : listSchedules w c = some w') : Tidy w' := by
  simp only [listSchedules, Option.bind_eq_bind, Option.bind_eq_some_iff, Option.guard_eq_some',
    Option.isNone_iff_eq_none] at hstep
  obtain ⟨-, hnone, hstep⟩ := hstep
  split at hstep
  · exact Option.some.inj hstep ▸ h
  · obtain rfl := Option.some.inj hstep
    exact tidy_setTask_of_none h hnone

theorem tidy_deleteRows (h : Tidy w) (hstep : deleteRows w c = some w') : Tidy w' := by
  unfold deleteRows at hstep
  split at hstep
  · next ids htask =>
    obtain rfl := Option.some.inj hstep
    exact tidy_setTask_of_free h htask rfl
  · cases hstep

theorem tidy_cleanDone (h : Tidy w) (hstep : cleanDone w c = some w') : Tidy w' := by
  unfold cleanDone at hstep
  split at hstep
  · next htask =>
    obtain rfl := Option.some.inj hstep
    exact tidy_setTask_of_free h htask rfl
  · cases hstep

theorem spares_cleanNext_iff {kept : List Text} (h : Tidy w) (hstep : cleanNext w c kept = some w') :
    SparesObjects settings w (.cleanNext c kept) ↔ Tidy w' := by
  unfold cleanNext at hstep
  split at hstep
  · next scheduleId ids htask =>
    obtain rfl := Option.some.inj hstep
    exact spares_clean_iff h htask
  · cases hstep

/-- Outside the calls rows are only added, and nothing is stored. -/
theorem tidy_editSchedule {row : ScheduledRun} (h : Tidy w) (hstep : editSchedule w id row = some w') :
    Tidy w' := by
  simp only [editSchedule, Option.bind_eq_bind, Option.bind_eq_some_iff, Option.guard_eq_some',
    Option.some.injEq] at hstep
  obtain ⟨-, -, rfl⟩ := hstep
  exact h.mono (fun _ hkey => hkey) (fun _ => hasRow_schedules rfl fun _ hrow => isSome_insert hrow)
    fun k _ hk => Or.inr ⟨k, hk⟩

/-- A step keeps every stored object accounted for exactly if it spares the objects. -/
theorem sparesObjects_iff {a : Act} (h : Tidy w)
    (hstep : step settings parsers cron adapter w a = some w') :
    SparesObjects settings w a ↔ Tidy w' := by
  cases a with
  | run a =>
      obtain ⟨life, hlife, rfl⟩ := Option.map_eq_some_iff.mp hstep
      exact spares_run_iff h hlife
  | createSchedule c scheduleId env request => exact iff_of_true trivial (tidy_createSchedule h hstep)
  | updateSchedule c scheduleId env request current =>
      exact iff_of_true trivial (tidy_updateSchedule h hstep)
  | storePayload c => exact spares_storePayload_iff h hstep
  | saveSchedule c => exact iff_of_true trivial (tidy_saveSchedule h hstep)
  | readSchedule c scheduleId => exact iff_of_true trivial (tidy_readSchedule h hstep)
  | deleteInput c kept => exact iff_of_true trivial (tidy_deleteInput h hstep)
  | deleteSchedule c =>
      simp only [step, deleteSchedule] at hstep
      split at hstep
      · next scheduleId htask =>
        obtain ⟨-, -, hstep⟩ := Option.bind_eq_some_iff.mp hstep
        obtain rfl := Option.some.inj hstep
        exact spares_deleteSchedule_iff h htask
      · cases hstep
  | listSchedules c => exact iff_of_true trivial (tidy_listSchedules h hstep)
  | deleteRows c => exact iff_of_true trivial (tidy_deleteRows h hstep)
  | commitDelete c =>
      simp only [step, commitDelete] at hstep
      split at hstep
      · next ids rows htask =>
        obtain rfl := Option.some.inj hstep
        exact spares_commitDelete_iff h htask
      · cases hstep
  | cleanNext c kept => exact spares_cleanNext_iff h hstep
  | cleanDone c => exact iff_of_true trivial (tidy_cleanDone h hstep)
  | crash c =>
      simp only [step, crash, Option.bind_eq_bind, Option.bind_eq_some_iff, Option.guard_eq_some',
        Option.isSome_iff_exists, Option.some.injEq] at hstep
      obtain ⟨-, ⟨last, htask⟩, rfl⟩ := hstep
      exact spares_crash_iff h htask
  | editSchedule scheduleId row => exact iff_of_true trivial (tidy_editSchedule h hstep)
  | editTemplates templates =>
      obtain rfl := Option.some.inj hstep
      exact iff_of_true trivial (h.mono (fun _ hkey => hkey) (fun _ hrow => hrow)
        fun k _ hk => Or.inr ⟨k, hk⟩)

/-- Every object is accounted for in all states of an execution exactly if each of its steps spares the
objects. -/
theorem tidy_iff {acts : List Act} (h : Tidy w)
    (hexec : (system settings parsers cron adapter).exec w acts = some w') :
    (∀ before after u, acts = before ++ after →
        (system settings parsers cron adapter).exec w before = some u → Tidy u) ↔
      (system settings parsers cron adapter).Meets (SparesObjects settings) w acts :=
  System.always_iff_meets (I := fun _ => True) (fun _ _ => trivial)
    (fun _ hu hstep => sparesObjects_iff hu hstep) trivial h hexec

/-- Without a call in flight nothing is owed. -/
theorem Tidy.noOrphans (h : Tidy w) (hquiet : w.Quiet) : w.NoOrphans := by
  intro key hkey
  obtain ⟨id, howns⟩ := h.keyed key hkey
  refine ⟨id, howns, (h.accounted id ⟨key, hkey, howns⟩).resolve_right ?_⟩
  rintro ⟨k, hk⟩
  cases k with
  | run c =>
      rw [owed_run_none (hquiet.1 c)] at hk
      cases hk
  | task c =>
      rw [owed_task_none (hquiet.2 c)] at hk
      cases hk

theorem World.initial_tidy (profiles : Table Text Profile) (templates : Table Uuid RunTemplate) :
    Tidy (World.initial profiles templates) := by
  constructor
  · intro key hkey
    cases hkey
  · rintro id ⟨key, hkey, -⟩
    cases hkey

/-- In every execution whose steps spare the stored objects, every object of a state without a call in
flight lies under the id of a run or of a schedule. -/
theorem noOrphans_of_sparesObjects {profiles : Table Text Profile}
    {templates : Table Uuid RunTemplate} {acts : List Act}
    (hexec : (system settings parsers cron adapter).exec (World.initial profiles templates) acts =
      some w)
    (hspares : (system settings parsers cron adapter).Meets (SparesObjects settings)
      (World.initial profiles templates) acts) (hquiet : w.Quiet) : w.NoOrphans := by
  have htidy : Tidy w :=
    (tidy_iff (World.initial_tidy profiles templates) hexec).mpr hspares acts [] w (by simp) hexec
  exact htidy.noOrphans hquiet

/-- A run is created up to the commit of its row: its input is stored. -/
def untilCommit : List Act :=
  [.run (.createRead 0 1 Lifecycle.sampleRequest none 0), .run (.storeInput 0),
    .run (.startJob 0 .created 0)]

abbrev sampleSystem : System World Act := system {} Lifecycle.sampleParsers everyMinute noAdapter

abbrev sampleWorld : World := World.initial Lifecycle.sampleProfiles ∅

/-- Four steps of one call, of which the last ends it. -/
theorem calls_of_ended (first second third : Option Lifecycle.Call) (c : Nat) :
    Function.update (Function.update (Function.update (Function.update (fun _ => none) 0 first) 0
      second) 0 third) 0 none c = none := by
  rw [Function.update_idem, Function.update_idem, Function.update_idem]
  exact congrFun (Function.update_eq_self 0 fun _ => none) c

/-- The commit fails, and the encrypted input stays without a row. -/
theorem failedCommit_leaves_orphan :
    ∃ w, sampleSystem.exec sampleWorld (untilCommit ++ [.run (.crash 0)]) = some w ∧ w.Quiet ∧
      ¬w.NoOrphans := by
  refine ⟨_, rfl, ⟨calls_of_ended _ _ _, fun _ => rfl⟩, fun h => ?_⟩
  obtain ⟨id, -, hrow⟩ := h (Lifecycle.inputKey 1) List.mem_cons_self
  rcases hrow with hrow | hrow
  · cases hrow
  · cases hrow

/-- The commit succeeds. -/
theorem noOrphans_created : ∃ w,
    sampleSystem.exec sampleWorld (untilCommit ++ [.run (.insertCommit 0)]) = some w ∧
      w.NoOrphans := by
  obtain ⟨w, hexec, hquiet⟩ : ∃ w,
      sampleSystem.exec sampleWorld (untilCommit ++ [.run (.insertCommit 0)]) = some w ∧ w.Quiet := by
    refine ⟨_, rfl, ?_, fun _ => rfl⟩
    exact calls_of_ended _ _ _
  have hspares : sampleSystem.Meets (SparesObjects {}) sampleWorld
      (untilCommit ++ [.run (.insertCommit 0)]) := by
    refine ⟨trivial, fun _ _ => ⟨trivial, fun _ _ => ⟨?_, fun _ _ => ⟨trivial, fun _ _ => trivial⟩⟩⟩⟩
    intro runId run _ hqueue
    cases hqueue
  exact ⟨w, hexec, noOrphans_of_sparesObjects hexec hspares hquiet⟩

end PdeOperator.Storage
