import PdeOperator.LifecycleRows

/-! The cap on concurrent runs. `admit_once` counts the free slots before it locks any row, so a count
can be out of date when the rows are selected; and a delivery can bring an ended run back. As long as
neither takes a slot that is not free, no reachable state has more runs than the cap allows. -/

namespace PdeOperator.Lifecycle
open Base

variable {settings : Settings} {parsers : Parsers} {w w' : World} {id : Uuid}

/-- The rows that have a slot: those with a running Job, and those that an open admission has locked
to start one. -/
def slotsTaken (w : World) : Nat :=
  (w.runs.select fun id run => run.isTracked || (w.locks id).isSome).length

theorem activeCount_le_slotsTaken : QueueService.activeCount w.runs ≤ slotsTaken w := by
  refine Table.length_select_le [] fun id run hrow htracked => Or.inr ⟨run, hrow, ?_⟩
  rw [htracked, Bool.true_or]

/-- Nothing is locked between the calls. -/
theorem slotsTaken_of_unlocked (h : ∀ id, w.locks id = none) :
    slotsTaken w = QueueService.activeCount w.runs := by
  simp [slotsTaken, QueueService.activeCount, h]

/-- The rows that get a slot in a step: those that an admission selects, and the row of a run that had
ended and is brought back by a commit. -/
def gains (w : World) : Act → List Uuid
  | .admitSelect c _ =>
      match w.calls c with
      | some (.counted free) =>
          (QueueService.selectQueued w.runs (fun id => (w.locks id).isSome) free).map Prod.fst
      | _ => []
  | .commitRow c =>
      match w.calls c with
      | some (.writing _ _ [] row) =>
          match w.runs.lookup row.key with
          | some current =>
              if !current.isTracked && (writeBack row.read row.work current).isTracked then [row.key]
              else []
          | none => []
      | _ => []
  | _ => []

variable (settings) in
/-- The step hands out free slots only. -/
def TakesFreeSlots (w : World) (a : Act) : Prop :=
  gains w a ≠ [] → ((gains w a).length + slotsTaken w : Int) ≤ settings.maxConcurrentRuns

instance (w : World) (a : Act) : Decidable (TakesFreeSlots settings w a) :=
  inferInstanceAs (Decidable (_ → _))

/-- Locks belong to open admissions that have read the locked rows. -/
def LocksHeld (w : World) : Prop :=
  ∀ c id, w.locks id = some c → ∃ run, (id, run) ∈ heldIn w.calls c

theorem locksHeld_of_unlocked (h : ∀ id, w.locks id = none) : LocksHeld w := by
  intro c id hlock
  rw [h id] at hlock
  cases hlock

theorem LocksHeld.spawn (hinv : LocksHeld w) {c : Nat} {call : Call}
    (hlocks : w'.locks = w.locks) (hcalls : w'.calls = (w.spawn c call).calls)
    (hheld : call.held = heldIn w.calls c) : LocksHeld w' := by
  intro c' id hlock
  rw [hlocks] at hlock
  rw [hcalls, heldIn_spawn hheld]
  exact hinv c' id hlock

theorem LocksHeld.finish (hinv : LocksHeld w) {c : Nat} (hlocks : w'.locks = (w.finish c).locks)
    (hcalls : w'.calls = (w.finish c).calls) : LocksHeld w' := by
  intro c' id hlock
  rw [hlocks, finish_locks] at hlock
  split at hlock
  · cases hlock
  · next hother =>
    have hc : c' ≠ c := fun heq => hother (heq ▸ hlock)
    rw [hcalls, heldIn, finish_calls, Function.update_of_ne hc]
    exact hinv c' id hlock

theorem locksHeld_step {a : Act} (hinv : LocksHeld w)
    (h : step settings parsers w a = some w') : LocksHeld w' := by
  cases step_cases h with
  | readRow hcall | reconcileRead hcall | admitCount hcall | createRead hcall | retryRead hcall
  | deleteRead hcall => exact hinv.spawn rfl rfl (heldIn_of_none hcall).symm
  | putNext hcall | reconcileNext hcall | reconcileDelete hcall | retryLoad hcall | storeInput hcall
  | startLater hcall | startNow hcall | deleteObjects hcall =>
      exact hinv.spawn rfl rfl (heldIn_of_some hcall).symm
  | admitStart hcall | admitPass hcall =>
      refine hinv.spawn rfl rfl ?_
      exact (readRows_advance _ _ _ _ _).trans (heldIn_of_some hcall).symm
  | commitRow | reconcileNothing | reconcileCommit | admitNone | admitCommit | startRefused
  | startLost | insertCommit | deleteCommit | crash => exact hinv.finish rfl rfl
  | @admitSelect c now free queued hcall hqueued =>
      intro c' id hlock
      dsimp only at hlock ⊢
      split at hlock
      · next hmem =>
        obtain rfl := Option.some.inj hlock
        obtain ⟨⟨id, run⟩, hrow, rfl⟩ := List.mem_map.mp hmem
        refine ⟨run, ?_⟩
        rw [heldIn, spawn_calls, Function.update_self]
        exact hrow
      · obtain ⟨run, hheld⟩ := hinv c' id hlock
        have hc : c' ≠ c := by
          rintro rfl
          rw [heldIn_of_some hcall] at hheld
          exact absurd hheld List.not_mem_nil
        refine ⟨run, ?_⟩
        rw [heldIn, spawn_calls, Function.update_of_ne hc]
        exact hheld
  | jobEnds | editProfiles => exact hinv

/-- A locked row exists. -/
theorem lookup_of_locked (hsound : Sound settings parsers w) (hheld : LocksHeld w) {c : Nat}
    (hlock : w.locks id = some c) : ∃ run, w.runs.lookup id = some run := by
  obtain ⟨run, hmem⟩ := hheld c id hlock
  exact ⟨run, (hsound.consistent.held_row hmem).1⟩

/-- Only the selection of an admission locks rows. -/
theorem locks_step {a : Act} (h : step settings parsers w a = some w')
    (hlocked : (w'.locks id).isSome = true) :
    (w.locks id).isSome = true ∨ ∃ c now free, a = .admitSelect c now ∧
      w.calls c = some (.counted free) ∧ id ∈ (QueueService.selectQueued w.runs
        (fun id => (w.locks id).isSome) free).map Prod.fst := by
  have hfinish : ∀ {c : Nat}, ((w.finish c).locks id).isSome = true → (w.locks id).isSome = true := by
    intro c hsome
    rw [finish_locks] at hsome
    split at hsome
    · cases hsome
    · exact hsome
  cases step_cases h with
  | commitRow | reconcileNothing | reconcileCommit | admitNone | admitCommit | startRefused
  | startLost | insertCommit | deleteCommit | crash => exact Or.inl (hfinish hlocked)
  | admitSelect hcall hqueued =>
      dsimp only at hlocked
      split at hlocked
      · next hmem => exact Or.inr ⟨_, _, _, rfl, hcall, hqueued ▸ hmem⟩
      · exact Or.inl hlocked
  | _ => exact Or.inl hlocked

theorem gains_commitRow {c : Nat} {change : RunChange} {now : Instant} {read work current : Run}
    (hcall : w.calls c = some (.writing change now [] ⟨id, read, work⟩))
    (hrow : w.runs.lookup id = some current) (hbefore : current.isTracked = false)
    (hafter : (writeBack read work current).isTracked = true) : gains w (.commitRow c) = [id] := by
  simp [gains, hcall, hrow, hbefore, hafter]

theorem gains_admitSelect {c : Nat} {now : Instant} {free : Option Nat}
    (hcall : w.calls c = some (.counted free)) :
    gains w (.admitSelect c now) = (QueueService.selectQueued w.runs
      (fun id => (w.locks id).isSome) free).map Prod.fst := by
  simp [gains, hcall]

/-- The reconciler ends the runs whose rows it changes. -/
theorem reconcile_ends {now : Instant} {observed : JobObservation} {result : Reconciled}
    {read current : Run} (htracked : read.isTracked = true)
    (hresult : JobReconciler.reconcileRun settings now observed read = some result)
    (hdirty : result.run ≠ read) : (writeBack read result.run current).isTracked = false := by
  have hended := (JobReconciler.reconcileRun_ends hresult).resolve_left hdirty
  have hstatus : result.run.status ≠ read.status := by
    intro heq
    rw [Run.isTerminal, heq] at hended
    rw [Run.isTracked_iff, Run.isTerminal] at htracked
    rw [htracked.2] at hended
    cases hended
  have hterminal : (writeBack read result.run current).isTerminal = true := by
    rw [Run.isTerminal, Run.writeBack_status, column, if_neg hstatus]
    exact hended
  rw [Run.isTracked, hterminal, Bool.not_true, Bool.and_false]

theorem slotsTaken_step {a : Act} (hsync : settings.queueEnabled = true)
    (hsound : Sound settings parsers w) (hheld : LocksHeld w)
    (h : step settings parsers w a = some w') :
    slotsTaken w' ≤ slotsTaken w + (gains w a).length := by
  refine Table.length_select_le (gains w a) fun id next hnext hslot => ?_
  have hlocked : (w.locks id).isSome = true →
      ∃ run, w.runs.lookup id = some run ∧ (run.isTracked || (w.locks id).isSome) = true := by
    intro hsome
    obtain ⟨c, hc⟩ := Option.isSome_iff_exists.mp hsome
    obtain ⟨run, hrun⟩ := lookup_of_locked hsound hheld hc
    exact ⟨run, hrun, by rw [hsome, Bool.or_true]⟩
  rw [Bool.or_eq_true] at hslot
  rcases hslot with htracked | hlock
  · cases rowStep_of_step hsound h id with
    | same hrow => exact Or.inr ⟨next, hrow ▸ hnext, by rw [htracked, Bool.true_or]⟩
    | change hcall happly hfree hrow =>
        rw [hnext] at hrow
        obtain ⟨current, hcurrent, rfl⟩ := Option.map_eq_some_iff.mp hrow.symm
        cases hbefore : current.isTracked with
        | true => exact Or.inr ⟨current, hcurrent, by rw [hbefore, Bool.true_or]⟩
        | false =>
            rw [gains_commitRow hcall hcurrent hbefore htracked]
            exact Or.inl List.mem_cons_self
    | reconcile hcall hmem hread hresult hwork hdirty hfree hrow =>
        rw [hnext] at hrow
        obtain ⟨current, hcurrent, rfl⟩ := Option.map_eq_some_iff.mp hrow.symm
        subst hwork
        rw [reconcile_ends hread hresult hdirty] at htracked
        cases htracked
    | start hcall hmem hqueued hwork hlock hold hrow =>
        exact Or.inr (hlocked (by rw [hlock]; rfl))
    | insert hcall hvalid hold hrow =>
        obtain rfl := Option.some.inj (hrow.symm.trans hnext)
        rcases hvalid with hqueued | ⟨hoff, -⟩
        · rw [Run.isTracked, (Run.isQueued_iff.mp hqueued).2] at htracked
          cases htracked
        · rw [hsync] at hoff
          cases hoff
    | erase hfree hrow =>
        rw [hrow] at hnext
        cases hnext
  · rcases locks_step h hlock with hbefore | ⟨c, now, free, rfl, hcall, hmem⟩
    · exact Or.inr (hlocked hbefore)
    · rw [gains_admitSelect hcall]
      exact Or.inl hmem

/-- A count that is still right when the rows are selected hands out free slots only. -/
theorem takesFreeSlots_of_upToDate {c : Nat} {now : Instant} (hmax : 0 < settings.maxConcurrentRuns)
    (hcall : w.calls c = some (.counted (QueueService.freeSlots settings w.runs)))
    (hunlocked : ∀ id, w.locks id = none)
    (hwithin : (QueueService.activeCount w.runs : Int) ≤ settings.maxConcurrentRuns) :
    TakesFreeSlots settings w (.admitSelect c now) := by
  intro _
  have hfree : QueueService.freeSlots settings w.runs =
      some (settings.maxConcurrentRuns - QueueService.activeCount w.runs).toNat := by
    rw [QueueService.freeSlots, if_neg (by omega)]
  rw [gains_admitSelect hcall, slotsTaken_of_unlocked hunlocked, hfree, List.length_map]
  have hlimit : (QueueService.selectQueued w.runs (fun id => (w.locks id).isSome)
      (some (settings.maxConcurrentRuns - QueueService.activeCount w.runs).toNat)).length ≤
      (settings.maxConcurrentRuns - QueueService.activeCount w.runs).toNat :=
    List.length_take_le _ _
  omega

/-- Of the changes of one row only the delivery of a status can bring a run back. -/
theorem takesFreeSlots_of_notDelivery {c : Nat} {change : RunChange} {now : Instant}
    {row : Tracked Uuid Run} (hsound : Sound settings parsers w)
    (hcall : w.calls c = some (.writing change now [] row))
    (hchange : ∀ status, change ≠ .deliverStatus status) :
    TakesFreeSlots settings w (.commitRow c) := by
  obtain ⟨id, read, work⟩ := row
  intro hgains
  refine absurd ?_ hgains
  have happly : change.apply parsers now id read = .ok work := hsound.valid c _ hcall
  have hname := RunChange.apply_k8sJobName happly
  have hstatus : work.status = read.status ∨ work.isTerminal = true := by
    cases change with
    | cancelRun =>
        obtain ⟨-, ⟨-, rfl⟩ | ⟨-, rfl⟩⟩ := RunService.cancelRun_ok happly
        · exact Or.inr rfl
        · exact Or.inl rfl
    | deliverStatus status => exact absurd rfl (hchange status)
    | deliverReport data =>
        cases happly
        exact Or.inl (RunService.deliverReport_same data).status
    | deliverLog =>
        cases happly
        exact Or.inl rfl
    | uploadArtifacts uploads =>
        cases happly
        exact Or.inl (RunService.uploadArtifacts_same id uploads).status
  simp only [gains, hcall]
  cases hrow : w.runs.lookup id with
  | none => rfl
  | some current =>
      apply if_neg
      intro hback
      rw [Bool.and_eq_true, Bool.not_eq_true', Run.isTracked, Run.isTracked, Run.isTerminal,
        Run.isTerminal, Run.writeBack_k8sJobName, hname, column_clean, Run.writeBack_status] at hback
      obtain ⟨hbefore, hafter⟩ := hback
      rcases hstatus with hsame | hended
      · rw [hsame, column_clean, hbefore] at hafter
        cases hafter
      · rcases column_eq_or read.status work.status current.status with heq | heq
        · rw [heq, hbefore] at hafter
          cases hafter
        · rw [heq] at hafter
          rw [Run.isTerminal] at hended
          rw [hended, Bool.not_true, Bool.and_false] at hafter
          cases hafter

variable (settings parsers) in
structure WithinCap (w : World) : Prop where
  sound : Sound settings parsers w
  held : LocksHeld w
  slots : (slotsTaken w : Int) ≤ settings.maxConcurrentRuns

theorem withinCap_step {a : Act} (hsync : settings.queueEnabled = true)
    (hinv : WithinCap settings parsers w) (hok : TakesFreeSlots settings w a)
    (h : step settings parsers w a = some w') : WithinCap settings parsers w' := by
  refine ⟨sound_step hinv.sound h, locksHeld_step hinv.held h, ?_⟩
  have hgrow := slotsTaken_step hsync hinv.sound hinv.held h
  have hslots := hinv.slots
  by_cases hnone : gains w a = []
  · rw [hnone, List.length_nil] at hgrow
    omega
  · have hfit := hok hnone
    omega

/-- With the queue on, and from a state within the cap, no execution whose steps all hand out free
slots only has more active runs than the cap allows in any state. -/
theorem activeCount_le_cap {acts : List Act} (hqueue : settings.queueEnabled = true)
    (hidle : Idle w)
    (hstart : (QueueService.activeCount w.runs : Int) ≤ settings.maxConcurrentRuns)
    (hok : (system settings parsers).Meets (TakesFreeSlots settings) w acts)
    (hexec : (system settings parsers).exec w acts = some w') :
    (QueueService.activeCount w'.runs : Int) ≤ settings.maxConcurrentRuns := by
  have hinit : WithinCap settings parsers w :=
    ⟨hidle.sound, locksHeld_of_unlocked hidle.unlocked, by rwa [slotsTaken_of_unlocked hidle.unlocked]⟩
  have hend := (system settings parsers).exec_invariant (I := WithinCap settings parsers)
    (fun hi hstep hs => withinCap_step hqueue hi hstep hs) hinit hok hexec
  have hle : QueueService.activeCount w'.runs ≤ slotsTaken w' := activeCount_le_slotsTaken
  have hslots := hend.slots
  omega

/-- One run at a time. -/
def oneAtATime : Settings := { maxConcurrentRuns := 1 }

def twoQueuedRuns : List Act := createAlone 0 1 sampleRequest 0 ++ createAlone 0 2 sampleRequest 1

/-- Both workers count the free slot before either of them locks a row; then each starts a run. -/
def countedTwice : List Act :=
  twoQueuedRuns ++ [.admitCount 1, .admitCount 2, .admitSelect 1 2, .admitSelect 2 2,
    .admitNext 1 .created, .admitNext 2 .created, .admitCommit 1, .admitCommit 2]

/-- Two workers can start two runs in the same slot. -/
theorem countedTwice_exceeds_cap :
    ¬∀ (settings : Settings) (parsers : Parsers) (profiles : Table Text Profile) (acts : List Act)
        (w : World), settings.queueEnabled = true → 0 < settings.maxConcurrentRuns →
      (system settings parsers).exec (World.initial profiles) acts = some w →
      (QueueService.activeCount w.runs : Int) ≤ settings.maxConcurrentRuns := by
  intro h
  have hcount : ((system oneAtATime sampleParsers).exec sampleWorld countedTwice).map
      (fun w => QueueService.activeCount w.runs) = some 2 := by
    decide
  obtain ⟨w, hexec, htwo⟩ := Option.map_eq_some_iff.mp hcount
  have hle := h oneAtATime sampleParsers sampleProfiles countedTwice w rfl (by decide) hexec
  rw [htwo] at hle
  exact absurd hle (by decide)

/-- The result for a worker that finds two queued runs and one free slot. -/
theorem activeCount_le_cap_oneWorker :
    ∃ w, (system oneAtATime sampleParsers).exec sampleWorld (twoQueuedRuns ++ admitAlone 1 2) = some w ∧
      (QueueService.activeCount w.runs : Int) ≤ oneAtATime.maxConcurrentRuns := by
  have hexec : ((system oneAtATime sampleParsers).exec sampleWorld
      (twoQueuedRuns ++ admitAlone 1 2)).isSome = true := by
    decide
  obtain ⟨w, hw⟩ := Option.isSome_iff_exists.mp hexec
  exact ⟨w, hw, activeCount_le_cap rfl (World.initial_idle _) (by decide) (by decide) hw⟩

end PdeOperator.Lifecycle
