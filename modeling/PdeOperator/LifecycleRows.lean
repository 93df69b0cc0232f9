import PdeOperator.LifecycleCalls

/-! Row locks and run ids: a locked row keeps its version until the holder commits, an id is inserted
at most once, and a single step changes a row in one of six ways. -/

namespace PdeOperator.Lifecycle
open Base

variable {settings : Settings} {parsers : Parsers}

def heldIn (calls : Nat → Option Call) (c : Nat) : List (Uuid × Run) :=
  ((calls c).map Call.held).getD []

def newIdIn (calls : Nat → Option Call) (c : Nat) : Option Uuid := (calls c).bind Call.newId

variable {calls : Nat → Option Call} {c : Nat} {call : Call}

theorem heldIn_of_none (h : calls c = none) : heldIn calls c = [] := by rw [heldIn, h]; rfl

theorem newIdIn_of_none (h : calls c = none) : newIdIn calls c = none := by rw [newIdIn, h]; rfl

theorem heldIn_of_some (h : calls c = some call) : heldIn calls c = call.held := by
  rw [heldIn, h]
  rfl

theorem newIdIn_of_some (h : calls c = some call) : newIdIn calls c = call.newId := by
  rw [newIdIn, h]
  rfl

/-- A call that has just ended holds nothing and inserts nothing. -/
theorem ne_of_newIdIn_finish {w : World} {c' : Nat} {id : Uuid}
    (h : newIdIn (w.finish c).calls c' = some id) : c' ≠ c ∧ newIdIn w.calls c' = some id := by
  by_cases hc : c' = c
  · subst hc
    rw [newIdIn, finish_calls, Function.update_self] at h
    cases h
  · rw [newIdIn, finish_calls, Function.update_of_ne hc] at h
    exact ⟨hc, h⟩

theorem ne_of_heldIn_finish {w : World} {c' : Nat} {x : Uuid × Run}
    (h : x ∈ heldIn (w.finish c).calls c') : c' ≠ c ∧ x ∈ heldIn w.calls c' := by
  by_cases hc : c' = c
  · subst hc
    rw [heldIn, finish_calls, Function.update_self] at h
    exact absurd h List.not_mem_nil
  · rw [heldIn, finish_calls, Function.update_of_ne hc] at h
    exact ⟨hc, h⟩

theorem heldIn_spawn {w : World} (hheld : call.held = heldIn w.calls c) (c' : Nat) :
    heldIn (w.spawn c call).calls c' = heldIn w.calls c' := by
  by_cases hc : c' = c
  · subst hc
    rw [← hheld]
    exact heldIn_of_some (by rw [spawn_calls, Function.update_self])
  · rw [heldIn, heldIn, spawn_calls, Function.update_of_ne hc]

theorem newIdIn_spawn {w : World} (hnew : call.newId = newIdIn w.calls c) (c' : Nat) :
    newIdIn (w.spawn c call).calls c' = newIdIn w.calls c' := by
  by_cases hc : c' = c
  · subst hc
    rw [← hnew]
    exact newIdIn_of_some (by rw [spawn_calls, Function.update_self])
  · rw [newIdIn, newIdIn, spawn_calls, Function.update_of_ne hc]

/-! ### The invariant -/

structure Consistent (w : World) : Prop where
  issued_row : ∀ {id}, (w.runs.lookup id).isSome = true → id ∈ w.issued
  issued_new : ∀ {c id}, newIdIn w.calls c = some id → id ∈ w.issued ∧ w.runs.lookup id = none
  new_unique : ∀ {c c' id}, newIdIn w.calls c = some id → newIdIn w.calls c' = some id → c = c'
  held_row : ∀ {c id run}, (id, run) ∈ heldIn w.calls c →
    w.runs.lookup id = some run ∧ w.locks id = some c

variable {w w' : World}

/-- A call goes on without touching rows, locks and ids. -/
theorem Consistent.goOn (hinv : Consistent w) (hruns : w'.runs = w.runs)
    (hissued : w'.issued = w.issued) (hlocks : w'.locks = w.locks)
    (hcalls : w'.calls = (w.spawn c call).calls) (hheld : call.held = heldIn w.calls c)
    (hnew : call.newId = newIdIn w.calls c) : Consistent w' where
  issued_row h := by
    rw [hruns] at h
    exact hissued ▸ hinv.issued_row h
  issued_new h := by
    rw [hcalls, newIdIn_spawn hnew] at h
    rw [hissued, hruns]
    exact hinv.issued_new h
  new_unique h h' := by
    rw [hcalls, newIdIn_spawn hnew] at h h'
    exact hinv.new_unique h h'
  held_row h := by
    rw [hcalls, heldIn_spawn hheld] at h
    rw [hruns, hlocks]
    exact hinv.held_row h

/-- A call ends and leaves the rows that other calls hold as they are. -/
theorem Consistent.release (hinv : Consistent w) (c : Nat) (hissued : w'.issued = w.issued)
    (hlocks : w'.locks = (w.finish c).locks) (hcalls : w'.calls = (w.finish c).calls)
    (hsome : ∀ id, (w'.runs.lookup id).isSome = true →
      (w.runs.lookup id).isSome = true ∨ newIdIn w.calls c = some id)
    (hheld : ∀ {c' id run}, c' ≠ c → w.runs.lookup id = some run → w.locks id = some c' →
      w'.runs.lookup id = w.runs.lookup id) :
    Consistent w' where
  issued_row h := by
    rw [hissued]
    rcases hsome _ h with hrow | hnew
    · exact hinv.issued_row hrow
    · exact (hinv.issued_new hnew).1
  issued_new h := by
    rw [hcalls] at h
    obtain ⟨hc, hold⟩ := ne_of_newIdIn_finish h
    obtain ⟨hid, hnone⟩ := hinv.issued_new hold
    refine ⟨hissued ▸ hid, Option.not_isSome_iff_eq_none.mp fun hrow => ?_⟩
    rcases hsome _ hrow with hrow | hnew
    · rw [hnone] at hrow
      cases hrow
    · exact hc (hinv.new_unique hold hnew)
  new_unique h h' := by
    rw [hcalls] at h h'
    exact hinv.new_unique (ne_of_newIdIn_finish h).2 (ne_of_newIdIn_finish h').2
  held_row h := by
    rw [hcalls] at h
    obtain ⟨hc, hold⟩ := ne_of_heldIn_finish h
    obtain ⟨hrow, hlock⟩ := hinv.held_row hold
    refine ⟨(hheld hc hrow hlock).trans hrow, ?_⟩
    rw [hlocks, finish_locks, if_neg fun heq => hc (Option.some.inj (hlock.symm.trans heq)), hlock]

theorem Consistent.finish (hinv : Consistent w) (c : Nat) : Consistent (w.finish c) :=
  hinv.release c rfl rfl rfl (fun _ h => Or.inl h) fun _ _ _ => rfl

/-- A call takes a new id. -/
theorem Consistent.issue (hinv : Consistent w) {runId : Uuid} (hnone : w.calls c = none)
    (hfresh : runId ∉ w.issued) (hheld : call.held = []) (hnew : call.newId = some runId) :
    Consistent { w.spawn c call with issued := runId :: w.issued } where
  issued_row h := List.mem_cons_of_mem _ (hinv.issued_row h)
  issued_new {c' id} h := by
    by_cases hc : c' = c
    · subst hc
      have hid : some runId = some id := by
        calc some runId = call.newId := hnew.symm
          _ = newIdIn (w.spawn c' call).calls c' := (newIdIn_of_some (by simp [spawn_calls])).symm
          _ = some id := h
      obtain rfl := Option.some.inj hid
      refine ⟨List.mem_cons_self, Option.not_isSome_iff_eq_none.mp fun hrow => ?_⟩
      exact hfresh (hinv.issued_row hrow)
    · have hold : newIdIn w.calls c' = some id := by
        rwa [newIdIn, spawn_calls, Function.update_of_ne hc] at h
      exact ⟨List.mem_cons_of_mem _ (hinv.issued_new hold).1, (hinv.issued_new hold).2⟩
  new_unique {c₁ c₂ id} h₁ h₂ := by
    have hcases : ∀ c', newIdIn (w.spawn c call).calls c' = some id →
        (c' = c ∧ id = runId) ∨ newIdIn w.calls c' = some id := by
      intro c' h
      by_cases hc : c' = c
      · subst hc
        rw [newIdIn, spawn_calls, Function.update_self, Option.bind_some, hnew] at h
        exact Or.inl ⟨rfl, (Option.some.inj h).symm⟩
      · rw [newIdIn, spawn_calls, Function.update_of_ne hc] at h
        exact Or.inr h
    rcases hcases c₁ h₁ with ⟨rfl, rfl⟩ | hold₁
    · rcases hcases c₂ h₂ with ⟨rfl, -⟩ | hold₂
      · rfl
      · exact absurd (hinv.issued_new hold₂).1 hfresh
    · rcases hcases c₂ h₂ with ⟨rfl, rfl⟩ | hold₂
      · exact absurd (hinv.issued_new hold₁).1 hfresh
      · exact hinv.new_unique hold₁ hold₂
  held_row h := hinv.held_row (heldIn_spawn (hheld.trans (heldIn_of_none hnone).symm) _ ▸ h)

/-- The queue worker locks the rows it selects. -/
theorem Consistent.lockSelected (hinv : Consistent w) {free : Option Nat} {now : Instant}
    {queued : List (Uuid × Run)} (hcall : w.calls c = some (.counted free))
    (hqueued : queued = QueueService.selectQueued w.runs (fun id => (w.locks id).isSome) free) :
    Consistent { w.spawn c (.admitting now queued [] 0) with
      locks := fun id => if id ∈ queued.map Prod.fst then some c else w.locks id } := by
  have hnew : ∀ c', newIdIn (w.spawn c (.admitting now queued [] 0)).calls c' =
      newIdIn w.calls c' := newIdIn_spawn (newIdIn_of_some hcall).symm
  refine ⟨fun h => hinv.issued_row h, fun h => hinv.issued_new ((hnew _).symm.trans h),
    fun h h' => hinv.new_unique ((hnew _).symm.trans h) ((hnew _).symm.trans h'), ?_⟩
  intro c' id run h
  dsimp only
  by_cases hc : c' = c
  · subst hc
    rw [heldIn, spawn_calls, Function.update_self] at h
    have hmem : (id, run) ∈ queued := h
    rw [if_pos (List.mem_map_of_mem hmem)]
    exact ⟨(QueueService.mem_selectQueued (hqueued ▸ hmem)).1, rfl⟩
  · rw [heldIn, spawn_calls, Function.update_of_ne hc] at h
    obtain ⟨hrow, hlock⟩ := hinv.held_row h
    refine ⟨hrow, ?_⟩
    rw [if_neg, hlock]
    intro hmem
    obtain ⟨x, hx, rfl⟩ := List.mem_map.mp hmem
    have hfree := (QueueService.mem_selectQueued (hqueued ▸ hx)).2.2
    rw [hlock] at hfree
    cases hfree

/-- A write-back of an unchanged copy leaves every row as it is. -/
theorem lookup_flush_of_clean {runs runs' : Table Uuid Run} {row : Tracked Uuid Run}
    (h : runs.flush row = some runs') (hclean : row.work = row.read) (id : Uuid) :
    runs'.lookup id = runs.lookup id := by
  rw [Table.flush, if_pos hclean, Option.some.injEq] at h
  rw [h]

/-- A flush leaves a row alone when every copy of it is unchanged. -/
theorem lookup_flushAll_of_clean {runs runs' : Table Uuid Run} {rows : List (Tracked Uuid Run)}
    {id : Uuid} (h : runs.flushAll rows = some runs')
    (hclean : ∀ row ∈ rows, row.key = id → row.work = row.read) :
    runs'.lookup id = runs.lookup id := by
  induction rows generalizing runs with
  | nil =>
      cases h
      rfl
  | cons row rows ih =>
      obtain ⟨mid, hmid, hrest⟩ := Option.bind_eq_some_iff.mp h
      rw [ih hrest fun other hother => hclean other (List.mem_cons_of_mem _ hother)]
      by_cases hid : id = row.key
      · exact lookup_flush_of_clean hmid (hclean row List.mem_cons_self hid.symm) id
      · exact Table.lookup_flush_of_ne hmid hid

theorem Consistent.held_eq (hinv : Consistent w) (hcall : w.calls c = some call) {id : Uuid}
    {run : Run} (hmem : (id, run) ∈ call.held) :
    w.runs.lookup id = some run ∧ w.locks id = some c :=
  hinv.held_row (heldIn_of_some hcall ▸ hmem)

/-- Every step keeps the locks and ids consistent. -/
theorem consistent_step {a : Act} (hinv : Consistent w)
    (h : step settings parsers w a = some w') : Consistent w' := by
  cases step_cases h with
  | readRow hcall | reconcileRead hcall | admitCount hcall | deleteRead hcall =>
      exact hinv.goOn rfl rfl rfl rfl (heldIn_of_none hcall).symm (newIdIn_of_none hcall).symm
  | putNext hcall | reconcileNext hcall | reconcileDelete hcall | retryLoad hcall | storeInput hcall
  | startLater hcall | startNow hcall | deleteObjects hcall =>
      exact hinv.goOn rfl rfl rfl rfl (heldIn_of_some hcall).symm (newIdIn_of_some hcall).symm
  | admitStart hcall | admitPass hcall =>
      exact hinv.goOn rfl rfl rfl rfl
        ((readRows_advance _ _ _ _ _).trans (heldIn_of_some hcall).symm)
        (newIdIn_of_some hcall).symm
  | createRead hcall hfresh | retryRead hcall hfresh => exact hinv.issue hcall hfresh rfl rfl
  | admitSelect hcall hqueued => exact hinv.lockSelected hcall hqueued
  | commitRow hcall hlock hflush =>
      refine hinv.release _ rfl rfl rfl (fun id hid => Or.inl (Table.isSome_flush hflush id ▸ hid)) ?_
      intro c' id run _ _ hid
      rcases hlock with hclean | hfree
      · exact lookup_flush_of_clean hflush hclean id
      · apply Table.lookup_flush_of_ne hflush
        intro heq
        rw [heq, hfree] at hid
        cases hid
  | reconcileCommit hcall hlock hflush =>
      refine hinv.release _ rfl rfl rfl (fun id hid => Or.inl (Table.isSome_flushAll hflush id ▸ hid)) ?_
      intro c' id run _ _ hid
      apply lookup_flushAll_of_clean hflush
      intro row hrow hkey
      rcases hlock row hrow with hclean | hfree
      · exact hclean
      · rw [hkey, hid] at hfree
        cases hfree
  | admitCommit hcall hflush =>
      refine hinv.release _ rfl rfl rfl (fun id hid => Or.inl (Table.isSome_flushAll hflush id ▸ hid)) ?_
      intro c' id run hc _ hid
      apply Table.lookup_flushAll_of_notMem hflush
      intro hmem
      obtain ⟨t, ht, rfl⟩ := List.mem_map.mp hmem
      have hlock := (hinv.held_eq hcall (mem_readRows ht)).2
      exact hc (Option.some.inj (hid.symm.trans hlock))
  | @insertCommit c runId new hcall hnone =>
      have hnew : newIdIn w.calls c = some runId := newIdIn_of_some hcall
      refine hinv.release c rfl rfl rfl (fun id hid => ?_) fun {c' id run} _ hrow _ => ?_
      · by_cases heq : id = runId
        · exact Or.inr (heq ▸ hnew)
        · exact Or.inl (by rwa [finish_runs, AList.lookup_insert_ne heq] at hid)
      · apply AList.lookup_insert_ne
        intro heq
        rw [heq, hnone] at hrow
        cases hrow
  | @deleteCommit c runId hcall hfree =>
      refine hinv.release c rfl rfl rfl (fun id hid => Or.inl ?_) fun {c' id run} _ _ hlock => ?_
      · by_cases heq : id = runId
        · rw [heq, finish_runs, AList.lookup_erase] at hid
          cases hid
        · rwa [finish_runs, AList.lookup_erase_ne heq] at hid
      · apply AList.lookup_erase_ne
        intro heq
        rw [heq, hfree] at hlock
        cases hlock
  | startLost => exact hinv.release _ rfl rfl rfl (fun _ hid => Or.inl hid) fun _ _ _ => rfl
  | reconcileNothing | admitNone | startRefused | crash => exact hinv.finish _
  | jobEnds | editProfiles => exact ⟨hinv.1, hinv.2, hinv.3, hinv.4⟩

variable (settings parsers) in
structure Sound (w : World) : Prop where
  consistent : Consistent w
  valid : AllValid settings parsers w.calls

theorem sound_step {a : Act} (hinv : Sound settings parsers w)
    (h : step settings parsers w a = some w') : Sound settings parsers w' :=
  ⟨consistent_step hinv.consistent h, allValid_step hinv.valid h⟩

theorem sound_exec {acts : List Act} (hinv : Sound settings parsers w)
    (h : (system settings parsers).exec w acts = some w') : Sound settings parsers w' :=
  System.exec_invariant_of_forall sound_step hinv h

/-- A step changes its own call only. -/
theorem calls_step {a : Act} (hvalid : AllValid settings parsers w.calls)
    (h : step settings parsers w a = some w') (hc : a.call ≠ some c) : w'.calls c = w.calls c := by
  have hupdate : ∀ {c' : Nat} {next : Option Call}, a.call = some c' →
      w'.calls = Function.update w.calls c' next → w'.calls c = w.calls c := by
    intro c' next hact hcalls
    rw [hcalls, Function.update_of_ne]
    rintro rfl
    exact hc hact
  cases callStep_of_step hvalid h with
  | begins hact hnone hcalls => exact hupdate hact hcalls
  | issues hact hnone hcalls => exact hupdate hact hcalls
  | goesOn hact hcall hcalls => exact hupdate hact hcalls
  | locks hact hcall hcalls => exact hupdate hact hcalls
  | ends hact hcall hcalls => exact hupdate hact hcalls
  | outside hact hcalls hissued => rw [hcalls]

theorem calls_exec {acts : List Act} (hsound : Sound settings parsers w)
    (hc : ∀ a ∈ acts, a.call ≠ some c) (h : (system settings parsers).exec w acts = some w') :
    w'.calls c = w.calls c :=
  (System.exec_invariant
    (I := fun w' => Sound settings parsers w' ∧ w'.calls c = w.calls c)
    (fun hi hok hs => ⟨sound_step hi.1 hs, (calls_step hi.1.valid hs hok).trans hi.2⟩)
    ⟨hsound, rfl⟩ (System.meets_of_forall (p := fun a : Act => a.call ≠ some c) w hc) h).2

/-- No call is in flight and no row is locked; the ids of the rows have been issued. -/
structure Idle (w : World) : Prop where
  quiet : w.Quiet
  unlocked : ∀ id, w.locks id = none
  issued : ∀ id, (w.runs.lookup id).isSome = true → id ∈ w.issued

theorem Idle.sound (h : Idle w) : Sound settings parsers w where
  consistent :=
    { issued_row := fun hrow => h.issued _ hrow
      issued_new := fun {c id} hnew => by
        rw [newIdIn_of_none (h.quiet c)] at hnew
        cases hnew
      new_unique := fun {c _ _} hnew _ => by
        rw [newIdIn_of_none (h.quiet c)] at hnew
        cases hnew
      held_row := fun {c _ _} hheld => by
        rw [heldIn_of_none (h.quiet c)] at hheld
        exact absurd hheld List.not_mem_nil }
  valid c call hcall := by
    rw [h.quiet c] at hcall
    cases hcall

theorem World.initial_idle (profiles : Table Text Profile) : Idle (World.initial profiles) where
  quiet _ := rfl
  unlocked _ := rfl
  issued id h := by
    rw [World.initial, AList.lookup_empty] at h
    cases h

/-- An id that no call is going to insert any more. -/
def Taken (w : World) (id : Uuid) : Prop := id ∈ w.issued ∧ ∀ c, newIdIn w.calls c ≠ some id

theorem Consistent.taken (hinv : Consistent w) {id : Uuid} {run : Run}
    (hrow : w.runs.lookup id = some run) : Taken w id := by
  refine ⟨hinv.issued_row (by rw [hrow]; rfl), fun c hnew => ?_⟩
  rw [(hinv.issued_new hnew).2] at hrow
  cases hrow

/-- An id that is taken stays taken. -/
theorem taken_step {a : Act} {id : Uuid} (hvalid : AllValid settings parsers w.calls)
    (hinv : Taken w id) (h : step settings parsers w a = some w') : Taken w' id := by
  cases callStep_of_step hvalid h with
  | begins hact hnone hcalls hissued hnew hheld hread hnames hdelivers =>
      refine ⟨hissued ▸ hinv.1, fun c' => ?_⟩
      rw [hcalls, newIdIn_spawn (hnew.trans (newIdIn_of_none hnone).symm)]
      exact hinv.2 c'
  | @issues c call runId hact hnone hcalls hissued hfresh hnew hheld hread hwork hdelivers =>
      refine ⟨hissued ▸ List.mem_cons_of_mem _ hinv.1, fun c' hnew' => ?_⟩
      rw [hcalls] at hnew'
      by_cases hc : c' = c
      · subst hc
        rw [newIdIn, spawn_calls, Function.update_self, Option.bind_some, hnew,
          Option.some.injEq] at hnew'
        exact hfresh (hnew' ▸ hinv.1)
      · rw [newIdIn, spawn_calls, Function.update_of_ne hc] at hnew'
        exact hinv.2 c' hnew'
  | goesOn hact hcall hcalls hissued hnew hheld hread hwork hnames hdelivers =>
      refine ⟨hissued ▸ hinv.1, fun c' => ?_⟩
      rw [hcalls, newIdIn_spawn (hnew.trans (newIdIn_of_some hcall).symm)]
      exact hinv.2 c'
  | locks hact hcall hcalls hissued hnew hheld hread hwork hdelivers =>
      refine ⟨hissued ▸ hinv.1, fun c' => ?_⟩
      rw [hcalls, newIdIn_spawn (hnew.trans (newIdIn_of_some hcall).symm)]
      exact hinv.2 c'
  | ends hact hcall hcalls hissued hwritten =>
      refine ⟨hissued ▸ hinv.1, fun c' hnew' => ?_⟩
      rw [hcalls] at hnew'
      exact hinv.2 c' (ne_of_newIdIn_finish hnew').2
  | outside hact hcalls hissued => exact ⟨hissued ▸ hinv.1, hcalls ▸ hinv.2⟩

variable (settings parsers) in
/-- How a step changes the row of an id. Only the six commits write rows. -/
inductive RowStep (w w' : World) (id : Uuid) : Act → Prop
  | same {a : Act} (hrow : w'.runs.lookup id = w.runs.lookup id) : RowStep w w' id a
  | change {c : Nat} {change : RunChange} {now : Instant} {read work : Run}
      (hcall : w.calls c = some (.writing change now [] ⟨id, read, work⟩))
      (happly : change.apply parsers now id read = .ok work) (hfree : w.locks id = none)
      (hrow : w'.runs.lookup id = (w.runs.lookup id).map (writeBack read work)) :
      RowStep w w' id (.commitRow c)
  | reconcile {c : Nat} {now : Instant} {done : List (Tracked Uuid Run)} {updated : Nat}
      {read work : Run} {observed : JobObservation} {result : Reconciled}
      (hcall : w.calls c = some (.reconciling now [] done updated)) (hmem : ⟨id, read, work⟩ ∈ done)
      (htracked : read.isTracked = true)
      (hresult : JobReconciler.reconcileRun settings now observed read = some result)
      (hwork : work = result.run) (hdirty : work ≠ read) (hfree : w.locks id = none)
      (hrow : w'.runs.lookup id = (w.runs.lookup id).map (writeBack read work)) :
      RowStep w w' id (.reconcileCommit c)
  | start {c : Nat} {now : Instant} {done : List (Tracked Uuid Run)} {started : Nat}
      {read work : Run} {profile : Option Profile} {outcome : JobOutcome}
      (hcall : w.calls c = some (.admitting now [] done started)) (hmem : ⟨id, read, work⟩ ∈ done)
      (hqueued : read.isQueued = true)
      (hwork : work = QueueService.admitRun now id profile outcome read)
      (hlock : w.locks id = some c) (hold : w.runs.lookup id = some read)
      (hrow : w'.runs.lookup id = some work) : RowStep w w' id (.admitCommit c)
  | insert {c : Nat} {run : Run} (hcall : w.calls c = some (.creating id run .insert))
      (hvalid : (Call.creating id run .insert).Valid settings parsers)
      (hold : w.runs.lookup id = none) (hrow : w'.runs.lookup id = some run) :
      RowStep w w' id (.insertCommit c)
  | erase {c : Nat} (hfree : w.locks id = none) (hrow : w'.runs.lookup id = none) :
      RowStep w w' id (.deleteCommit c)

theorem rowStep_commitRow {change : RunChange} {now : Instant} {row : Tracked Uuid Run}
    {runs : Table Uuid Run} (hinv : Sound settings parsers w)
    (hcall : w.calls c = some (.writing change now [] row))
    (hlock : row.work = row.read ∨ w.locks row.key = none) (hflush : w.runs.flush row = some runs)
    (id : Uuid) : RowStep settings parsers w ({ w with runs }.finish c) id (.commitRow c) := by
  obtain ⟨key, read, work⟩ := row
  by_cases hid : id = key
  · subst hid
    rcases hlock with hclean | hfree
    · exact .same (lookup_flush_of_clean hflush hclean id)
    · exact .change hcall (hinv.valid c _ hcall) hfree (Table.lookup_flush_self hflush)
  · exact .same (Table.lookup_flush_of_ne hflush hid)

theorem rowStep_reconcileCommit {now : Instant} {done : List (Tracked Uuid Run)} {updated : Nat}
    {runs : Table Uuid Run} (hinv : Sound settings parsers w)
    (hcall : w.calls c = some (.reconciling now [] done updated))
    (hlock : ∀ row ∈ done, row.work = row.read ∨ w.locks row.key = none)
    (hflush : w.runs.flushAll done = some runs) (id : Uuid) :
    RowStep settings parsers w ({ w with runs }.finish c) id (.reconcileCommit c) := by
  obtain ⟨htracked, hnodup, hdone, -⟩ := hinv.valid c _ hcall
  rcases Table.lookup_flushAll_cases hflush (nodup_keys hnodup) id with ⟨-, hrow⟩ | hwritten
  · exact .same hrow
  · obtain ⟨⟨key, read, work⟩, hmem, rfl, hrow⟩ := hwritten
    obtain ⟨observed, result, hresult, hwork⟩ := hdone _ hmem
    by_cases hclean : work = read
    · refine .same (hrow.trans ?_)
      rw [hclean]
      cases hlookup : w.runs.lookup key with
      | none => rfl
      | some run => rw [Option.map_some, writeBack_clean]
    · exact .reconcile hcall hmem (htracked _ (mem_readRows hmem)) hresult hwork hclean
        ((hlock _ hmem).resolve_left hclean) hrow

theorem rowStep_admitCommit {now : Instant} {done : List (Tracked Uuid Run)} {started : Nat}
    {runs : Table Uuid Run} (hinv : Sound settings parsers w)
    (hcall : w.calls c = some (.admitting now [] done started))
    (hflush : w.runs.flushAll done = some runs) (id : Uuid) :
    RowStep settings parsers w ({ w with runs }.finish c) id (.admitCommit c) := by
  obtain ⟨hqueued, hnodup, hdone⟩ := hinv.valid c _ hcall
  rcases Table.lookup_flushAll_cases hflush (nodup_keys hnodup) id with ⟨-, hrow⟩ | hwritten
  · exact .same hrow
  · obtain ⟨⟨key, read, work⟩, hmem, rfl, hrow⟩ := hwritten
    obtain ⟨profile, outcome, hwork⟩ := hdone _ hmem
    obtain ⟨hold, hlock⟩ := hinv.consistent.held_eq hcall (mem_readRows hmem)
    refine .start hcall hmem (hqueued _ (mem_readRows hmem)) hwork hlock hold (hrow.trans ?_)
    rw [hold, Option.map_some, writeBack_fresh]

/-- Every step changes each row in one of the six ways. -/
theorem rowStep_of_step {a : Act} (hinv : Sound settings parsers w)
    (h : step settings parsers w a = some w') (id : Uuid) : RowStep settings parsers w w' id a := by
  cases step_cases h with
  | commitRow hcall hlock hflush => exact rowStep_commitRow hinv hcall hlock hflush id
  | reconcileCommit hcall hlock hflush => exact rowStep_reconcileCommit hinv hcall hlock hflush id
  | admitCommit hcall hflush => exact rowStep_admitCommit hinv hcall hflush id
  | @insertCommit c runId run hcall hnone =>
      by_cases hid : id = runId
      · subst hid
        exact .insert hcall (hinv.valid c _ hcall) hnone (AList.lookup_insert _)
      · exact .same (AList.lookup_insert_ne hid)
  | @deleteCommit c runId hcall hfree =>
      by_cases hid : id = runId
      · subst hid
        exact .erase hfree (AList.lookup_erase _ _)
      · exact .same (AList.lookup_erase_ne hid)
  | _ => exact .same rfl

end PdeOperator.Lifecycle
