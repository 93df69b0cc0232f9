import PdeOperator.LifecycleFinish
import PdeOperator.LifecycleJobs

/-! Uploaded states. The parts of an upload are stored one after the other, and the row learns of all of
them with the one commit at the end; an upload that raises in between leaves a state archive of which the
row does not know. -/

namespace PdeOperator.Lifecycle
open Base

variable {settings : Settings} {parsers : Parsers} {w w' : World} {id : Uuid} {c : Nat}

theorem state_mem_kinds_iff {uploads : Uploads} :
    ArtifactKind.state ∈ uploads.kinds ↔ uploads.state.isSome = true := by
  rw [Uploads.kinds, List.mem_filterMap]
  constructor
  · rintro ⟨⟨kind, data⟩, hpart, hkind⟩
    obtain ⟨bytes, hdata, rfl⟩ := Option.map_eq_some_iff.mp hkind
    have hdata : data = some bytes := hdata
    simp only [List.mem_cons, Prod.mk.injEq, reduceCtorEq, false_and, or_false, List.not_mem_nil,
      true_and] at hpart
    rw [← hpart, hdata]
    rfl
  · intro hstate
    obtain ⟨data, hdata⟩ := Option.isSome_iff_exists.mp hstate
    exact ⟨(.state, uploads.state), List.mem_cons_self, by rw [hdata]; rfl⟩

/-- No artifact is stored twice in one call. -/
theorem nodup_puts (change : RunChange) : change.puts.Nodup := by
  cases change with
  | uploadArtifacts uploads =>
      obtain ⟨state, log, xDebug, report⟩ := uploads
      cases state <;> cases log <;> cases xDebug <;> cases report <;>
        simp [RunChange.puts, Uploads.kinds]
  | _ => simp [RunChange.puts]

theorem truthy_artifactKey (kind : ArtifactKind) : truthy (some (artifactKey id kind)) = true := by
  have hne : artifactKey id kind ≠ [] := List.append_ne_nil_of_right_ne_nil _ (List.cons_ne_nil _ _)
  simpa [truthy] using hne

theorem applyReportFinishCode_stateLocation (run : Run) (data : Bytes) :
    (FinishUtils.applyReportFinishCode parsers run data).stateLocation = run.stateLocation := by
  obtain ⟨finishCode, happlied⟩ := RunService.applyReportFinishCode_columns run data
  rw [happlied]

theorem uploadArtifacts_stateLocation {now : Instant} {uploads : Uploads} {run : Run} :
    (RunService.uploadArtifacts parsers now id uploads run).stateLocation =
      if uploads.state.isSome then some (artifactKey id .state) else run.stateLocation := by
  have hstate : (if uploads.state.isSome then
      { run with stateLocation := some (artifactKey id .state) } else run).stateLocation =
        if uploads.state.isSome then some (artifactKey id .state) else run.stateLocation := by
    split <;> rfl
  have hlog : ∀ base : Run, (if uploads.log.isSome then
      { base with logUpdatedAt := some now } else base).stateLocation = base.stateLocation := by
    intro base
    split <;> rfl
  unfold RunService.uploadArtifacts
  refine (hlog _).trans ?_
  rw [← hstate]
  cases uploads.report with
  | none => rfl
  | some report => exact applyReportFinishCode_stateLocation _ report

/-- A change that stores a state archive sets the location, any other leaves it. -/
theorem RunChange.apply_stateLocation {now : Instant} {run work : Run} {change : RunChange}
    (h : change.apply parsers now id run = .ok work) :
    work.stateLocation =
      if ArtifactKind.state ∈ change.puts then some (artifactKey id .state) else run.stateLocation := by
  cases change with
  | cancelRun =>
      obtain ⟨-, ⟨-, rfl⟩ | ⟨-, rfl⟩⟩ := RunService.cancelRun_ok h
      · rfl
      · rfl
  | deliverStatus status =>
      cases h
      rfl
  | deliverReport data =>
      cases h
      exact applyReportFinishCode_stateLocation _ data
  | deliverLog =>
      cases h
      rfl
  | uploadArtifacts uploads =>
      cases h
      simp only [RunChange.puts, state_mem_kinds_iff]
      exact uploadArtifacts_stateLocation

theorem admitRun_stateLocation {now : Instant} {profile : Option Profile} {outcome : JobOutcome}
    {run : Run} : (QueueService.admitRun now id profile outcome run).stateLocation =
      run.stateLocation := by
  cases profile with
  | none => rfl
  | some profile => cases outcome <;> rfl

/-- A write-back keeps a location, and brings that of its copy unless the copy is unchanged. -/
theorem truthy_writeBack {read work current : Run}
    (hwork : work.stateLocation = read.stateLocation ∨ truthy work.stateLocation = true)
    (hcurrent : truthy current.stateLocation = true) :
    truthy (writeBack read work current).stateLocation = true := by
  have hcolumn : (writeBack read work current).stateLocation =
      column read.stateLocation work.stateLocation current.stateLocation := rfl
  rw [hcolumn]
  rcases hwork with hsame | hwork
  · rwa [hsame, column_clean]
  · rcases column_eq_or read.stateLocation work.stateLocation current.stateLocation with heq | heq
    · rwa [heq]
    · rwa [heq]

/-- A row that has been there before keeps its location. -/
theorem stateLocation_step {a : Act} (hsound : Sound settings parsers w) (htaken : Taken w id)
    (h : step settings parsers w a = some w') {next : Run} (hnext : w'.runs.lookup id = some next) :
    ∃ current, w.runs.lookup id = some current ∧
      (truthy current.stateLocation = true → truthy next.stateLocation = true) := by
  have hwrite : ∀ {read work : Run},
      w'.runs.lookup id = (w.runs.lookup id).map (writeBack read work) →
      work.stateLocation = read.stateLocation ∨ truthy work.stateLocation = true →
      ∃ current, w.runs.lookup id = some current ∧
        (truthy current.stateLocation = true → truthy next.stateLocation = true) := by
    intro read work hrow hwork
    rw [hnext] at hrow
    obtain ⟨current, hcurrent, rfl⟩ := Option.map_eq_some_iff.mp hrow.symm
    exact ⟨current, hcurrent, truthy_writeBack hwork⟩
  cases rowStep_of_step hsound h id with
  | same hrow => exact ⟨next, hrow ▸ hnext, fun htruthy => htruthy⟩
  | change hcall happly hfree hrow =>
      refine hwrite hrow ?_
      rw [RunChange.apply_stateLocation happly]
      split
      · exact Or.inr (truthy_artifactKey .state)
      · exact Or.inl rfl
  | reconcile hcall hmem htracked hresult hwork hdirty hfree hrow =>
      refine hwrite hrow (Or.inl ?_)
      obtain ⟨_, _, _, _, hcolumns⟩ := JobReconciler.reconcileRun_columns hresult
      rw [hwork, hcolumns]
  | start hcall hmem hqueued hwork hlock hold hrow =>
      obtain rfl := Option.some.inj (hrow.symm.trans hnext)
      refine ⟨_, hold, fun htruthy => ?_⟩
      rwa [hwork, admitRun_stateLocation]
  | insert hcall hvalid hold hrow => exact absurd (newIdIn_of_some hcall) (htaken.2 _)
  | erase hfree hrow =>
      rw [hrow] at hnext
      cases hnext

/-- The call has stored a state archive of the run and has not committed it yet. -/
def Call.HoldsState (id : Uuid) : Call → Prop
  | .writing change _ puts row => row.key = id ∧ .state ∈ change.puts ∧ .state ∉ puts
  | _ => False

def HoldsStateIn (calls : Nat → Option Call) (c : Nat) (id : Uuid) : Prop :=
  ∃ call, calls c = some call ∧ call.HoldsState id

/-- A call that changes a row goes on with its artifacts, commits or crashes. -/
theorem writing_step {a : Act} {change : RunChange} {now : Instant} {puts : List ArtifactKind}
    {row : Tracked Uuid Run} (hvalid : AllValid settings parsers w.calls)
    (hcall : w.calls c = some (.writing change now puts row))
    (h : step settings parsers w a = some w') :
    w'.calls c = w.calls c ∨
      (∃ kind kinds, puts = kind :: kinds ∧ a = .putNext c ∧
        w'.calls c = some (.writing change now kinds row)) ∨
      (puts = [] ∧ a = .commitRow c) ∨ a = .crash c := by
  by_cases hact : a.call = some c
  · have hother : ∀ {c' : Nat} {call : Call}, a.call = some c' → w.calls c' = some call →
        call = .writing change now puts row := by
      intro c' call hc hcall'
      obtain rfl := Option.some.inj (hact.symm.trans hc)
      exact Option.some.inj (hcall'.symm.trans hcall)
    have hfree : ∀ {c' : Nat}, a.call = some c' → w.calls c' ≠ none := by
      intro c' hc hnone
      obtain rfl := Option.some.inj (hact.symm.trans hc)
      cases hnone.symm.trans hcall
    cases step_cases h with
    | @putNext c' _ _ kind kinds _ hcall' =>
        obtain rfl : c' = c := Option.some.inj hact
        cases hother rfl hcall'
        refine Or.inr (Or.inl ⟨kind, kinds, rfl, rfl, ?_⟩)
        exact Function.update_self ..
    | @commitRow c' _ _ _ _ hcall' =>
        obtain rfl : c' = c := Option.some.inj hact
        cases hother rfl hcall'
        exact Or.inr (Or.inr (Or.inl ⟨rfl, rfl⟩))
    | @crash c' =>
        obtain rfl : c' = c := Option.some.inj hact
        exact Or.inr (Or.inr (Or.inr rfl))
    | readRow hcall' | reconcileRead hcall' | admitCount hcall' | createRead hcall' | retryRead hcall'
    | deleteRead hcall' => exact absurd hcall' (hfree rfl)
    | reconcileNext hcall' | reconcileDelete hcall' | reconcileNothing hcall' | reconcileCommit hcall'
    | admitNone hcall' | admitSelect hcall' | admitStart hcall' | admitPass hcall' | admitCommit hcall'
    | retryLoad hcall' | storeInput hcall' | startLater hcall' | startRefused hcall' | startLost hcall'
    | startNow hcall' | insertCommit hcall' | deleteObjects hcall' | deleteCommit hcall' =>
        cases hother rfl hcall'
    | jobEnds | editProfiles => cases hact
  · exact Or.inl (calls_step hvalid h hact)

theorem artifactKey_injective {other : Uuid} {kind : ArtifactKind}
    (h : artifactKey other kind = artifactKey id .state) : other = id ∧ kind = .state := by
  obtain ⟨hid, hname⟩ := List.append_inj h (by rw [Uuid.length_str, Uuid.length_str])
  refine ⟨Uuid.str_injective hid, ?_⟩
  revert hname
  cases kind <;> decide

theorem inputKey_ne_artifactKey {other : Uuid} : inputKey other ≠ artifactKey id .state := by
  intro h
  have hname := (List.append_inj h (by rw [Uuid.length_str, Uuid.length_str])).2
  exact absurd hname (by decide)

/-- A state archive in storage has been there before, or has just been put. -/
theorem stored_step {a : Act} (h : step settings parsers w a = some w')
    (hstored : artifactKey id .state ∈ w'.objects) :
    artifactKey id .state ∈ w.objects ∨ ∃ c change now kinds row, a = .putNext c ∧ row.key = id ∧
      w.calls c = some (.writing change now (.state :: kinds) row) ∧
      w'.calls c = some (.writing change now kinds row) := by
  cases step_cases h with
  | @putNext c change now kind kinds row hcall =>
      rcases List.mem_cons.mp hstored with heq | hold
      · obtain ⟨hid, rfl⟩ := artifactKey_injective heq.symm
        exact Or.inr ⟨c, change, now, kinds, row, rfl, hid, hcall, Function.update_self ..⟩
      · exact Or.inl hold
  | storeInput hcall =>
      rcases List.mem_cons.mp hstored with heq | hold
      · exact absurd heq.symm inputKey_ne_artifactKey
      · exact Or.inl hold
  | deleteObjects hcall => exact Or.inl (List.mem_filter.mp hstored).1
  | _ => exact Or.inl hstored

variable (settings parsers) in
structure Uploading (w : World) : Prop where
  sound : Sound settings parsers w
  puts : ∀ {c change now puts row}, w.calls c = some (.writing change now puts row) →
    puts <:+ change.puts
  taken : ∀ {c id run}, (id, run) ∈ copiesIn w.calls c → Taken w id
  /-- What the calls have read is no newer than the rows. -/
  located : ∀ {c id run current}, (id, run) ∈ copiesIn w.calls c → w.runs.lookup id = some current →
    truthy run.stateLocation = true → truthy current.stateLocation = true
  stored : ∀ {id}, artifactKey id .state ∈ w.objects → Taken w id

theorem puts_step {a : Act} (h : step settings parsers w a = some w')
    (hinv : ∀ {c change now puts row}, w.calls c = some (.writing change now puts row) →
      puts <:+ change.puts) {change : RunChange} {now : Instant} {puts : List ArtifactKind}
    {row : Tracked Uuid Run} (hcall : w'.calls c = some (.writing change now puts row)) :
    puts <:+ change.puts := by
  cases step_cases h with
  | readRow =>
      rcases calls_spawn hcall with ⟨-, heq⟩ | ⟨-, hold⟩
      · cases heq
        exact List.suffix_rfl
      · exact hinv hold
  | putNext hcall' =>
      rcases calls_spawn hcall with ⟨-, heq⟩ | ⟨-, hold⟩
      · cases heq
        exact (List.suffix_cons _ _).trans (hinv hcall')
      · exact hinv hold
  | commitRow | reconcileNothing | reconcileCommit | admitNone | admitCommit | startRefused
  | startLost | insertCommit | deleteCommit | crash => exact hinv (calls_finish hcall).2
  | jobEnds | editProfiles => exact hinv hcall
  | _ =>
      rcases calls_spawn hcall with ⟨-, heq⟩ | ⟨-, hold⟩
      · cases heq
      · exact hinv hold

theorem uploading_step {a : Act} (hinv : Uploading settings parsers w)
    (h : step settings parsers w a = some w') : Uploading settings parsers w' := by
  have htaken : ∀ {c id run}, (id, run) ∈ copiesIn w'.calls c → Taken w id := by
    intro c id run hx
    rcases copiesIn_step hinv.sound.valid h hx with hold | hrow
    · exact hinv.taken hold
    · exact hinv.sound.consistent.taken hrow
  refine ⟨sound_step hinv.sound h, puts_step h hinv.puts,
    fun hx => taken_step hinv.sound.valid (htaken hx) h, fun hx hnext hread => ?_, fun hstored => ?_⟩
  · obtain ⟨current, hcurrent, hkept⟩ := stateLocation_step hinv.sound (htaken hx) h hnext
    refine hkept ?_
    rcases copiesIn_step hinv.sound.valid h hx with hold | hrow
    · exact hinv.located hold hcurrent hread
    · obtain rfl := Option.some.inj (hrow.symm.trans hcurrent)
      exact hread
  · refine taken_step hinv.sound.valid ?_ h
    rcases stored_step h hstored with hold | ⟨c, change, now, kinds, row, -, rfl, hcall, -⟩
    · exact hinv.stored hold
    · exact hinv.taken (mem_copiesIn hcall (List.mem_singleton.mpr rfl))

theorem World.initial_uploading (profiles : Table Text Profile) :
    Uploading settings parsers (World.initial profiles) where
  sound := (World.initial_idle profiles).sound
  puts h := by cases h
  taken h := absurd h List.not_mem_nil
  located h := absurd h List.not_mem_nil
  stored h := absurd h List.not_mem_nil

/-! ### Stored states -/

/-- Every stored state of a run is known to its row, or to a call that will tell the row. -/
def StatesRecorded (w : World) : Prop :=
  ∀ id run, w.runs.lookup id = some run → artifactKey id .state ∈ w.objects →
    truthy run.stateLocation = true ∨ ∃ c, HoldsStateIn w.calls c id

/-- The step does not end an upload with an exception while the state that it has stored is in storage
and neither the row nor another upload knows of it. -/
def RecordsState (w : World) : Act → Prop
  | .crash c => ∀ id run, HoldsStateIn w.calls c id → w.runs.lookup id = some run →
      artifactKey id .state ∈ w.objects →
      truthy run.stateLocation = true ∨ ∃ c', c' ≠ c ∧ HoldsStateIn w.calls c' id
  | _ => True

/-- The commit of an upload tells the row. -/
theorem located_of_commitRow {next : Run} (hinv : Uploading settings parsers w)
    (hholds : HoldsStateIn w.calls c id) (h : step settings parsers w (.commitRow c) = some w')
    (hnext : w'.runs.lookup id = some next) : truthy next.stateLocation = true := by
  obtain ⟨call, hcall, hstate⟩ := hholds
  cases step_cases h with
  | @commitRow _ change now row runs hcall' hlock hflush =>
      cases hcall.symm.trans hcall'
      obtain ⟨rfl, hput, -⟩ := hstate
      have hwork := RunChange.apply_stateLocation (hinv.sound.valid c _ hcall)
      rw [if_pos hput] at hwork
      have hrow : runs.lookup row.key = some next := hnext
      rw [Table.lookup_flush_self hflush] at hrow
      obtain ⟨current, hcurrent, rfl⟩ := Option.map_eq_some_iff.mp hrow
      have hset : truthy row.work.stateLocation = true := by
        rw [hwork]
        exact truthy_artifactKey .state
      have hcolumn : (writeBack row.read row.work current).stateLocation =
          column row.read.stateLocation row.work.stateLocation current.stateLocation := rfl
      rw [hcolumn, column]
      split
      · next hclean =>
        have hread : truthy row.read.stateLocation = true := hclean ▸ hset
        exact hinv.located (mem_copiesIn hcall (List.mem_singleton.mpr rfl)) hcurrent hread
      · exact hset

/-- An upload that has stored its state goes on to know of it until it commits or crashes. -/
theorem holdsState_step {a : Act} (hinv : Uploading settings parsers w)
    (hholds : HoldsStateIn w.calls c id) (h : step settings parsers w a = some w') :
    HoldsStateIn w'.calls c id ∨ a = .commitRow c ∨ a = .crash c := by
  obtain ⟨call, hcall, hstate⟩ := hholds
  cases call with
  | writing change now puts row =>
      rcases writing_step hinv.sound.valid hcall h with
        hsame | ⟨kind, kinds, rfl, -, hnext⟩ | ⟨-, rfl⟩ | rfl
      · exact Or.inl ⟨_, hsame.trans hcall, hstate⟩
      · refine Or.inl ⟨_, hnext, hstate.1, hstate.2.1, fun hmem => ?_⟩
        exact hstate.2.2 (List.mem_cons_of_mem _ hmem)
      · exact Or.inr (Or.inl rfl)
      · exact Or.inr (Or.inr rfl)
  | _ => exact hstate.elim

/-- The call that has just put a state archive holds it. -/
theorem holdsState_of_put {change : RunChange} {now : Instant} {kinds : List ArtifactKind}
    {row : Tracked Uuid Run} (hinv : Uploading settings parsers w)
    (hcall : w.calls c = some (.writing change now (.state :: kinds) row))
    (hnext : w'.calls c = some (.writing change now kinds row)) : HoldsStateIn w'.calls c row.key := by
  have hputs := hinv.puts hcall
  have hnodup := (nodup_puts change).sublist hputs.sublist
  exact ⟨_, hnext, rfl, hputs.mem List.mem_cons_self, (List.nodup_cons.mp hnodup).1⟩

theorem holdsState_finish {c' : Nat} :
    HoldsStateIn (w.finish c).calls c' id ↔ c' ≠ c ∧ HoldsStateIn w.calls c' id := by
  constructor
  · rintro ⟨call, hcall, hstate⟩
    obtain ⟨hne, hold⟩ := calls_finish hcall
    exact ⟨hne, call, hold, hstate⟩
  · rintro ⟨hne, call, hcall, hstate⟩
    exact ⟨call, by rw [finish_calls, Function.update_of_ne hne, hcall], hstate⟩

/-- A step other than a crash keeps all stored states recorded. -/
theorem statesRecorded_step {a : Act} (hinv : Uploading settings parsers w) (hgood : StatesRecorded w)
    (h : step settings parsers w a = some w') (hcrash : ∀ c, a ≠ .crash c) : StatesRecorded w' := by
  intro id next hnext hstored
  rcases stored_step h hstored with hold | ⟨c, change, now, kinds, row, -, rfl, hcall, hcall'⟩
  · obtain ⟨current, hcurrent, hkept⟩ := stateLocation_step hinv.sound (hinv.stored hold) h hnext
    rcases hgood id current hcurrent hold with hlocated | ⟨c, hholds⟩
    · exact Or.inl (hkept hlocated)
    · rcases holdsState_step hinv hholds h with hstill | rfl | rfl
      · exact Or.inr ⟨c, hstill⟩
      · exact Or.inl (located_of_commitRow hinv hholds h hnext)
      · exact absurd rfl (hcrash c)
  · exact Or.inr ⟨c, holdsState_of_put hinv hcall hcall'⟩

theorem recordsState_crash_iff (hgood : StatesRecorded w) :
    RecordsState w (.crash c) ↔ StatesRecorded (w.finish c) := by
  constructor
  · intro hok id run hrun hstored
    rcases hgood id run hrun hstored with hlocated | ⟨c', hholds⟩
    · exact Or.inl hlocated
    · by_cases hc : c' = c
      · subst hc
        rcases hok id run hholds hrun hstored with hlocated | ⟨other, hne, hother⟩
        · exact Or.inl hlocated
        · exact Or.inr ⟨other, holdsState_finish.mpr ⟨hne, hother⟩⟩
      · exact Or.inr ⟨c', holdsState_finish.mpr ⟨hc, hholds⟩⟩
  · intro hall id run _ hrun hstored
    rcases hall id run hrun hstored with hlocated | ⟨c', hholds⟩
    · exact Or.inl hlocated
    · exact Or.inr ⟨c', holdsState_finish.mp hholds⟩

/-- The condition tells which steps keep all stored states recorded. -/
theorem recordsState_iff {a : Act} (hinv : Uploading settings parsers w) (hgood : StatesRecorded w)
    (h : step settings parsers w a = some w') : RecordsState w a ↔ StatesRecorded w' := by
  cases step_cases h with
  | crash => exact recordsState_crash_iff hgood
  | _ => exact iff_of_true trivial (statesRecorded_step hinv hgood h fun _ hc => by cases hc)

variable (settings parsers) in
/-- Along an execution, every stored state is known to its row or to an upload under way. -/
def AlwaysRecorded (s : World) (acts : List Act) : Prop :=
  ∀ before after u, acts = before ++ after → (system settings parsers).exec s before = some u →
    StatesRecorded u

variable (settings parsers) in
/-- Along an execution, whenever no call is in flight, every run with a stored state has its location, and
one that has failed or been cancelled passes the checks of a retry. -/
def StatesRetriable (s : World) (acts : List Act) : Prop :=
  ∀ before after u, acts = before ++ after → (system settings parsers).exec s before = some u →
    u.Quiet → ∀ id run, u.runs.lookup id = some run → artifactKey id .state ∈ u.objects →
      truthy run.stateLocation = true ∧
      (run.status ∈ retryableStatuses → RunService.checkRetriable run = .ok ())

/-- In a state without calls in flight only the rows can know of the stored states. -/
theorem located_of_quiet (hgood : StatesRecorded w) (hquiet : w.Quiet) {run : Run}
    (hrun : w.runs.lookup id = some run) (hstored : artifactKey id .state ∈ w.objects) :
    truthy run.stateLocation = true := by
  rcases hgood id run hrun hstored with hlocated | ⟨c, call, hcall, -⟩
  · exact hlocated
  · rw [hquiet c] at hcall
    cases hcall

/-- For an operator that has started on an empty database: the stored states are known all along if and
only if no upload ends with an exception after it has stored a state that neither the row nor another
upload knows of; and then they can be retried. -/
theorem statesRecorded_iff {profiles : Table Text Profile} {acts : List Act}
    (hexec : (system settings parsers).exec (World.initial profiles) acts = some w) :
    (AlwaysRecorded settings parsers (World.initial profiles) acts ↔
      (system settings parsers).Meets RecordsState (World.initial profiles) acts) ∧
    ((system settings parsers).Meets RecordsState (World.initial profiles) acts →
      StatesRetriable settings parsers (World.initial profiles) acts) := by
  have hrecorded : StatesRecorded (World.initial profiles) := fun id run hrun => by
    rw [World.initial, AList.lookup_empty] at hrun
    cases hrun
  have hiff := System.always_iff_meets (S := system settings parsers) uploading_step
    (fun hinv hgood h => recordsState_iff hinv hgood h) (World.initial_uploading profiles) hrecorded hexec
  refine ⟨hiff, fun hmeets before after u hacts hbefore hquiet id run hrun hstored => ?_⟩
  have hgood : StatesRecorded u := hiff.mpr hmeets before after u hacts hbefore
  have hlocated := located_of_quiet hgood hquiet hrun hstored
  refine ⟨hlocated, fun hstatus => ?_⟩
  rw [RunService.checkRetriable, if_neg (not_not.mpr hstatus), hlocated]
  rfl

/-- The upload of a state and a log. -/
def stateAndLog : Uploads where
  state := some [80, 75, 3, 4]
  log := some [111, 107]

/-- A run whose Job uploads both parts, of which only the state can be stored; the run is then cancelled. -/
def uploadFails : List Act :=
  createAlone 0 1 sampleRequest 0 ++
    [.readRow 1 1 (.uploadArtifacts stateAndLog) 1, .putNext 1, .crash 1] ++
    changeAlone 2 1 .cancelRun 2

/-- The same upload when both parts can be stored. -/
def uploadSucceeds : List Act :=
  createAlone 0 1 sampleRequest 0 ++
    [.readRow 1 1 (.uploadArtifacts stateAndLog) 1, .putNext 1, .putNext 1, .commitRow 1]

theorem statesRecorded_iff_uploadSucceeds :
    AlwaysRecorded {} sampleParsers sampleWorld uploadSucceeds ↔
      (system {} sampleParsers).Meets RecordsState sampleWorld uploadSucceeds := by
  have hexec : ((system {} sampleParsers).exec sampleWorld uploadSucceeds).isSome = true := by decide
  obtain ⟨w', hw'⟩ := Option.isSome_iff_exists.mp hexec
  exact (statesRecorded_iff hw').1

/-- What is left of the upload that fails: the calls, the row and the archive. -/
def uploadLeft (w : World) : Bool × Option (Option Text) × Bool :=
  ([0, 1, 2].all fun c => (w.calls c).isNone, (w.runs.lookup 1).map Run.stateLocation,
    w.objects.contains (artifactKey 1 .state))

/-- The archive of the cancelled run is stored and its row has no location. -/
theorem storedState_refused : ¬StatesRetriable {} sampleParsers sampleWorld uploadFails := by
  intro h
  have hleft : ((system {} sampleParsers).exec sampleWorld uploadFails).map uploadLeft =
      some (true, some none, true) := by decide
  obtain ⟨u, hu, hleft⟩ := Option.map_eq_some_iff.mp hleft
  obtain ⟨hcalls, hleft⟩ := Prod.mk.inj hleft
  obtain ⟨hrow, hstored⟩ := Prod.mk.inj hleft
  obtain ⟨run, hrun, hlocation⟩ := Option.map_eq_some_iff.mp hrow
  have hquiet : u.Quiet := by
    intro c
    by_cases hc : c ∈ [0, 1, 2]
    · exact Option.isNone_iff_eq_none.mp (List.all_eq_true.mp hcalls c hc)
    · have hothers : ∀ a ∈ uploadFails, ∀ c', a.call = some c' → c' ∈ [0, 1, 2] := by
        simp [uploadFails, createAlone, changeAlone, Act.call]
      exact calls_exec (World.initial_idle sampleProfiles).sound
        (fun a ha hact => hc (hothers a ha c hact)) hu
  have hlocated := (h uploadFails [] u (List.append_nil _).symm hu hquiet 1 run hrun
    (List.contains_iff_mem.mp hstored)).1
  rw [hlocation] at hlocated
  cases hlocated

end PdeOperator.Lifecycle
