import Mathlib.Logic.Relation
import PdeOperator.LifecycleHistory

/-! Chains of retries. A retry copies its parent's row some time before its own row is inserted, and in
between the parent may be changed or deleted; a chain of retries nevertheless leads back, without a
cycle, to runs that show the same request. -/

namespace PdeOperator.Lifecycle
open Base

variable {settings : Settings} {parsers : Parsers} {w w' : World} {id : Uuid}

/-- Two rows show the same request. -/
structure SameInput (run run' : Run) : Prop where
  profileId : run'.profileId = run.profileId
  pipelineData : run'.pipelineData = run.pipelineData
  pipelineVars : run'.pipelineVars = run.pipelineVars
  pipelineVarsSecure : run'.pipelineVarsSecure = run.pipelineVarsSecure
  isDryRun : run'.isDryRun = run.isDryRun
  logLevel : run'.logLevel = run.logLevel
  createdFromTemplateId : run'.createdFromTemplateId = run.createdFromTemplateId

theorem SameInput.refl (run : Run) : SameInput run run := by
  constructor <;> rfl

theorem SameInput.symm {run run' : Run} (h : SameInput run run') : SameInput run' run where
  profileId := h.profileId.symm
  pipelineData := h.pipelineData.symm
  pipelineVars := h.pipelineVars.symm
  pipelineVarsSecure := h.pipelineVarsSecure.symm
  isDryRun := h.isDryRun.symm
  logLevel := h.logLevel.symm
  createdFromTemplateId := h.createdFromTemplateId.symm

theorem SameInput.trans {run run' run'' : Run} (h : SameInput run run') (h' : SameInput run' run'') :
    SameInput run run'' where
  profileId := h'.profileId.trans h.profileId
  pipelineData := h'.pipelineData.trans h.pipelineData
  pipelineVars := h'.pipelineVars.trans h.pipelineVars
  pipelineVarsSecure := h'.pipelineVarsSecure.trans h.pipelineVarsSecure
  isDryRun := h'.isDryRun.trans h.isDryRun
  logLevel := h'.logLevel.trans h.logLevel
  createdFromTemplateId := h'.createdFromTemplateId.trans h.createdFromTemplateId

theorem SameRequest.sameInput {run run' : Run} (h : SameRequest run run') : SameInput run run' where
  profileId := h.profileId
  pipelineData := h.pipelineData
  pipelineVars := h.pipelineVars
  pipelineVarsSecure := h.pipelineVarsSecure
  isDryRun := h.isDryRun
  logLevel := h.logLevel
  createdFromTemplateId := h.createdFromTemplateId

/-- The place of an id in the order in which the ids were issued. -/
def issuedAt (w : World) (id : Uuid) : Nat := w.issued.reverse.idxOf id

theorem issuedAt_cons {runId : Uuid} (hissued : w'.issued = runId :: w.issued) (h : id ∈ w.issued) :
    issuedAt w' id = issuedAt w id := by
  rw [issuedAt, hissued, List.reverse_cons]
  exact List.idxOf_append_of_mem (List.mem_reverse.mpr h)

/-- A new id comes after all ids that have been issued before. -/
theorem issuedAt_lt_new (hissued : w'.issued = id :: w.issued) (hfresh : id ∉ w.issued)
    {older : Uuid} (holder : older ∈ w.issued) : issuedAt w' older < issuedAt w' id := by
  have hplace : issuedAt w' id = w.issued.reverse.length := by
    rw [issuedAt, hissued, List.reverse_cons,
      List.idxOf_append_of_notMem (fun hmem => hfresh (List.mem_reverse.mp hmem)),
      List.idxOf_cons_self, Nat.add_zero]
  rw [issuedAt_cons hissued holder, hplace, issuedAt]
  exact List.idxOf_lt_length_of_mem (List.mem_reverse.mpr holder)

/-- A step issues no id, or one that is new. -/
theorem issued_of_step {a : Act} (hvalid : AllValid settings parsers w.calls)
    (h : step settings parsers w a = some w') :
    w'.issued = w.issued ∨ ∃ runId, runId ∉ w.issued ∧ w'.issued = runId :: w.issued := by
  cases callStep_of_step hvalid h with
  | issues hact hnone hcalls hissued hfresh => exact Or.inr ⟨_, hfresh, hissued⟩
  | begins _ _ _ hissued | goesOn _ _ _ hissued | locks _ _ _ hissued | ends _ _ _ hissued
  | outside _ _ hissued => exact Or.inl hissued

theorem issuedAt_step {a : Act} (hvalid : AllValid settings parsers w.calls)
    (h : step settings parsers w a = some w') (hid : id ∈ w.issued) :
    issuedAt w' id = issuedAt w id := by
  rcases issued_of_step hvalid h with hissued | ⟨runId, -, hissued⟩
  · rw [issuedAt, issuedAt, hissued]
  · exact issuedAt_cons hissued hid

/-- The run `id` with the columns `run` may stand below the row of `parentId`: the parent has been
there first, and what is left of it shows the same request. -/
structure Below (w : World) (parentId id : Uuid) (run : Run) : Prop where
  issued : id ∈ w.issued
  taken : Taken w parentId
  earlier : issuedAt w parentId < issuedAt w id
  input : ∀ parent, w.runs.lookup parentId = some parent → SameInput parent run

theorem Below.congr {parentId : Uuid} {run run' : Run} (h : Below w parentId id run)
    (hsame : SameInput run run') : Below w parentId id run' :=
  { h with input := fun parent hparent => (h.input parent hparent).trans hsame }

theorem below_step {a : Act} {parentId : Uuid} {run : Run} (hsound : Sound settings parsers w)
    (hbelow : Below w parentId id run) (h : step settings parsers w a = some w') :
    Below w' parentId id run where
  issued := by
    rcases issued_of_step hsound.valid h with hissued | ⟨runId, -, hissued⟩
    · exact hissued ▸ hbelow.issued
    · exact hissued ▸ List.mem_cons_of_mem _ hbelow.issued
  taken := taken_step hsound.valid hbelow.taken h
  earlier := by
    rw [issuedAt_step hsound.valid h hbelow.taken.1, issuedAt_step hsound.valid h hbelow.issued]
    exact hbelow.earlier
  input parent hparent := by
    obtain ⟨current, hcurrent, hevolves⟩ := evolves_step hsound hbelow.taken h hparent
    exact hevolves.request.sameInput.symm.trans (hbelow.input current hcurrent)

/-- A call that starts to retry a run has read its row. -/
theorem retrying_of_step {a : Act} {c : Nat} {parentId : Uuid} {parent : Run}
    {request : Option RetryRunRequest} {now : Instant} (h : step settings parsers w a = some w')
    (hcall : w'.calls c = some (.retrying id parentId parent request now)) :
    w.calls c = some (.retrying id parentId parent request now) ∨
      (w.runs.lookup parentId = some parent ∧ id ∉ w.issued ∧ w'.issued = id :: w.issued) := by
  cases step_cases h with
  | commitRow | reconcileNothing | reconcileCommit | admitNone | admitCommit | startRefused
  | startLost | insertCommit | deleteCommit | crash => exact Or.inl (calls_finish hcall).2
  | readRow | putNext | reconcileRead | reconcileNext | reconcileDelete | admitCount | admitSelect
  | admitStart | admitPass | createRead | retryLoad | storeInput | startLater | startNow | deleteRead
  | deleteObjects =>
      obtain ⟨-, hnew⟩ | ⟨-, hold⟩ := calls_spawn hcall
      · cases hnew
      · exact Or.inl hold
  | retryRead hnone hfresh hparent hretriable =>
      obtain ⟨-, hnew⟩ | ⟨-, hold⟩ := calls_spawn hcall
      · cases hnew
        exact Or.inr ⟨hparent, hfresh, rfl⟩
      · exact Or.inl hold
  | jobEnds | editProfiles => exact Or.inl hcall

theorem below_of_row {parentId : Uuid} {parent : Run} (hsound : Sound settings parsers w)
    (hparent : w.runs.lookup parentId = some parent) (hfresh : id ∉ w.issued)
    (hissued : w'.issued = id :: w.issued) {a : Act} (h : step settings parsers w a = some w') :
    Below w' parentId id parent where
  issued := hissued ▸ List.mem_cons_self
  taken := taken_step hsound.valid (hsound.consistent.taken hparent) h
  earlier := issuedAt_lt_new hissued hfresh (hsound.consistent.taken hparent).1
  input next hnext := by
    obtain ⟨current, hcurrent, hevolves⟩ :=
      evolves_step hsound (hsound.consistent.taken hparent) h hnext
    obtain rfl := Option.some.inj (hparent.symm.trans hcurrent)
    exact hevolves.request.sameInput.symm

/-- Every row that names a parent stands below it, and so does every row that is going to be
inserted. -/
structure Lineage (w : World) : Prop where
  row : ∀ {id run parentId}, w.runs.lookup id = some run → run.retryOfRunId = some parentId →
    Below w parentId id run
  prepared : ∀ {c id run stage parentId}, w.calls c = some (.creating id run stage) →
    run.retryOfRunId = some parentId → Below w parentId id run
  retrying : ∀ {c id parentId parent request now},
    w.calls c = some (.retrying id parentId parent request now) → Below w parentId id parent

theorem lineage_row {a : Act} {run : Run} {parentId : Uuid} (hsound : Sound settings parsers w)
    (hinv : Lineage w) (h : step settings parsers w a = some w')
    (hrow : w'.runs.lookup id = some run) (hparent : run.retryOfRunId = some parentId) :
    Below w' parentId id run := by
  cases hold : w.runs.lookup id with
  | none =>
      obtain ⟨c, hcall⟩ := inserted_of_step hsound h hold hrow
      exact below_step hsound (hinv.prepared hcall hparent) h
  | some old =>
      obtain ⟨current, hcurrent, hevolves⟩ :=
        evolves_step hsound (hsound.consistent.taken hold) h hrow
      have hbelow := hinv.row hcurrent (hevolves.request.retryOfRunId ▸ hparent)
      exact (below_step hsound hbelow h).congr hevolves.request.sameInput

theorem lineage_prepared {a : Act} {c : Nat} {run : Run} {stage : CreateStage} {parentId : Uuid}
    (hsound : Sound settings parsers w) (hinv : Lineage w)
    (h : step settings parsers w a = some w') (hcall : w'.calls c = some (.creating id run stage))
    (hparent : run.retryOfRunId = some parentId) : Below w' parentId id run := by
  cases prepares_of_step h hcall with
  | prepared hold => exact below_step hsound (hinv.prepared hold hparent) h
  | started hold hrun =>
      have hbelow := hinv.prepared hold (hrun ▸ hparent)
      refine (below_step hsound hbelow h).congr ?_
      rw [hrun]
      constructor <;> rfl
  | creates hrun =>
      rw [hrun] at hparent
      cases hparent
  | retries hold hrun =>
      have hbelow := below_step hsound (hinv.retrying hold) h
      rw [hrun] at hparent ⊢
      cases hparent
      refine hbelow.congr ?_
      constructor <;> rfl

theorem lineage_step {a : Act} (hsound : Sound settings parsers w) (hinv : Lineage w)
    (h : step settings parsers w a = some w') : Lineage w' where
  row hrow hparent := lineage_row hsound hinv h hrow hparent
  prepared hcall hparent := lineage_prepared hsound hinv h hcall hparent
  retrying hcall := by
    rcases retrying_of_step h hcall with hold | ⟨hparent, hfresh, hissued⟩
    · exact below_step hsound (hinv.retrying hold) h
    · exact below_of_row hsound hparent hfresh hissued h

theorem lineage_initial (profiles : Table Text Profile) : Lineage (World.initial profiles) where
  row hrow := by cases hrow
  prepared hcall := by cases hcall
  retrying hcall := by cases hcall

/-- The row of `id` says that it retries `parentId`. -/
def RetryOf (w : World) (id parentId : Uuid) : Prop :=
  ∃ run, w.runs.lookup id = some run ∧ run.retryOfRunId = some parentId

/-- A chain of retries that the table shows goes back in the order in which the ids were issued, so it
never comes round to a run again, and its two ends show the same request. -/
theorem retry_chain {profiles : Table Text Profile} {acts : List Act} {ancestorId : Uuid}
    (hexec : (system settings parsers).exec (World.initial profiles) acts = some w)
    (hchain : Relation.TransGen (RetryOf w) id ancestorId) :
    issuedAt w ancestorId < issuedAt w id ∧ ∀ run ancestor, w.runs.lookup id = some run →
      w.runs.lookup ancestorId = some ancestor → SameInput ancestor run := by
  have hinv := System.exec_invariant_of_forall
    (I := fun u => Sound settings parsers u ∧ Lineage u)
    (fun hi hs => ⟨sound_step hi.1 hs, lineage_step hi.1 hi.2 hs⟩)
    ⟨(World.initial_idle _).sound, lineage_initial profiles⟩ hexec
  induction hchain with
  | single hlink =>
      obtain ⟨run, hrow, hparent⟩ := hlink
      have hbelow := hinv.2.row hrow hparent
      refine ⟨hbelow.earlier, fun run' ancestor hrow' hancestor => ?_⟩
      obtain rfl := Option.some.inj (hrow.symm.trans hrow')
      exact hbelow.input ancestor hancestor
  | tail hchain hlink ih =>
      -- The middle of the chain has a row, for it names the next parent.
      obtain ⟨middle, hmiddle, hparent⟩ := hlink
      have hbelow := hinv.2.row hmiddle hparent
      refine ⟨hbelow.earlier.trans ih.1, fun run ancestor hrow hancestor => ?_⟩
      exact (hbelow.input ancestor hancestor).trans (ih.2 run middle hrow hmiddle)

/-- The Job of a run stores its state and fails. -/
def failAlone (c : Nat) (runId : Uuid) (now : Instant) : List Act :=
  [.readRow c runId (.uploadArtifacts { state := some [80, 75, 3, 4] }) now, .putNext c, .commitRow c] ++
    changeAlone c runId (.deliverStatus [("status".toList, .str "FAILED".toList)]) now

def retryAlone (c : Nat) (runId parentId : Uuid) (now : Instant) : List Act :=
  [.retryRead c runId parentId none now, .retryLoad c, .storeInput c, .startJob c .created now,
    .insertCommit c]

/-- A run fails, and so does its retry. -/
def retriedTwice : List Act :=
  startedRun ++ failAlone 2 1 2 ++ retryAlone 3 2 1 3 ++ admitAlone 4 4 ++ failAlone 5 2 5 ++
    retryAlone 6 3 2 6

/-- The second retry of a run is later than the run and has its input. -/
theorem retry_chain_retriedTwice : ∃ w, (system {} sampleParsers).exec sampleWorld retriedTwice = some w ∧
    issuedAt w 1 < issuedAt w 3 ∧ ∀ run ancestor, w.runs.lookup 3 = some run →
      w.runs.lookup 1 = some ancestor → SameInput ancestor run := by
  have hchild : (rowAfter sampleWorld retriedTwice 3).bind Run.retryOfRunId = some 2 := by
    decide +kernel
  have hparent : (rowAfter sampleWorld retriedTwice 2).bind Run.retryOfRunId = some 1 := by
    decide +kernel
  obtain ⟨run, hrow, hfirst⟩ := Option.bind_eq_some_iff.mp hchild
  obtain ⟨run', hrow', hsecond⟩ := Option.bind_eq_some_iff.mp hparent
  obtain ⟨w, hexec, hrow⟩ := Option.bind_eq_some_iff.mp hrow
  obtain ⟨w', hexec', hrow'⟩ := Option.bind_eq_some_iff.mp hrow'
  obtain rfl := Option.some.inj (hexec.symm.trans hexec')
  have hchain : Relation.TransGen (RetryOf w) 3 1 :=
    .tail (.single ⟨run, hrow, hfirst⟩) ⟨run', hrow', hsecond⟩
  exact ⟨w, hexec, retry_chain hexec hchain⟩

end PdeOperator.Lifecycle
