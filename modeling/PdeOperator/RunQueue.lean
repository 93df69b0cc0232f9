import Mathlib.Data.List.Sort
import PdeOperator.RunService

/-! `QueueService`: the free slots, the locked selection of queued rows and the admission of one
row. -/

namespace PdeOperator
open Base

/-- How a call of `create_run_job` ends: the Job exists and the call returned; the call raised and
there is no Job; the call raised although the Job has been created (a lost answer). -/
inductive JobOutcome where
  | created | refused | lost
  deriving DecidableEq, Repr

namespace QueueService

/-- The number of rows that hold a slot. -/
def activeCount (runs : Table Uuid Run) : Nat := (runs.select fun _ run => run.isTracked).length

/-- `_free_slots`; `none` when the number of runs is not limited. -/
def freeSlots (settings : Settings) (runs : Table Uuid Run) : Option Nat :=
  if settings.maxConcurrentRuns ≤ 0 then none
  else some (settings.maxConcurrentRuns - activeCount runs).toNat

/-- `ORDER BY created_at ASC, id ASC` -/
def admittedBefore (a b : Uuid × Run) : Prop :=
  a.2.createdAt < b.2.createdAt ∨ (a.2.createdAt = b.2.createdAt ∧ a.1 ≤ b.1)

instance : DecidableRel admittedBefore := fun _ _ => inferInstanceAs (Decidable (_ ∨ _))

/-- The `SELECT ... FOR UPDATE SKIP LOCKED LIMIT free` of `admit_once`. -/
def selectQueued (runs : Table Uuid Run) (locked : Uuid → Bool) (free : Option Nat) :
    List (Uuid × Run) :=
  let queued := (runs.select fun id run => run.isQueued && !locked id).insertionSort admittedBefore
  match free with
  | none => queued
  | some n => queued.take n

/-- What `admit_once` makes of one locked row. -/
def admitRun (now : Instant) (runId : Uuid) (profile : Option Profile) (outcome : JobOutcome)
    (run : Run) : Run :=
  match profile, outcome with
  | none, _ => { run with status := .failed, finishedAt := some now }
  | some _, .created => RunService.startRunJobNow now runId run
  | some _, _ => run

/-- Only a created Job puts a Job name on the row. -/
theorem admitRun_k8sJobName {now : Instant} {runId : Uuid} {profile : Option Profile}
    {outcome : JobOutcome} {run : Run} (hpass : profile = none ∨ outcome = .refused) :
    (admitRun now runId profile outcome run).k8sJobName = run.k8sJobName := by
  rcases hpass with rfl | rfl
  · rfl
  · cases profile <;> rfl

theorem mem_selectQueued {runs : Table Uuid Run} {locked : Uuid → Bool} {free : Option Nat}
    {id : Uuid} {run : Run} (h : (id, run) ∈ selectQueued runs locked free) :
    runs.lookup id = some run ∧ run.isQueued = true ∧ locked id = false := by
  have hmem : (id, run) ∈ runs.select fun id run => run.isQueued && !locked id := by
    unfold selectQueued at h
    cases free with
    | none => exact (List.mem_insertionSort _).mp h
    | some n => exact (List.mem_insertionSort _).mp (List.mem_of_mem_take h)
  obtain ⟨hlookup, hp⟩ := Table.mem_select.mp hmem
  rw [Bool.and_eq_true, Bool.not_eq_true'] at hp
  exact ⟨hlookup, hp⟩

theorem nodup_selectQueued (runs : Table Uuid Run) (locked : Uuid → Bool) (free : Option Nat) :
    ((selectQueued runs locked free).map Prod.fst).Nodup := by
  have hsort : (((runs.select fun id run => run.isQueued && !locked id).insertionSort
      admittedBefore).map Prod.fst).Nodup :=
    (((List.perm_insertionSort _ _).map Prod.fst).nodup_iff).mpr (Table.nodup_select _ _)
  unfold selectQueued
  cases free with
  | none => exact hsort
  | some n => exact hsort.sublist ((List.take_sublist _ _).map Prod.fst)

end QueueService
end PdeOperator
