import PdeOperator.RunRetention
import PdeOperator.StorageDeletion

/-! `RetentionService.cleanup_older_than` on a storage whose calls may fail: every run is deleted in a
session of its own, an exception is counted, and the loop goes on. What one cleanup could not delete, a
later one deletes. -/

namespace PdeOperator.Storage.Deletion
open Base

structure CleanupResult where
  olderThan : Instant
  deleted : Nat := 0
  failed : Nat := 0
  deriving DecidableEq

/-- The loop of `cleanup_older_than`; `envs` is how the calls for each run go. -/
def cleanupRuns (envs : Uuid → Env) : List Uuid → CleanupResult → World → CleanupResult × World
  | [], result, w => (result, w)
  | id :: rest, result, w =>
      match deleteRun (envs id) id w with
      | (.ok _, w') => cleanupRuns envs rest { result with deleted := result.deleted + 1 } w'
      | (.error _, w') => cleanupRuns envs rest { result with failed := result.failed + 1 } w'

def cleanupOlderThan (envs : Uuid → Env) (olderThan : Instant) (w : World) : CleanupResult × World :=
  cleanupRuns envs (Retention.selectOlder olderThan w.runs) { olderThan } w

/-- A cleanup, and how the calls for each run go. -/
structure Tick where
  olderThan : Instant
  envs : Uuid → Env

def cleanups : List Tick → World → World
  | [], w => w
  | tick :: rest, w => cleanups rest (cleanupOlderThan tick.envs tick.olderThan w).2

/-- Whenever the deletion under an id returns it is complete. -/
def Env.Honest (env : Env) (id : Uuid) : Prop :=
  ∀ bucket, SomeCallRaises env.client id bucket ∨ DeletesEachKey env.client id bucket

/-- No call fails. -/
structure Env.Undisturbed (env : Env) (id : Uuid) : Prop where
  getFails : env.getFails = false
  commitFails : env.commitFails = false
  deletes : ∀ bucket, ¬SomeCallRaises env.client id bucket

/-- Every stored object is under the id of a run or of a schedule. -/
def Housed (w : World) : Prop :=
  ∀ key ∈ w.objects, ∀ id, Owns id key →
    (w.runs.lookup id).isSome = true ∨ (w.schedules.lookup id).isSome = true

variable {env : Env} {envs : Uuid → Env} {id : Uuid} {w : World} {ids : List Uuid} {result : CleanupResult}
  {olderThan : Instant} {key : Text}

variable (env id w) in
/-- A deletion that raises leaves the rows, and one that returns takes the row along; only objects of the
run go. -/
theorem deleteRun_cases :
    (deleteRun env id w).2.schedules = w.schedules ∧
      ((deleteRun env id w).2.objects = w.objects ∨
        (deleteRun env id w).2.objects = (deleteRunArtifacts env.client id w.objects).2) ∧
      ((∃ cause, (deleteRun env id w).1 = .error cause ∧ (deleteRun env id w).2.runs = w.runs) ∨
        (deleteRun env id w).1 = .ok () ∧ (deleteRun env id w).2.runs = w.runs.erase id ∧
          ∃ total, deleteRunArtifacts env.client id w.objects = (.ok total, (deleteRun env id w).2.objects)) := by
  rw [deleteRun, deleteWithObjects, Program.check_bind]
  split
  · exact ⟨rfl, Or.inl rfl, Or.inl ⟨_, rfl, rfl⟩⟩
  · rw [Program.read_bind, Program.check_bind]
    split
    · exact ⟨rfl, Or.inl rfl, Or.inl ⟨_, rfl, rfl⟩⟩
    · cases hresult : deleteRunArtifacts env.client id w.objects with
      | mk ended objects =>
          cases ended with
          | error cause =>
              have hdelete : deleteArtifacts env id w = (.error (.cleanup cause), { w with objects }) := by
                rw [deleteArtifacts, hresult]
                rfl
              rw [Program.bind_error hdelete]
              exact ⟨rfl, Or.inr rfl, Or.inl ⟨_, rfl, rfl⟩⟩
          | ok total =>
              have hdelete : deleteArtifacts env id w = (.ok total, { w with objects }) := by
                rw [deleteArtifacts, hresult]
                rfl
              rw [Program.bind_ok hdelete, Program.check_bind]
              split
              · exact ⟨rfl, Or.inr rfl, Or.inl ⟨_, rfl, rfl⟩⟩
              · exact ⟨rfl, Or.inr rfl, Or.inr ⟨rfl, rfl, total, rfl⟩⟩

theorem objects_deleteRun (hkey : ¬Owns id key) : key ∈ (deleteRun env id w).2.objects ↔ key ∈ w.objects := by
  obtain ⟨-, hobjects | hobjects, -⟩ := deleteRun_cases env id w
  · rw [hobjects]
  · rw [hobjects]
    exact mem_deleteRunArtifacts_of_not_owns env.client w.objects hkey

theorem lookup_deleteRun_of_ne {other : Uuid} (hne : other ≠ id) :
    (deleteRun env id w).2.runs.lookup other = w.runs.lookup other := by
  obtain ⟨-, -, ⟨cause, -, hruns⟩ | ⟨-, hruns, -⟩⟩ := deleteRun_cases env id w
  · rw [hruns]
  · rw [hruns, AList.lookup_erase_ne hne]

/-- A deletion that leaves the row leaves only objects that were there; one that takes the row leaves none. -/
theorem housed_deleteRun (hhonest : env.Honest id) (hhoused : Housed w) : Housed (deleteRun env id w).2 := by
  obtain ⟨hschedules, hobjects, hrows⟩ := deleteRun_cases env id w
  intro key hkey other howns
  rw [hschedules]
  have hbefore : key ∈ w.objects := by
    rcases hobjects with hsame | hdeleted
    · rwa [hsame] at hkey
    · rw [hdeleted, deleteRunArtifacts_eq] at hkey
      exact deleteListed_subset _ _ _ _ _ hkey
  by_cases hid : other = id
  · subst hid
    rcases hrows with ⟨cause, -, hruns⟩ | ⟨-, -, total, hreturned⟩
    · rw [hruns]
      exact hhoused key hbefore other howns
    · have hreturns : ¬SomeCallRaises env.client other w.objects := returns_iff.mp ⟨total, _, hreturned⟩
      have hall := (deletesAll_iff hreturned).mpr ((hhonest w.objects).resolve_left hreturns)
      exact absurd hkey (hall.gone key hbefore howns)
  · rw [lookup_deleteRun_of_ne hid]
    exact hhoused key hbefore other howns

/-- Without failures the row goes. -/
theorem deleteRun_undisturbed (hundisturbed : env.Undisturbed id) (hrow : (w.runs.lookup id).isSome = true) :
    (deleteRun env id w).1 = .ok () ∧ (deleteRun env id w).2.runs = w.runs.erase id := by
  obtain ⟨total, objects, hreturned⟩ := returns_iff.mpr (hundisturbed.deletes w.objects)
  have hdelete : deleteArtifacts env id w = (.ok total, { w with objects }) := by
    rw [deleteArtifacts, hreturned]
    rfl
  have hpresent : (w.runs.lookup id).isNone = false := by
    rw [← Option.not_isSome, hrow]
    rfl
  rw [deleteRun, deleteWithObjects, Program.check_bind, hundisturbed.getFails, if_neg Bool.false_ne_true,
    Program.read_bind, Program.check_bind, hpresent, if_neg Bool.false_ne_true, Program.bind_ok hdelete,
    Program.check_bind, hundisturbed.commitFails, if_neg Bool.false_ne_true]
  exact ⟨rfl, rfl⟩

theorem cleanupRuns_cons : cleanupRuns envs (id :: ids) result w =
    cleanupRuns envs ids
      (match (deleteRun (envs id) id w).1 with
        | .ok _ => { result with deleted := result.deleted + 1 }
        | .error _ => { result with failed := result.failed + 1 })
      (deleteRun (envs id) id w).2 := by
  rw [cleanupRuns]
  cases hdelete : deleteRun (envs id) id w with
  | mk ended w' => cases ended <;> rfl

/-- Every run is counted once. -/
theorem cleanupRuns_counts : (cleanupRuns envs ids result w).1.deleted +
    (cleanupRuns envs ids result w).1.failed = result.deleted + result.failed + ids.length := by
  induction ids generalizing result w with
  | nil => rfl
  | cons id rest ih =>
      rw [cleanupRuns_cons, ih]
      cases (deleteRun (envs id) id w).1 with
      | ok done =>
          simp only [List.length_cons]
          omega
      | error cause =>
          simp only [List.length_cons]
          omega

theorem housed_cleanupRuns (hhonest : ∀ id ∈ ids, (envs id).Honest id) (hhoused : Housed w) :
    Housed (cleanupRuns envs ids result w).2 := by
  induction ids generalizing result w with
  | nil => exact hhoused
  | cons id rest ih =>
      rw [cleanupRuns_cons]
      exact ih (fun other hother => hhonest other (List.mem_cons_of_mem _ hother))
        (housed_deleteRun (hhonest id List.mem_cons_self) hhoused)

variable (envs result w) in
/-- A run that is not selected keeps its row and its objects. -/
theorem cleanupRuns_spares (hout : id ∉ ids) :
    (cleanupRuns envs ids result w).2.runs.lookup id = w.runs.lookup id ∧
      ∀ key, Owns id key → (key ∈ (cleanupRuns envs ids result w).2.objects ↔ key ∈ w.objects) := by
  induction ids generalizing result w with
  | nil => exact ⟨rfl, fun _ _ => Iff.rfl⟩
  | cons other rest ih =>
      rw [List.mem_cons, not_or] at hout
      obtain ⟨hrow, hobjects⟩ := ih _ _ hout.2
      rw [cleanupRuns_cons]
      refine ⟨?_, fun key howns => ?_⟩
      · rw [hrow, lookup_deleteRun_of_ne hout.1]
      · rw [hobjects key howns]
        exact objects_deleteRun fun hother => hout.1 (owns_unique howns hother)

variable (result) in
/-- Without failures every selected run is deleted. -/
theorem cleanupRuns_undisturbed (hundisturbed : ∀ id ∈ ids, (envs id).Undisturbed id) (hnodup : ids.Nodup)
    (hrows : ∀ id ∈ ids, (w.runs.lookup id).isSome = true) :
    (cleanupRuns envs ids result w).1 = { result with deleted := result.deleted + ids.length } ∧
      ∀ id ∈ ids, (cleanupRuns envs ids result w).2.runs.lookup id = none := by
  induction ids generalizing result w with
  | nil => exact ⟨rfl, fun id hid => by cases hid⟩
  | cons id rest ih =>
      obtain ⟨hout, hnodup⟩ := List.nodup_cons.mp hnodup
      obtain ⟨hok, hruns⟩ := deleteRun_undisturbed (hundisturbed id List.mem_cons_self)
        (hrows id List.mem_cons_self)
      have hrest : ∀ other ∈ rest, ((deleteRun (envs id) id w).2.runs.lookup other).isSome = true := by
        intro other hother
        have hne : other ≠ id := fun heq => hout (heq ▸ hother)
        rw [lookup_deleteRun_of_ne hne]
        exact hrows other (List.mem_cons_of_mem _ hother)
      rw [cleanupRuns_cons, hok]
      obtain ⟨hresult, hgone⟩ := ih { result with deleted := result.deleted + 1 }
        (fun other hother => hundisturbed other (List.mem_cons_of_mem _ hother)) hnodup hrest
      refine ⟨?_, fun other hother => ?_⟩
      · rw [hresult, List.length_cons]
        simp only [CleanupResult.mk.injEq, true_and, and_true]
        omega
      · rcases List.mem_cons.mp hother with rfl | hlater
        · rw [(cleanupRuns_spares _ _ _ hout).1, hruns]
          exact AList.lookup_erase _ _
        · exact hgone other hlater

theorem nodup_selectOlder (runs : Table Uuid Run) : (Retention.selectOlder olderThan runs).Nodup := by
  have hnodup : ((runs.select fun _ run => run.createdAt < olderThan).map Prod.fst).Nodup :=
    Table.nodup_select runs _
  have hperm := List.perm_insertionSort (fun x y : Uuid × Run => x.2.createdAt ≤ y.2.createdAt)
    (runs.select fun _ run => run.createdAt < olderThan)
  exact (hperm.map Prod.fst).nodup_iff.mpr hnodup

theorem housed_cleanups {ticks : List Tick} (hhonest : ∀ tick ∈ ticks, ∀ id, (tick.envs id).Honest id)
    (hhoused : Housed w) : Housed (cleanups ticks w) := by
  induction ticks generalizing w with
  | nil => exact hhoused
  | cons tick rest ih =>
      refine ih (fun later hlater => hhonest later (List.mem_cons_of_mem _ hlater)) ?_
      exact housed_cleanupRuns (fun id _ => hhonest tick List.mem_cons_self id) hhoused

/-- Cleanups leave a run alone that none of them is about, with all its objects. -/
theorem cleanups_spare {ticks : List Tick} {run : Run} (hrow : w.runs.lookup id = some run)
    (hnewer : ∀ tick ∈ ticks, tick.olderThan ≤ run.createdAt) :
    (cleanups ticks w).runs.lookup id = some run ∧
      ∀ key, Owns id key → (key ∈ (cleanups ticks w).objects ↔ key ∈ w.objects) := by
  induction ticks generalizing w with
  | nil => exact ⟨hrow, fun _ _ => Iff.rfl⟩
  | cons tick rest ih =>
      have hout : id ∉ Retention.selectOlder tick.olderThan w.runs := by
        intro hmem
        obtain ⟨other, hother, hlt⟩ := Retention.mem_selectOlder.mp hmem
        obtain rfl := Option.some.inj (hrow.symm.trans hother)
        exact absurd hlt (not_lt.mpr (hnewer tick List.mem_cons_self))
      obtain ⟨hsame, hobjects⟩ := cleanupRuns_spares tick.envs w
        { olderThan := tick.olderThan } hout
      obtain ⟨hrow', hobjects'⟩ := ih (hsame.trans hrow)
        fun later hlater => hnewer later (List.mem_cons_of_mem _ hlater)
      exact ⟨hrow', fun key howns => (hobjects' key howns).trans (hobjects key howns)⟩

theorem cleanups_concat {ticks : List Tick} {last : Tick} : cleanups (ticks ++ [last]) w =
    (cleanupOlderThan last.envs last.olderThan (cleanups ticks w)).2 := by
  induction ticks generalizing w with
  | nil => rfl
  | cons tick rest ih => exact ih

/-- Cleanups may fail at any call. Each of them counts every run that it selects once, and whatever they have
left undone, a cleanup without failures completes: no run that is old enough is left, every object that is
left is under the id of a run or a schedule, and newer runs have kept their rows and their objects. -/
theorem cleanups_finish {ticks : List Tick} {last : Tick}
    (hhonest : ∀ tick ∈ ticks ++ [last], ∀ id, (tick.envs id).Honest id)
    (hclean : ∀ id, (last.envs id).Undisturbed id) (hhoused : Housed w) :
    (∀ before tick after, ticks = before ++ tick :: after →
      (cleanupOlderThan tick.envs tick.olderThan (cleanups before w)).1.deleted +
        (cleanupOlderThan tick.envs tick.olderThan (cleanups before w)).1.failed =
          (Retention.selectOlder tick.olderThan (cleanups before w).runs).length) ∧
      (cleanupOlderThan last.envs last.olderThan (cleanups ticks w)).1 =
        { olderThan := last.olderThan
          deleted := (Retention.selectOlder last.olderThan (cleanups ticks w).runs).length } ∧
      (∀ id run, (cleanups (ticks ++ [last]) w).runs.lookup id = some run → last.olderThan ≤ run.createdAt) ∧
      Housed (cleanups (ticks ++ [last]) w) ∧
      ∀ id run, w.runs.lookup id = some run → (∀ tick ∈ ticks ++ [last], tick.olderThan ≤ run.createdAt) →
        (cleanups (ticks ++ [last]) w).runs.lookup id = some run ∧
          ∀ key, Owns id key → (key ∈ (cleanups (ticks ++ [last]) w).objects ↔ key ∈ w.objects) := by
  have hselected : ∀ id ∈ Retention.selectOlder last.olderThan (cleanups ticks w).runs,
      ((cleanups ticks w).runs.lookup id).isSome = true := by
    intro id hid
    obtain ⟨run, hrow, -⟩ := Retention.mem_selectOlder.mp hid
    rw [hrow]
    rfl
  obtain ⟨hresult, hgone⟩ := cleanupRuns_undisturbed { olderThan := last.olderThan }
    (fun id _ => hclean id) (nodup_selectOlder _) hselected
  refine ⟨fun before tick after _ => ?_, ?_, fun id run hrow => ?_, housed_cleanups hhonest hhoused,
    fun id run hrow hnewer => cleanups_spare hrow hnewer⟩
  · rw [cleanupOlderThan, cleanupRuns_counts]
    exact Nat.zero_add _
  · rw [cleanupOlderThan, hresult, Nat.zero_add]
  · rw [cleanups_concat] at hrow
    by_contra holder
    by_cases hid : id ∈ Retention.selectOlder last.olderThan (cleanups ticks w).runs
    · cases (hgone id hid).symm.trans hrow
    · rw [cleanupOlderThan, (cleanupRuns_spares _ _ _ hid).1] at hrow
      exact hid (Retention.mem_selectOlder.mpr ⟨run, hrow, not_le.mp holder⟩)

def steadyClient : Client := { refusingClient with keeps := fun _ _ => false }

/-- At the first cleanup the listing of the objects fails, at the second one nothing does. -/
def awayTick : Tick := ⟨1, fun _ => { client := { steadyClient with listRaises := fun _ => true } }⟩

def steadyTick : Tick := ⟨1, fun _ => { client := steadyClient }⟩

/-- An old run and a newer one, each with its input. -/
def twoRuns : World where
  runs := (AList.singleton 2 { QueueService.sampleQueuedRun 2 with createdAt := 1 }).insert 1
    (QueueService.sampleQueuedRun 1)
  schedules := ∅
  objects := {Lifecycle.inputKey 1, Lifecycle.inputKey 2}

theorem housed_twoRuns : Housed twoRuns := by
  intro key hkey id howns
  rcases Finset.mem_insert.mp hkey with rfl | hkey
  · obtain rfl : id = 1 := owns_ownKey.mp howns
    exact Or.inl rfl
  · obtain rfl := Finset.mem_singleton.mp hkey
    obtain rfl : id = 2 := owns_ownKey.mp howns
    exact Or.inl rfl

/-- The newer run has kept its row and its input. -/
theorem cleanups_finish_away : (cleanups [awayTick, steadyTick] twoRuns).runs.lookup 2 =
      some { QueueService.sampleQueuedRun 2 with createdAt := 1 } ∧
    (Lifecycle.inputKey 2 ∈ (cleanups [awayTick, steadyTick] twoRuns).objects ↔
      Lifecycle.inputKey 2 ∈ twoRuns.objects) := by
  have hhonest : ∀ tick ∈ [awayTick] ++ [steadyTick], ∀ id, (tick.envs id).Honest id := by
    intro tick htick id bucket
    right
    intro n page _ key _
    rcases List.mem_cons.mp htick with rfl | htick
    · rfl
    · obtain rfl := List.mem_singleton.mp htick
      rfl
  have hclean : ∀ id, (steadyTick.envs id).Undisturbed id := by
    refine fun id => ⟨rfl, rfl, ?_⟩
    rintro bucket ⟨n, page, -, hlist | hdelete⟩
    · cases hlist
    · cases hdelete.2
  obtain ⟨-, -, -, -, hspared⟩ := cleanups_finish hhonest hclean housed_twoRuns
  obtain ⟨hrow, hobjects⟩ := hspared 2 { QueueService.sampleQueuedRun 2 with createdAt := 1 } rfl (by decide)
  exact ⟨hrow, hobjects _ (owns_ownKey.mpr rfl)⟩

end PdeOperator.Storage.Deletion
