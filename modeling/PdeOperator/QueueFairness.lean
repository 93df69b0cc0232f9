import Mathlib.Data.Finset.Dedup
import Mathlib.Order.Filter.AtTopBot.Basic
import Mathlib.Order.Filter.Finite
import PdeOperator.QueueProgress
import PdeOperator.ReconcilerOutcome

/-! Runs that end. The queue worker and the reconciler take turns for ever, while new runs keep coming: a
run that waits in the queue gets its Job in the end, and every run that has a Job ends. -/

namespace PdeOperator
open Base Filter

namespace QueueService

/-- New runs, an admission tick and a reconciler tick. -/
structure Round where
  arrivals : List (Uuid × Run)
  admitAt : Instant
  profiles : Table Text Profile
  outcomes : Uuid → JobOutcome
  reconcileAt : Instant
  calls : Uuid → KubernetesCalls

/-- The commits of `create_run`, `retry_run` and `fire`; a commit under an id that has a row fails. -/
def arrive : List (Uuid × Run) → Table Uuid Run → Table Uuid Run
  | [], runs => runs
  | (id, run) :: rest, runs => arrive rest (if (runs.lookup id).isSome then runs else runs.insert id run)

section Rounds

variable (settings : Settings)

/-- The rows that the admission tick of a round leaves behind. -/
def Round.admitted (round : Round) (runs : Table Uuid Run) : Table Uuid Run :=
  (admitOnce settings round.admitAt round.profiles round.outcomes (arrive round.arrivals runs)).runs

def Round.after (round : Round) (runs : Table Uuid Run) : Table Uuid Run :=
  (JobReconciler.reconcileOnce settings round.reconcileAt round.calls (round.admitted settings runs)).runs

def afterRounds (rounds : Nat → Round) (runs : Table Uuid Run) : Nat → Table Uuid Run
  | 0 => runs
  | k + 1 => (rounds k).after settings (afterRounds rounds runs k)

/-- Kubernetes answers the phase and diagnostic reads of the reconciler. -/
def Round.Answers (round : Round) : Prop :=
  ∀ id, (round.calls id).observed.phase.isSome = true ∧ (round.calls id).observed.diagnostic.isSome = true

/-- Again and again, at times that grow without bound, Kubernetes answers the reconciler. -/
def AnswersForever (rounds : Nat → Round) : Prop :=
  ∀ t, ∃ᶠ k in atTop, t ≤ (rounds k).reconcileAt ∧ (rounds k).Answers

/-- The run of a row has ended. -/
def Ended (runs : Table Uuid Run) (id : Uuid) : Prop :=
  ∃ run, runs.lookup id = some run ∧ run.isTerminal = true

/-- The run of a row has a Job or has ended. -/
def Admitted (runs : Table Uuid Run) (id : Uuid) : Prop :=
  ∃ run, runs.lookup id = some run ∧ (run.isTracked = true ∨ run.isTerminal = true)

/-- The number of queued runs up to a given one. -/
def ahead (x : Uuid × Run) (runs : Table Uuid Run) : Nat :=
  (runs.select fun id run => run.isQueued && decide (admittedBefore (id, run) x)).length

/-- New runs go to the end of the queue, and Kubernetes creates the Jobs of the runs up to a given one. -/
structure Serves (x : Uuid × Run) (rounds : Nat → Round) (runs : Table Uuid Run) : Prop where
  queued : ∀ k, ∀ y ∈ (rounds k).arrivals, y.2.isQueued = true
  behind : ∀ k, ∀ y ∈ (rounds k).arrivals, ¬admittedBefore y x
  created : ∀ k y, (afterRounds settings rounds runs k).lookup y.1 = some y.2 → admittedBefore y x →
    (rounds k).outcomes y.1 = .created

end Rounds

variable {settings : Settings} {round : Round} {rounds : Nat → Round} {runs : Table Uuid Run} {id : Uuid}
  {run : Run} {x : Uuid × Run} {n k m : Nat}

theorem not_isQueued_of_isTracked (h : run.isTracked = true) : run.isQueued = false := by
  rw [← Bool.not_eq_true]
  intro hqueued
  have hname := (Run.isTracked_iff.mp h).1
  rw [(Run.isQueued_iff.mp hqueued).2] at hname
  cases hname

theorem not_isQueued_of_isTerminal (h : run.isTerminal = true) : run.isQueued = false := by
  rw [← Bool.not_eq_true]
  intro hqueued
  rw [Run.not_isTerminal_of_isQueued hqueued] at h
  cases h

theorem lookup_arrive (arrivals : List (Uuid × Run)) (h : runs.lookup id = some run) :
    (arrive arrivals runs).lookup id = some run := by
  induction arrivals generalizing runs with
  | nil => exact h
  | cons x rest ih =>
      obtain ⟨key, new⟩ := x
      rw [arrive]
      apply ih
      split
      · exact h
      · next hfree =>
        have hne : id ≠ key := by
          rintro rfl
          rw [h] at hfree
          exact hfree rfl
        rw [AList.lookup_insert_ne hne]
        exact h

/-- A row after the arrivals was there before, or has arrived. -/
theorem lookup_arrive_cases {arrivals : List (Uuid × Run)} (h : (arrive arrivals runs).lookup id = some run) :
    runs.lookup id = some run ∨ (id, run) ∈ arrivals := by
  induction arrivals generalizing runs with
  | nil => exact Or.inl h
  | cons x rest ih =>
      obtain ⟨key, new⟩ := x
      rw [arrive] at h
      rcases ih h with hold | hlater
      · split at hold
        · exact Or.inl hold
        · by_cases hid : id = key
          · subst hid
            rw [AList.lookup_insert] at hold
            obtain rfl := Option.some.inj hold
            exact Or.inr List.mem_cons_self
          · rw [AList.lookup_insert_ne hid] at hold
            exact Or.inl hold
      · exact Or.inr (List.mem_cons_of_mem _ hlater)

/-- An admission tick changes queued rows only. -/
theorem lookup_admitted_of_not_queued (h : runs.lookup id = some run) (hqueued : run.isQueued = false) :
    (round.admitted settings runs).lookup id = some run := by
  have hrow := lookup_arrive round.arrivals h
  have hout : id ∉ (attempted settings (arrive round.arrivals runs)).map Prod.fst := by
    intro hmem
    obtain ⟨y, hy, rfl⟩ := List.mem_map.mp hmem
    obtain ⟨hlookup, hyqueued⟩ := lookup_of_mem_attempted hy
    obtain rfl := Option.some.inj (hlookup.symm.trans hrow)
    rw [hyqueued] at hqueued
    cases hqueued
  exact (lookup_admitOnce_other hout).trans hrow

variable (settings round) in
/-- A reconciler tick keeps a tracked row or ends its run; it ends a run that is overdue when Kubernetes
answers. -/
theorem reconcile_tracked (h : runs.lookup id = some run) (htracked : run.isTracked = true) :
    ∃ run', (JobReconciler.reconcileOnce settings round.reconcileAt round.calls runs).runs.lookup id =
        some run' ∧ (run' = run ∨ run'.isTerminal = true) ∧
      (round.Answers → JobReconciler.GraceOver settings round.reconcileAt run ∨
        JobReconciler.WithoutProgress settings round.reconcileAt run → run'.isTerminal = true) := by
  cases hraises : JobReconciler.tickRaises settings round.reconcileAt round.calls runs with
  | true =>
      rw [JobReconciler.reconcileOnce_of_raises hraises]
      refine ⟨run, h, Or.inl rfl, fun hanswers _ => ?_⟩
      -- Where Kubernetes answers, no read raises.
      exfalso
      obtain ⟨⟨key, row⟩, -, hbad⟩ := List.any_eq_true.mp hraises
      obtain ⟨phase, hphase⟩ := Option.isSome_iff_exists.mp (hanswers key).1
      obtain ⟨diagnostic, hdiagnostic⟩ := Option.isSome_iff_exists.mp (hanswers key).2
      rw [JobReconciler.raisesAt, JobReconciler.raises_of_diagnostic hphase hdiagnostic] at hbad
      cases hbad
  | false =>
      have hquiet : JobReconciler.raises settings round.reconcileAt (round.calls id).observed run = false := by
        have hall := List.any_eq_false.mp hraises (id, run) (Table.mem_select.mpr ⟨h, htracked⟩)
        exact Bool.eq_false_iff.mpr hall
      obtain ⟨result, hresult⟩ := JobReconciler.exists_reconcileRun hquiet
      refine ⟨result.run, JobReconciler.lookup_reconcileOnce hraises h htracked hresult, ?_, ?_⟩
      · obtain ⟨-, ⟨-, rfl⟩ | ⟨-, hended⟩⟩ := JobReconciler.reconcileRun_cases hresult
        · exact Or.inl rfl
        · exact Or.inr hended.terminal
      · intro hanswers hover
        obtain ⟨phase, hphase⟩ := Option.isSome_iff_exists.mp (hanswers id).1
        exact (JobReconciler.reconcileRun_outcome htracked hphase hresult).terminal_iff.mpr (Or.inr hover)

theorem reconcile_untracked (h : runs.lookup id = some run) (htracked : run.isTracked = false) :
    (JobReconciler.reconcileOnce settings round.reconcileAt round.calls runs).runs.lookup id = some run := by
  rw [JobReconciler.lookup_reconcileOnce_untracked]
  · exact h
  · intro other hother
    obtain rfl := Option.some.inj (h.symm.trans hother)
    exact htracked

variable (settings round) in
theorem tracked_after (h : runs.lookup id = some run) (htracked : run.isTracked = true) :
    ∃ run', (round.after settings runs).lookup id = some run' ∧ (run' = run ∨ run'.isTerminal = true) ∧
      (round.Answers → JobReconciler.GraceOver settings round.reconcileAt run ∨
        JobReconciler.WithoutProgress settings round.reconcileAt run → run'.isTerminal = true) :=
  reconcile_tracked settings round (lookup_admitted_of_not_queued h (not_isQueued_of_isTracked htracked)) htracked

theorem Ended.after (h : Ended runs id) : Ended (round.after settings runs) id := by
  obtain ⟨run, hrow, hterminal⟩ := h
  have huntracked : run.isTracked = false := by
    rw [Run.isTracked, hterminal, Bool.not_true, Bool.and_false]
  exact ⟨run, reconcile_untracked (lookup_admitted_of_not_queued hrow (not_isQueued_of_isTerminal hterminal))
    huntracked, hterminal⟩

theorem Ended.mono (h : Ended (afterRounds settings rounds runs n) id) (hle : n ≤ k) :
    Ended (afterRounds settings rounds runs k) id := by
  induction k, hle using Nat.le_induction with
  | base => exact h
  | succ k hle ih => exact ih.after

variable (settings) in
/-- At all late times the grace period of a run is over or it has made no progress. -/
theorem exists_overdue (run : Run) : ∃ t, ∀ now, t ≤ now →
    JobReconciler.GraceOver settings now run ∨ JobReconciler.WithoutProgress settings now run := by
  cases hcancel : run.cancelRequestedAt with
  | none =>
      refine ⟨JobReconciler.lastProgress run + seconds settings.reconcilerStuckTimeoutSeconds,
        fun now hnow => Or.inr ⟨hcancel, ?_⟩⟩
      exact Int.le_sub_left_of_add_le hnow
  | some requested =>
      refine ⟨requested + seconds settings.cancelGraceSeconds, fun now hnow => Or.inl ⟨requested, hcancel, ?_⟩⟩
      exact Int.le_sub_left_of_add_le hnow

/-- A run with a Job keeps its row until it ends. -/
theorem tracked_stays (hrow : (afterRounds settings rounds runs n).lookup id = some run)
    (htracked : run.isTracked = true) (hle : n ≤ k) :
    (afterRounds settings rounds runs k).lookup id = some run ∨ Ended (afterRounds settings rounds runs k) id := by
  induction k, hle using Nat.le_induction with
  | base => exact Or.inl hrow
  | succ k hle ih =>
      rcases ih with hsame | hended
      · obtain ⟨run', hrow', hkept, -⟩ := tracked_after settings (rounds k) hsame htracked
        rcases hkept with rfl | hterminal
        · exact Or.inl hrow'
        · exact Or.inr ⟨run', hrow', hterminal⟩
      · exact Or.inr hended.after

theorem tracked_ends (hfair : AnswersForever rounds)
    (hrow : (afterRounds settings rounds runs n).lookup id = some run) (htracked : run.isTracked = true) :
    ∀ᶠ k in atTop, Ended (afterRounds settings rounds runs k) id := by
  obtain ⟨t, hlate⟩ := exists_overdue settings run
  obtain ⟨k, ⟨hnow, hanswers⟩, hk⟩ := ((hfair t).and_eventually (eventually_ge_atTop n)).exists
  have hended : Ended (afterRounds settings rounds runs (k + 1)) id := by
    rcases tracked_stays hrow htracked hk with hsame | hended
    · obtain ⟨run', hrow', -, hends⟩ := tracked_after settings (rounds k) hsame htracked
      exact ⟨run', hrow', hends hanswers (hlate _ hnow)⟩
    · exact hended.after
  filter_upwards [eventually_ge_atTop (k + 1)] with m hm
  exact hended.mono hm

/-- What is queued after an admission tick was queued before it, and its Job has not been created. -/
theorem queued_of_admitted (hrow : (round.admitted settings runs).lookup id = some run)
    (hqueued : run.isQueued = true) : (arrive round.arrivals runs).lookup id = some run ∧
      (round.outcomes id = .created → id ∉ (attempted settings (arrive round.arrivals runs)).map Prod.fst) := by
  by_cases hmem : id ∈ (attempted settings (arrive round.arrivals runs)).map Prod.fst
  · obtain ⟨y, hy, rfl⟩ := List.mem_map.mp hmem
    have hadmitted : (round.admitted settings runs).lookup y.1 = some (admitRun round.admitAt y.1
        (round.profiles.lookup y.2.profileId) (round.outcomes y.1) y.2) := lookup_admitOnce hy
    obtain rfl := Option.some.inj (hadmitted.symm.trans hrow)
    cases hprofile : round.profiles.lookup y.2.profileId with
    | none =>
        rw [hprofile] at hqueued
        simp [admitRun, Run.isQueued] at hqueued
    | some profile =>
        rw [hprofile] at hqueued
        cases houtcome : round.outcomes y.1 with
        | created =>
            rw [houtcome] at hqueued
            simp [admitRun, RunService.startRunJobNow, Run.isQueued] at hqueued
        | refused => exact ⟨(lookup_of_mem_attempted hy).1, fun hcreated => by cases hcreated⟩
        | lost => exact ⟨(lookup_of_mem_attempted hy).1, fun hcreated => by cases hcreated⟩
  · exact ⟨(lookup_admitOnce_other hmem).symm.trans hrow, fun _ => hmem⟩

/-- What is queued or tracked after a reconciler tick is a row as it was before. -/
theorem lookup_before_reconcile (hrow : (round.after settings runs).lookup id = some run)
    (hopen : run.isTerminal = false) : (round.admitted settings runs).lookup id = some run := by
  cases hbefore : (round.admitted settings runs).lookup id with
  | none =>
      have hsame : (round.after settings runs).lookup id = (round.admitted settings runs).lookup id := by
        apply JobReconciler.lookup_reconcileOnce_untracked
        intro other hother
        cases hbefore.symm.trans hother
      rw [← hbefore, ← hsame, hrow]
  | some old =>
      cases htracked : old.isTracked with
      | false => exact (reconcile_untracked hbefore htracked).symm.trans hrow
      | true =>
          obtain ⟨run', hrow', hkept, -⟩ :=
            reconcile_tracked settings round hbefore htracked
          obtain rfl := Option.some.inj (hrow'.symm.trans hrow)
          rcases hkept with rfl | hterminal
          · rfl
          · rw [hterminal] at hopen
            cases hopen

theorem admittedBefore_refl (x : Uuid × Run) : admittedBefore x x := Or.inr ⟨rfl, BitVec.le_refl _⟩

section Served

variable (hqueue : ∀ y ∈ round.arrivals, y.2.isQueued = true)
  (hbehind : ∀ y ∈ round.arrivals, ¬admittedBefore y x)
  (hcreated : ∀ y, runs.lookup y.1 = some y.2 → admittedBefore y x → round.outcomes y.1 = .created)

include hbehind in
theorem lookup_of_before (hrow : (arrive round.arrivals runs).lookup id = some run)
    (hbefore : admittedBefore (id, run) x) : runs.lookup id = some run :=
  (lookup_arrive_cases hrow).resolve_right fun hmem => hbehind (id, run) hmem hbefore

include hbehind hcreated in
/-- The queue up to the run loses the runs that the tick looks at, and gains none. -/
theorem queued_before (hrow : (round.after settings runs).lookup id = some run)
    (hqueued : run.isQueued = true) (hbefore : admittedBefore (id, run) x) :
    runs.lookup id = some run ∧ id ∉ (attempted settings (arrive round.arrivals runs)).map Prod.fst := by
  obtain ⟨harrived, hout⟩ :=
    queued_of_admitted (lookup_before_reconcile hrow (Run.not_isTerminal_of_isQueued hqueued)) hqueued
  have hold : runs.lookup id = some run := lookup_of_before hbehind harrived hbefore
  exact ⟨hold, hout (hcreated (id, run) hold hbefore)⟩

include hqueue in
/-- A tick that looks at no row creates no Job. -/
theorem tracked_before (hnone : attempted settings (arrive round.arrivals runs) = [])
    (hrow : (round.after settings runs).lookup id = some run) (htracked : run.isTracked = true) :
    runs.lookup id = some run := by
  have hadmitted := lookup_before_reconcile hrow (Run.isTracked_iff.mp htracked).2
  have harrived : (arrive round.arrivals runs).lookup id = some run := by
    rw [← hadmitted]
    refine (lookup_admitOnce_other ?_).symm
    rw [hnone]
    exact List.not_mem_nil
  refine (lookup_arrive_cases harrived).resolve_right fun hmem => ?_
  have hqueued := hqueue (id, run) hmem
  rw [not_isQueued_of_isTracked htracked] at hqueued
  cases hqueued

include hbehind hcreated in
theorem ahead_after_le : ahead x (round.after settings runs) ≤ ahead x runs := by
  refine Table.length_select_le [] fun key row hlookup hselected => Or.inr ⟨row, ?_, hselected⟩
  · obtain ⟨hqueued, hbefore⟩ := (Bool.and_eq_true _ _).mp hselected
    exact (queued_before hbehind hcreated hlookup hqueued (of_decide_eq_true hbefore)).1

include hcreated in
/-- A run that the tick looks at has a Job or has ended after the round. -/
theorem admitted_of_attempted (hrow : runs.lookup x.1 = some x.2)
    (hx : x ∈ attempted settings (arrive round.arrivals runs)) : Admitted (round.after settings runs) x.1 := by
  have hadmitted : (round.admitted settings runs).lookup x.1 = some (admitRun round.admitAt x.1
      (round.profiles.lookup x.2.profileId) (round.outcomes x.1) x.2) := lookup_admitOnce hx
  rw [hcreated x hrow (admittedBefore_refl x)] at hadmitted
  cases hprofile : round.profiles.lookup x.2.profileId with
  | none =>
      rw [hprofile] at hadmitted
      have hterminal : (admitRun round.admitAt x.1 none .created x.2).isTerminal = true := rfl
      have huntracked : (admitRun round.admitAt x.1 none .created x.2).isTracked = false := by
        rw [Run.isTracked, hterminal, Bool.not_true, Bool.and_false]
      exact ⟨_, reconcile_untracked hadmitted huntracked, Or.inr hterminal⟩
  | some profile =>
      rw [hprofile] at hadmitted
      have htracked : (RunService.startRunJobNow round.admitAt x.1 x.2).isTracked = true := rfl
      obtain ⟨run', hrow', hkept, -⟩ :=
        reconcile_tracked settings round hadmitted htracked
      rcases hkept with rfl | hterminal
      · exact ⟨_, hrow', Or.inl htracked⟩
      · exact ⟨run', hrow', Or.inr hterminal⟩

include hqueue hbehind hcreated in
/-- The round of a queued run: it gets its Job or ends, or the queue up to it becomes shorter, or all slots
are taken. -/
theorem queued_after (henabled : settings.k8sJobCreationEnabled = true) (hrow : runs.lookup x.1 = some x.2)
    (hqueued : x.2.isQueued = true) : Admitted (round.after settings runs) x.1 ∨
      (round.after settings runs).lookup x.1 = some x.2 ∧
        (ahead x (round.after settings runs) < ahead x runs ∨
          (∃ key row, runs.lookup key = some row ∧ row.isTracked = true) ∧
            ∀ key row, (round.after settings runs).lookup key = some row → row.isTracked = true →
              runs.lookup key = some row) := by
  have harrived : (arrive round.arrivals runs).lookup x.1 = some x.2 := lookup_arrive round.arrivals hrow
  have hin : x ∈ (arrive round.arrivals runs).select fun _ run => run.isQueued :=
    Table.mem_select.mpr ⟨harrived, hqueued⟩
  have hfirst := firstRows_selectQueued (arrive round.arrivals runs)
    (attempts settings (arrive round.arrivals runs))
  by_cases hx : x ∈ attempted settings (arrive round.arrivals runs)
  · exact Or.inl (admitted_of_attempted hcreated hrow hx)
  · refine Or.inr ⟨?_, ?_⟩
    · have hout : x.1 ∉ (attempted settings (arrive round.arrivals runs)).map Prod.fst := by
        intro hmem
        obtain ⟨y, hy, hid⟩ := List.mem_map.mp hmem
        obtain ⟨hlookup, -⟩ := lookup_of_mem_attempted hy
        rw [hid, harrived] at hlookup
        have hsame : x = y := Prod.ext hid.symm (Option.some.inj hlookup)
        exact hx (hsame ▸ hy)
      have hadmitted : (round.admitted settings runs).lookup x.1 = some x.2 :=
        (lookup_admitOnce_other hout).trans harrived
      refine reconcile_untracked hadmitted ?_
      rw [Run.isTracked, (Run.isQueued_iff.mp hqueued).2]
      rfl
    · cases hattempted : attempted settings (arrive round.arrivals runs) with
      | cons y rest =>
          left
          have hy : y ∈ attempted settings (arrive round.arrivals runs) := by
            rw [hattempted]
            exact List.mem_cons_self
          have hbefore : admittedBefore y x := hfirst.earlier y hy x hin hx
          obtain ⟨hlookup, hyqueued⟩ := lookup_of_mem_attempted hy
          apply Table.length_select_lt (k := y.1)
          · rintro key ⟨row, hlookup', hselected⟩
            obtain ⟨hrowQueued, hrowBefore⟩ := (Bool.and_eq_true _ _).mp hselected
            obtain ⟨hold, -⟩ := queued_before hbehind hcreated hlookup' hrowQueued (of_decide_eq_true hrowBefore)
            exact ⟨row, hold, hselected⟩
          · exact ⟨y.2, lookup_of_before hbehind hlookup hbefore, by simp [hyqueued, hbefore]⟩
          · rintro ⟨row, hlookup', hselected⟩
            obtain ⟨hrowQueued, hrowBefore⟩ := (Bool.and_eq_true _ _).mp hselected
            obtain ⟨-, hout⟩ := queued_before hbehind hcreated hlookup' hrowQueued (of_decide_eq_true hrowBefore)
            exact hout (List.mem_map_of_mem hy)
      | nil =>
          right
          refine ⟨?_, fun key row hlookup htracked => tracked_before hqueue hattempted hlookup htracked⟩
          -- No row is looked at although one is queued: no slot is free.
          unfold attempts at hfirst
          rw [if_pos henabled, freeSlots] at hfirst
          unfold attempted attempts at hattempted hx
          rw [if_pos henabled, freeSlots] at hattempted hx
          split at hfirst
          · next hunlimited =>
            rw [if_pos hunlimited] at hattempted
            have hlength := hfirst.length_eq
            rw [hattempted] at hlength
            have hempty := List.eq_nil_of_length_eq_zero hlength.symm
            rw [hempty] at hin
            cases hin
          · next hlimited =>
            rw [if_neg hlimited] at hattempted hx
            have hzero := hfirst.length_of_notMem hin hx
            rw [hattempted, List.length_nil] at hzero
            have hactive : 0 < activeCount (arrive round.arrivals runs) := by omega
            obtain ⟨⟨key, row⟩, hmem⟩ := List.exists_mem_of_length_pos hactive
            obtain ⟨hlookup, htracked⟩ := Table.mem_select.mp hmem
            refine ⟨key, row, (lookup_arrive_cases hlookup).resolve_right fun harrival => ?_, htracked⟩
            have hnew := hqueue (key, row) harrival
            rw [not_isQueued_of_isTracked htracked] at hnew
            cases hnew

end Served

/-! ### For ever -/

/-- All runs that have a Job at some time have ended later. -/
theorem all_tracked_end (hfair : AnswersForever rounds) : ∀ᶠ k in atTop, ∀ id run,
    (afterRounds settings rounds runs n).lookup id = some run → run.isTracked = true →
      Ended (afterRounds settings rounds runs k) id := by
  have hall : ∀ᶠ k in atTop,
      ∀ id ∈ (((afterRounds settings rounds runs n).select fun _ run => run.isTracked).map Prod.fst).toFinset,
        Ended (afterRounds settings rounds runs k) id := by
    rw [eventually_all_finset]
    intro id hid
    obtain ⟨run, hrow, htracked⟩ := Table.mem_map_fst_select.mp (List.mem_toFinset.mp hid)
    exact tracked_ends hfair hrow htracked
  filter_upwards [hall] with k hk id run hrow htracked
  exact hk id (List.mem_toFinset.mpr (Table.mem_map_fst_select.mpr ⟨run, hrow, htracked⟩))

/-- A run that is queued at some time has a Job or has ended later. -/
theorem queued_admitted (henabled : settings.k8sJobCreationEnabled = true) (hfair : AnswersForever rounds)
    (hserves : Serves settings x rounds runs) (hqueued : x.2.isQueued = true)
    (hrow : (afterRounds settings rounds runs n).lookup x.1 = some x.2) :
    ∃ k, Admitted (afterRounds settings rounds runs k) x.1 := by
  induction hahead : ahead x (afterRounds settings rounds runs n) using Nat.strong_induction_on
    generalizing n with
  | _ length ih =>
      by_contra hnever
      rw [not_exists] at hnever
      have hround : ∀ k, (afterRounds settings rounds runs k).lookup x.1 = some x.2 →
          ahead x (afterRounds settings rounds runs k) ≤ length →
            (afterRounds settings rounds runs (k + 1)).lookup x.1 = some x.2 ∧
              (∃ key row, (afterRounds settings rounds runs k).lookup key = some row ∧
                row.isTracked = true) ∧
              ∀ key row, (afterRounds settings rounds runs (k + 1)).lookup key = some row →
                row.isTracked = true → (afterRounds settings rounds runs k).lookup key = some row := by
        intro k hk hlength
        have hafter := queued_after (hserves.queued k) (hserves.behind k) (hserves.created k) henabled hk hqueued
        change Admitted (afterRounds settings rounds runs (k + 1)) x.1 ∨ _ at hafter
        rcases hafter with hadmitted | ⟨hwaits, hshorter | hfull⟩
        · exact absurd hadmitted (hnever (k + 1))
        · obtain ⟨later, hadmitted⟩ := ih _ (hshorter.trans_le hlength) (n := k + 1) hwaits rfl
          exact absurd hadmitted (hnever later)
        · exact ⟨hwaits, hfull⟩
      -- The run waits for ever, and the runs that have a Job are those that had one at first.
      have hwaiting : ∀ k, n ≤ k → (afterRounds settings rounds runs k).lookup x.1 = some x.2 ∧
          ahead x (afterRounds settings rounds runs k) ≤ length ∧
          ∀ key row, (afterRounds settings rounds runs k).lookup key = some row → row.isTracked = true →
            (afterRounds settings rounds runs n).lookup key = some row := by
        intro k hle
        induction k, hle using Nat.le_induction with
        | base => exact ⟨hrow, hahead.le, fun _ _ hlookup _ => hlookup⟩
        | succ k hle ihk =>
            obtain ⟨hk, hlength, hsame⟩ := ihk
            obtain ⟨hwaits, -, hkept⟩ := hround k hk hlength
            refine ⟨hwaits, (ahead_after_le (hserves.behind k) (hserves.created k)).trans hlength, ?_⟩
            exact fun key row hlookup htracked => hsame key row (hkept key row hlookup htracked) htracked
      obtain ⟨k, hended, hle⟩ := ((all_tracked_end hfair).and (eventually_ge_atTop n)).exists
      obtain ⟨hk, hlength, hsame⟩ := hwaiting k hle
      obtain ⟨-, ⟨key, row, hlookup, htracked⟩, -⟩ := hround k hk hlength
      obtain ⟨row', hlookup', hterminal⟩ := hended key row (hsame key row hlookup htracked) htracked
      obtain rfl := Option.some.inj (hlookup.symm.trans hlookup')
      rw [(Run.isTracked_iff.mp htracked).2] at hterminal
      cases hterminal

/-- While new runs keep coming and Kubernetes answers the reconciler again and again, a run with a Job ends,
and a run that is queued gets its Job and ends, however many runs come behind it. -/
theorem every_run_ends (henabled : settings.k8sJobCreationEnabled = true) (hfair : AnswersForever rounds)
    (hrow : runs.lookup id = some run)
    (hopen : run.isTracked = true ∨ run.isQueued = true ∧ Serves settings (id, run) rounds runs) :
    ∀ᶠ k in atTop, ∃ ended, (afterRounds settings rounds runs k).lookup id = some ended ∧
      ended.isTerminal = true := by
  have hlookup : (afterRounds settings rounds runs 0).lookup id = some run := hrow
  rcases hopen with htracked | ⟨hqueued, hserves⟩
  · exact tracked_ends hfair hlookup htracked
  · obtain ⟨k, run', hrow', htracked | hterminal⟩ :=
      queued_admitted (x := (id, run)) henabled hfair hserves hqueued hlookup
    · exact tracked_ends hfair hrow' htracked
    · filter_upwards [eventually_ge_atTop k] with m hm
      exact Ended.mono ⟨run', hrow', hterminal⟩ hm

/-- A new run in every round, and Jobs that never end by themselves. -/
def busyRounds (k : Nat) : Round where
  arrivals := [(BitVec.ofNat 128 (k + 2), { sampleQueuedRun 2 with createdAt := (k : Int) + 1 })]
  admitAt := k * seconds 60
  profiles := Lifecycle.sampleProfiles
  outcomes _ := .created
  reconcileAt := k * seconds 60
  calls _ := { observed := { phase := some .active } }

/-- With one slot, a run that is queued behind none ends although a new run comes in every round. -/
theorem every_run_ends_busy : ∀ᶠ k in atTop, ∃ ended,
    (afterRounds { maxConcurrentRuns := 1 } busyRounds (AList.singleton 1 (sampleQueuedRun 1)) k).lookup 1 =
      some ended ∧ ended.isTerminal = true := by
  have hfair : AnswersForever busyRounds := by
    intro (t : Int)
    apply Eventually.frequently
    filter_upwards [eventually_ge_atTop t.toNat] with k hk
    refine ⟨?_, fun _ => ⟨rfl, rfl⟩⟩
    change t ≤ (k : Int) * 60000000
    omega
  have hserves : Serves { maxConcurrentRuns := 1 } (1, sampleQueuedRun 1) busyRounds
      (AList.singleton 1 (sampleQueuedRun 1)) := by
    refine ⟨fun k y hy => ?_, fun k y hy => ?_, fun _ _ _ _ => rfl⟩
    · obtain rfl := List.mem_singleton.mp hy
      rfl
    · obtain rfl := List.mem_singleton.mp hy
      rintro (hlt | ⟨heq, -⟩)
      · change (k : Int) + 1 < 0 at hlt
        omega
      · change (k : Int) + 1 = 0 at heq
        omega
  exact every_run_ends rfl hfair (by decide) (Or.inr ⟨by decide, hserves⟩)

end QueueService
end PdeOperator
