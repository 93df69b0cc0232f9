import PdeOperator.BaseSystem
import PdeOperator.JobEntrypoint

/-! Signals to the wrapper. A Job is cancelled by signals that come at any moment; the handler only takes a
note of them and passes them on to PDE. Whenever they come, the wrapper does with the workspace what it
would have done without them. -/

namespace PdeOperator.JobEntrypoint
open Base

inductive Signal where
  | int | term
  deriving DecidableEq

/-- How far `_run_pde` has come; `stages` are the steps of `finish` that are left. -/
inductive Phase where
  | starting
  /-- The log is open. -/
  | opened
  /-- PDE has been started, and `_child` may have been assigned. -/
  | running (assigned : Bool)
  | finishing (stages : List (Program Error State Unit))
  | exited (status : Int)
  | raised (e : Error)
  | killed (signal : Signal)

structure Wrapper where
  phase : Phase
  store : State
  /-- The signals with a handler of their own. -/
  handled : List Signal := []
  /-- `_cancelled` -/
  cancelled : Bool := false
  /-- What PDE has left, and its status, once it has ended. -/
  ended : Option (FileTree × Int) := none
  /-- How often PDE has got a `SIGINT` from the wrapper. -/
  interrupts : Nat := 0

inductive Act where
  /-- The next step of the wrapper. -/
  | advance
  | pdeEnds (files : FileTree) (status : Int)
  | signal (signal : Signal)

variable (host : Host)

def finishStages : List (Program Error State Unit) :=
  [stageXDebug, stagePipelineReports, archiveOnce host, zipXDebug host,
    uploadArtifacts host >>= fun _ => pure ()]

def advance (w : Wrapper) : Option Wrapper :=
  match w.phase with
  | .starting =>
      match w.handled with
      | [] => some { w with handled := [.int] }
      | [signal] => some { w with handled := [signal, .term] }
      | _ =>
          if w.store.files.isDir consoleLog then some { w with phase := .raised .osError }
          else some { w with
            phase := .opened
            store := { w.store with files := w.store.files.write consoleLog [] } }
  | .opened => some { w with phase := .running false }
  | .running false => some { w with phase := .running true }
  | .running true =>
      match w.ended with
      | none => none
      | some _ => some { w with phase := .finishing (finishStages host) }
  | .finishing (stage :: stages) =>
      match stage w.store with
      | (.error e, store) => some { w with phase := .raised e, store }
      | (.ok (), store) => some { w with phase := .finishing stages, store }
  | .finishing [] =>
      w.ended.map fun ended =>
        { w with phase := .exited (if w.cancelled || isInterrupt ended.2 then 143 else ended.2) }
  | .exited _ | .raised _ | .killed _ => none

/-- A child that has been started ends once. -/
def pdeEnds (files : FileTree) (status : Int) (w : Wrapper) : Option Wrapper :=
  match w.phase, w.ended with
  | .running _, none => some { w with store := { w.store with files }, ended := some (files, status) }
  | _, _ => none

/-- `_on_signal`, or the default of the signal while it has no handler; a signal that the kernel does not
deliver is no step, and a process that is gone gets none. -/
def onSignal (signal : Signal) (w : Wrapper) : Option Wrapper :=
  match w.phase with
  | .exited _ | .raised _ | .killed _ => none
  | .running true =>
      if w.ended.isNone then some { w with cancelled := true, interrupts := w.interrupts + 1 }
      else some { w with cancelled := true }
  | _ =>
      if signal ∈ w.handled then some { w with cancelled := true }
      else some { w with phase := .killed signal }

def wrapper : System Wrapper Act where
  step w
    | .advance => advance host w
    | .pdeEnds files status => pdeEnds files status w
    | .signal signal => onSignal signal w

/-- `_run_pde` is entered. -/
def entered (s : State) : Wrapper := { phase := .starting, store := s }

/-! ### What the wrapper does, without the signals -/

section Sequence

/-- One program after the other. -/
def inOrder : List (Program Error State Unit) → Program Error State Unit
  | [] => pure ()
  | stage :: stages => stage >>= fun _ => inOrder stages

theorem finish_eq_inOrder : finish host = inOrder (finishStages host) := by
  have hlast : ∀ program : Program Error State Int, (program >>= fun _ => pure ()) =
      inOrder [program >>= fun _ => pure ()] := by
    intro program
    funext s
    rcases Program.bind_cases program (fun _ => (pure () : Program Error State Unit)) s with
      ⟨e, s', -, hs⟩ | ⟨a, s', -, hs⟩
    · exact hs.trans (Program.bind_error hs).symm
    · exact hs.trans (Program.bind_ok hs).symm
  show (stageXDebug >>= fun _ => stagePipelineReports >>= fun _ => archiveOnce host >>= fun _ =>
    zipXDebug host >>= fun _ => uploadArtifacts host >>= fun _ => pure ()) = _
  rw [hlast (uploadArtifacts host)]
  rfl

end Sequence

variable {host} {s : State} {w w' : Wrapper} {acts : List Act}

/-- How a wrapper that is gone has ended; one that has been killed has no result. -/
def Phase.result : Phase → Option (Except Error Int)
  | .exited status => some (.ok status)
  | .raised e => some (.error e)
  | _ => none

/-- The store while PDE runs, and once it has ended. -/
def storeOf (s : State) : Option (FileTree × Int) → State
  | none => { s with files := s.files.write consoleLog [] }
  | some ended => { s with files := ended.1 }

/-- What holds of the wrapper at each point, whatever signals have come. -/
def Undisturbed (host : Host) (s : State) (w : Wrapper) : Prop :=
  match w.phase with
  | .starting => w.store = s ∧ w.ended = none ∧
      (w.handled = [] ∨ w.handled = [.int] ∨ w.handled = [.int, .term])
  | .opened => s.files.isDir consoleLog = false ∧ w.store = storeOf s none ∧ w.ended = none ∧
      w.handled = [.int, .term]
  | .running _ => s.files.isDir consoleLog = false ∧ w.store = storeOf s w.ended ∧ w.handled = [.int, .term]
  | .finishing stages => s.files.isDir consoleLog = false ∧ w.handled = [.int, .term] ∧
      ∃ ended, w.ended = some ended ∧ finish host (storeOf s (some ended)) = inOrder stages w.store
  | .exited status => s.files.isDir consoleLog = false ∧
      ∃ ended, w.ended = some ended ∧ finish host (storeOf s (some ended)) = (.ok (), w.store) ∧
        status = if w.cancelled || isInterrupt ended.2 then 143 else ended.2
  | .raised e => (s.files.isDir consoleLog = true ∧ e = .osError ∧ w.store = s) ∨
      s.files.isDir consoleLog = false ∧
        ∃ ended, w.ended = some ended ∧ finish host (storeOf s (some ended)) = (.error e, w.store)
  | .killed _ => w.store = s

theorem undisturbed_advance (h : Undisturbed host s w) (hstep : advance host w = some w') :
    Undisturbed host s w' := by
  obtain ⟨phase, store, handled, cancelled, ended, interrupts⟩ := w
  unfold advance at hstep
  cases phase with
  | starting =>
      obtain ⟨rfl, rfl, rfl | rfl | rfl⟩ := h
      · obtain rfl := Option.some.inj hstep
        exact ⟨rfl, rfl, Or.inr (Or.inl rfl)⟩
      · obtain rfl := Option.some.inj hstep
        exact ⟨rfl, rfl, Or.inr (Or.inr rfl)⟩
      · dsimp only at hstep
        cases hlog : store.files.isDir consoleLog with
        | true =>
            rw [hlog, if_pos rfl] at hstep
            obtain rfl := Option.some.inj hstep
            exact Or.inl ⟨hlog, rfl, rfl⟩
        | false =>
            rw [hlog, if_neg Bool.false_ne_true] at hstep
            obtain rfl := Option.some.inj hstep
            exact ⟨hlog, rfl, rfl, rfl⟩
  | opened =>
      obtain ⟨hlog, hstore, rfl, hsignals⟩ := h
      obtain rfl := Option.some.inj hstep
      exact ⟨hlog, hstore, hsignals⟩
  | running assigned =>
      obtain ⟨hlog, hstore, hsignals⟩ := h
      cases assigned with
      | false =>
          obtain rfl := Option.some.inj hstep
          exact ⟨hlog, hstore, hsignals⟩
      | true =>
          cases ended with
          | none => cases hstep
          | some ended =>
              obtain rfl := Option.some.inj hstep
              refine ⟨hlog, hsignals, ended, rfl, ?_⟩
              rw [finish_eq_inOrder, ← hstore]
  | finishing stages =>
      obtain ⟨hlog, hsignals, last, rfl, hfinish⟩ := h
      cases stages with
      | nil =>
          obtain rfl := Option.some.inj hstep
          exact ⟨hlog, last, rfl, hfinish, rfl⟩
      | cons stage stages =>
          dsimp only at hstep
          split at hstep
          · next e store' hraised =>
            obtain rfl := Option.some.inj hstep
            exact Or.inr ⟨hlog, last, rfl, hfinish.trans (Program.bind_error hraised)⟩
          · next store' hdone =>
            obtain rfl := Option.some.inj hstep
            exact ⟨hlog, hsignals, last, rfl, hfinish.trans (Program.bind_ok hdone)⟩
  | exited status => cases hstep
  | raised e => cases hstep
  | killed signal => cases hstep

theorem undisturbed_pdeEnds {files : FileTree} {status : Int} (h : Undisturbed host s w)
    (hstep : pdeEnds files status w = some w') : Undisturbed host s w' := by
  obtain ⟨phase, store, handled, cancelled, ended, interrupts⟩ := w
  unfold pdeEnds at hstep
  split at hstep
  · next assigned hphase hended =>
    obtain rfl : phase = .running assigned := hphase
    obtain rfl : ended = none := hended
    obtain ⟨hlog, hstore, hsignals⟩ := h
    obtain rfl : store = storeOf s none := hstore
    obtain rfl := Option.some.inj hstep
    exact ⟨hlog, rfl, hsignals⟩
  · cases hstep

/-- A signal changes nothing but what the handler notes, or it kills the wrapper before it has done
anything. -/
theorem undisturbed_signal {signal : Signal} (h : Undisturbed host s w)
    (hstep : onSignal signal w = some w') :
    Undisturbed host s w' ∧ ((∃ signal, w'.phase = .killed signal) ∨ w'.cancelled = true) := by
  have hall : ∀ signal : Signal, signal ∈ [Signal.int, .term] := by
    intro signal
    cases signal <;> decide
  obtain ⟨phase, store, handled, cancelled, ended, interrupts⟩ := w
  unfold onSignal at hstep
  cases phase with
  | starting =>
      dsimp only at hstep
      split at hstep
      · obtain rfl := Option.some.inj hstep
        exact ⟨h, Or.inr rfl⟩
      · obtain rfl := Option.some.inj hstep
        exact ⟨h.1, Or.inl ⟨_, rfl⟩⟩
  | opened =>
      obtain ⟨hlog, hstore, hended, rfl⟩ := h
      rw [if_pos (hall signal)] at hstep
      obtain rfl := Option.some.inj hstep
      exact ⟨⟨hlog, hstore, hended, rfl⟩, Or.inr rfl⟩
  | running assigned =>
      obtain ⟨hlog, hstore, rfl⟩ := h
      cases assigned with
      | false =>
          rw [if_pos (hall signal)] at hstep
          obtain rfl := Option.some.inj hstep
          exact ⟨⟨hlog, hstore, rfl⟩, Or.inr rfl⟩
      | true =>
          dsimp only at hstep
          split at hstep
          · obtain rfl := Option.some.inj hstep
            exact ⟨⟨hlog, hstore, rfl⟩, Or.inr rfl⟩
          · obtain rfl := Option.some.inj hstep
            exact ⟨⟨hlog, hstore, rfl⟩, Or.inr rfl⟩
  | finishing stages =>
      obtain ⟨hlog, rfl, hended⟩ := h
      rw [if_pos (hall signal)] at hstep
      obtain rfl := Option.some.inj hstep
      exact ⟨⟨hlog, rfl, hended⟩, Or.inr rfl⟩
  | exited status => cases hstep
  | raised e => cases hstep
  | killed signal => cases hstep

theorem undisturbed_step {act : Act} (h : Undisturbed host s w) (hstep : (wrapper host).step w act = some w') :
    Undisturbed host s w' := by
  cases act with
  | advance => exact undisturbed_advance h hstep
  | pdeEnds files status => exact undisturbed_pdeEnds h hstep
  | signal signal => exact (undisturbed_signal h hstep).1

theorem undisturbed_exec (hexec : (wrapper host).exec (entered s) acts = some w) : Undisturbed host s w :=
  System.exec_invariant_of_forall undisturbed_step
    (show Undisturbed host s (entered s) from ⟨rfl, rfl, Or.inl rfl⟩) hexec

theorem advance_notes (h : advance host w = some w') :
    w'.cancelled = w.cancelled ∧ w'.ended = w.ended ∧ w'.interrupts = w.interrupts := by
  obtain ⟨phase, store, handled, cancelled, ended, interrupts⟩ := w
  unfold advance at h
  split at h
  · split at h
    · obtain rfl := Option.some.inj h
      exact ⟨rfl, rfl, rfl⟩
    · obtain rfl := Option.some.inj h
      exact ⟨rfl, rfl, rfl⟩
    · split at h <;> obtain rfl := Option.some.inj h <;> exact ⟨rfl, rfl, rfl⟩
  · obtain rfl := Option.some.inj h
    exact ⟨rfl, rfl, rfl⟩
  · obtain rfl := Option.some.inj h
    exact ⟨rfl, rfl, rfl⟩
  · split at h
    · cases h
    · obtain rfl := Option.some.inj h
      exact ⟨rfl, rfl, rfl⟩
  · split at h <;> obtain rfl := Option.some.inj h <;> exact ⟨rfl, rfl, rfl⟩
  · obtain ⟨_, _, rfl⟩ := Option.map_eq_some_iff.mp h
    exact ⟨rfl, rfl, rfl⟩
  all_goals cases h

theorem pdeEnds_notes {files : FileTree} {status : Int} (h : pdeEnds files status w = some w') :
    w'.cancelled = w.cancelled ∧ w.ended = none ∧ w'.ended = some (files, status) ∧
      w'.interrupts = w.interrupts := by
  unfold pdeEnds at h
  split at h
  · next hended =>
    obtain rfl := Option.some.inj h
    exact ⟨rfl, hended, rfl, rfl⟩
  · cases h

theorem onSignal_ended {signal : Signal} (h : onSignal signal w = some w') : w'.ended = w.ended := by
  unfold onSignal at h
  split at h
  · cases h
  · cases h
  · cases h
  · split at h <;> obtain rfl := Option.some.inj h <;> rfl
  · split at h <;> obtain rfl := Option.some.inj h <;> rfl

def isSignal : Act → Bool
  | .signal _ => true
  | _ => false

/-- A wrapper that is not killed has taken a note of every signal. -/
theorem cancelled_exec (hw : Undisturbed host s w) (hexec : (wrapper host).exec w acts = some w')
    (halive : ∀ signal, w'.phase ≠ .killed signal) : w'.cancelled = (w.cancelled || acts.any isSignal) := by
  induction acts generalizing w with
  | nil =>
      obtain rfl := Option.some.inj hexec
      rw [List.any_nil, Bool.or_false]
  | cons act acts ih =>
      obtain ⟨u, hstep, hrest⟩ := (System.exec_cons_eq_some _).mp hexec
      have hu := ih (undisturbed_step hw hstep) hrest
      rw [hu, List.any_cons]
      cases act with
      | advance => rw [(advance_notes hstep).1]; rfl
      | pdeEnds files status => rw [(pdeEnds_notes hstep).1]; rfl
      | signal signal =>
          rcases (undisturbed_signal hw hstep).2 with ⟨last, hkilled⟩ | hcancelled
          · have hgone : acts = [] := by
              cases acts with
              | nil => rfl
              | cons next acts =>
                  obtain ⟨v, hnext, -⟩ := (System.exec_cons_eq_some _).mp hrest
                  obtain ⟨phase, store, handled, cancelled, ended, interrupts⟩ := u
                  obtain rfl : phase = .killed last := hkilled
                  cases next <;> cases hnext
            rw [hgone] at hrest
            obtain rfl := Option.some.inj hrest
            exact absurd hkilled (halive last)
          · rw [hcancelled]
            simp [isSignal]

theorem ended_exec {ended : FileTree × Int} (hexec : (wrapper host).exec w acts = some w')
    (hended : w'.ended = some ended) : w.ended = some ended ∨ .pdeEnds ended.1 ended.2 ∈ acts := by
  induction acts generalizing w with
  | nil =>
      obtain rfl := Option.some.inj hexec
      exact Or.inl hended
  | cons act acts ih =>
      obtain ⟨u, hstep, hrest⟩ := (System.exec_cons_eq_some _).mp hexec
      rcases ih hrest with hu | hmem
      · cases act with
        | advance => exact Or.inl ((advance_notes hstep).2.1 ▸ hu)
        | pdeEnds files status =>
            obtain rfl := Option.some.inj ((pdeEnds_notes hstep).2.2.1.symm.trans hu)
            exact Or.inr List.mem_cons_self
        | signal signal => exact Or.inl (onSignal_ended hstep ▸ hu)
      · exact Or.inr (List.mem_cons_of_mem _ hmem)

/-- How many signals come after the fifth step of the wrapper, which assigns `_child`, and before PDE has
ended. -/
def forwarded : Nat → List Act → Nat
  | _, [] => 0
  | steps, .advance :: acts => forwarded (steps + 1) acts
  | steps, .signal _ :: acts => (if 5 ≤ steps then 1 else 0) + forwarded steps acts
  | _, .pdeEnds _ _ :: _ => 0

/-- The number of steps that the wrapper has made while PDE has not ended. -/
def Made (w : Wrapper) (steps : Nat) : Prop :=
  match w.phase with
  | .starting => steps = w.handled.length
  | .opened => steps = 3
  | .running false => steps = 4
  | .running true => steps = 5
  | .raised _ | .killed _ => True
  | .finishing _ | .exited _ => False

theorem made_advance {steps : Nat} (hw : Undisturbed host s w) (hmade : Made w steps) (hended : w.ended = none)
    (hstep : advance host w = some w') : Made w' (steps + 1) := by
  obtain ⟨phase, store, handled, cancelled, ended, interrupts⟩ := w
  obtain rfl : ended = none := hended
  unfold advance at hstep
  cases phase with
  | starting =>
      obtain ⟨rfl, -, rfl | rfl | rfl⟩ := hw
      · obtain rfl := Option.some.inj hstep
        exact congrArg (· + 1) hmade
      · obtain rfl := Option.some.inj hstep
        exact congrArg (· + 1) hmade
      · dsimp only at hstep
        split at hstep
        · obtain rfl := Option.some.inj hstep
          trivial
        · obtain rfl := Option.some.inj hstep
          exact congrArg (· + 1) hmade
  | opened =>
      obtain rfl := Option.some.inj hstep
      exact congrArg (· + 1) hmade
  | running assigned =>
      cases assigned with
      | false =>
          obtain rfl := Option.some.inj hstep
          exact congrArg (· + 1) hmade
      | true => cases hstep
  | finishing stages => exact hmade.elim
  | exited status => cases hstep
  | raised e => cases hstep
  | killed signal => cases hstep

/-- A signal reaches PDE if `_child` has been assigned. -/
theorem onSignal_interrupts {steps : Nat} {signal : Signal} (hw : Undisturbed host s w) (hmade : Made w steps)
    (hended : w.ended = none) (hstep : onSignal signal w = some w') :
    Made w' steps ∧ w'.interrupts = w.interrupts + if 5 ≤ steps then 1 else 0 := by
  obtain ⟨phase, store, handled, cancelled, ended, interrupts⟩ := w
  obtain rfl : ended = none := hended
  unfold onSignal at hstep
  cases phase with
  | starting =>
      have hfew : ¬5 ≤ steps := by
        obtain rfl : steps = handled.length := hmade
        obtain ⟨-, -, rfl | rfl | rfl⟩ := hw <;> decide
      rw [if_neg hfew]
      dsimp only at hstep
      split at hstep
      · obtain rfl := Option.some.inj hstep
        exact ⟨hmade, rfl⟩
      · obtain rfl := Option.some.inj hstep
        exact ⟨trivial, rfl⟩
  | opened =>
      obtain rfl : steps = 3 := hmade
      dsimp only at hstep
      split at hstep <;> obtain rfl := Option.some.inj hstep
      · exact ⟨rfl, rfl⟩
      · exact ⟨trivial, rfl⟩
  | running assigned =>
      cases assigned with
      | false =>
          obtain rfl : steps = 4 := hmade
          dsimp only at hstep
          split at hstep <;> obtain rfl := Option.some.inj hstep
          · exact ⟨rfl, rfl⟩
          · exact ⟨trivial, rfl⟩
      | true =>
          obtain rfl : steps = 5 := hmade
          obtain rfl := Option.some.inj hstep
          exact ⟨rfl, rfl⟩
  | finishing stages => exact hmade.elim
  | exited status => cases hstep
  | raised e => cases hstep
  | killed signal => cases hstep

/-- PDE that has ended gets no signal. -/
theorem interrupts_of_ended {ended : FileTree × Int} (hended : w.ended = some ended)
    (hexec : (wrapper host).exec w acts = some w') : w'.interrupts = w.interrupts := by
  have hinv := System.exec_invariant_of_forall
    (I := fun u : Wrapper => u.ended = some ended ∧ u.interrupts = w.interrupts)
    (fun {u act u'} hu hstep => by
      cases act with
      | advance =>
          obtain ⟨-, hend, hsame⟩ := advance_notes hstep
          exact ⟨hend.trans hu.1, hsame.trans hu.2⟩
      | pdeEnds files status => exact absurd (hu.1.symm.trans (pdeEnds_notes hstep).2.1) nofun
      | signal signal =>
          refine ⟨(onSignal_ended hstep).trans hu.1, Eq.trans ?_ hu.2⟩
          have hstep : onSignal signal u = some u' := hstep
          unfold onSignal at hstep
          split at hstep
          · cases hstep
          · cases hstep
          · cases hstep
          · rw [hu.1] at hstep
            obtain rfl := Option.some.inj hstep
            rfl
          · split at hstep <;> obtain rfl := Option.some.inj hstep <;> rfl)
    ⟨hended, rfl⟩ hexec
  exact hinv.2

theorem interrupts_exec {steps : Nat} (hw : Undisturbed host s w) (hmade : Made w steps) (hended : w.ended = none)
    (hexec : (wrapper host).exec w acts = some w') :
    w'.interrupts = w.interrupts + forwarded steps acts := by
  induction acts generalizing w steps with
  | nil =>
      obtain rfl := Option.some.inj hexec
      rfl
  | cons act acts ih =>
      obtain ⟨u, hstep, hrest⟩ := (System.exec_cons_eq_some _).mp hexec
      have hu := undisturbed_step hw hstep
      cases act with
      | advance =>
          obtain ⟨-, hend, hsame⟩ := advance_notes hstep
          rw [ih hu (made_advance hw hmade hended hstep) (hend.trans hended) hrest, hsame]
          rfl
      | pdeEnds files status =>
          obtain ⟨-, -, hend, hsame⟩ := pdeEnds_notes hstep
          exact (interrupts_of_ended hend hrest).trans hsame
      | signal signal =>
          obtain ⟨hmade', hgot⟩ := onSignal_interrupts hw hmade hended hstep
          rw [ih hu hmade' ((onSignal_ended hstep).trans hended) hrest, hgot, forwarded, Nat.add_assoc]

/-- What `_run_pde` does when PDE leaves `ended` and signals come or not. -/
def undisturbed (host : Host) (signalled : Bool) (ended : FileTree × Int) : Host :=
  { host with interrupted := signalled, pde := fun _ _ => ended }

theorem runPde_undisturbed (args : List Text) {signalled : Bool} {ended : FileTree × Int}
    (hlog : s.files.isDir consoleLog = false) : runPde (undisturbed host signalled ended) args s =
      (finish host >>= fun _ => pure (if signalled || isInterrupt ended.2 then 143 else ended.2))
        (storeOf s (some ended)) := by
  rw [runPde, Program.read_bind, Program.check_bind, hlog, if_neg Bool.false_ne_true, Program.update_bind]
  rfl

/-- However signals fall between the steps of the wrapper, it ends as it does when nothing but PDE runs in
between: what PDE has left is handed over in full, the exit code is 143 exactly when a signal has come or PDE
says so itself, and PDE gets one `SIGINT` for each signal that comes while `_child` is assigned and PDE runs. A
wrapper that is killed before its handlers are there leaves what it has prepared before. -/
theorem signals_leave_handover {acts : List Act} (args : List Text)
    (hexec : (wrapper host).exec (entered s) acts = some w) :
    w.interrupts = forwarded 0 acts ∧
      (∀ result, w.phase.result = some result → ∃ ended : FileTree × Int,
        (s.files.isDir consoleLog = false → .pdeEnds ended.1 ended.2 ∈ acts) ∧
          runPde (undisturbed host (acts.any isSignal) ended) args s = (result, w.store)) ∧
      ∀ signal, w.phase = .killed signal → w.store = s := by
  have hw := undisturbed_exec hexec
  have hstart : Undisturbed host s (entered s) := ⟨rfl, rfl, Or.inl rfl⟩
  refine ⟨?_, fun result hresult => ?_, fun signal hkilled => ?_⟩
  · have hcount := interrupts_exec hstart (show Made (entered s) 0 from rfl) rfl hexec
    rwa [show (entered s).interrupts = 0 from rfl, Nat.zero_add] at hcount
  · have hcancelled := cancelled_exec hstart hexec (fun signal hkilled => by rw [hkilled] at hresult; cases hresult)
    obtain ⟨phase, store, handled, cancelled, ended, interrupts⟩ := w
    obtain rfl : cancelled = acts.any isSignal := hcancelled
    cases phase with
    | exited status =>
        obtain rfl := Option.some.inj hresult
        obtain ⟨hlog, last, rfl, hfinish, hstatus⟩ := hw
        obtain rfl : status = if acts.any isSignal || isInterrupt last.2 then 143 else last.2 := hstatus
        refine ⟨last, fun _ => (ended_exec hexec rfl).resolve_left nofun, ?_⟩
        rw [runPde_undisturbed args hlog]
        exact Program.bind_ok hfinish
    | raised e =>
        obtain rfl := Option.some.inj hresult
        rcases hw with ⟨hlog, rfl, rfl⟩ | ⟨hlog, last, rfl, hfinish⟩
        · refine ⟨(store.files, 0), fun hfree => absurd (hfree.symm.trans hlog) nofun, ?_⟩
          rw [runPde, Program.read_bind, Program.check_bind, hlog, if_pos rfl]
        · refine ⟨last, fun _ => (ended_exec hexec rfl).resolve_left nofun, ?_⟩
          rw [runPde_undisturbed args hlog]
          exact Program.bind_error hfinish
    | _ => cases hresult
  · obtain ⟨phase, store, handled, cancelled, ended, interrupts⟩ := w
    obtain rfl : phase = .killed signal := hkilled
    exact hw

/-- A host on which nothing can be uploaded. -/
def quietHost : Host where
  executable := "/usr/bin/python".toList
  pde _ files := (files, 0)
  archive files := files
  unarchive files := some files
  makeArchive _ := []
  answer _ _ := .error .urlError
  interrupted := false
  jsonLoads _ := none
  str _ := []
  mounted _ := []
  readText _ := none
  safeDump _ := []
  sops _ _ := none
  boundary := []

/-- A signal while PDE is being started is noted and not passed on: PDE succeeds, and the exit code is 143. -/
theorem signals_leave_handover_early : ∃ w acts, acts.any isSignal = true ∧
    (wrapper quietHost).exec (entered { environ := ∅, files := fun _ => none }) acts = some w ∧
    w.phase.result = some (.ok 143) ∧ w.interrupts = 0 ∧
    ∃ ended, .pdeEnds ended.1 ended.2 ∈ acts ∧
      runPde (undisturbed quietHost true ended) ["run".toList] { environ := ∅, files := fun _ => none } =
        (.ok 143, w.store) := by
  let acts : List Act := [.advance, .advance, .advance, .advance, .signal .term, .advance,
    .pdeEnds (fun _ => none) 0, .advance, .advance, .advance, .advance, .advance, .advance, .advance]
  obtain ⟨w, hexec, hresult⟩ : ∃ w, (wrapper quietHost).exec
      (entered { environ := ∅, files := fun _ => none }) acts = some w ∧ w.phase.result = some (.ok 143) :=
    ⟨_, rfl, rfl⟩
  obtain ⟨hinterrupts, hrun, -⟩ := signals_leave_handover ["run".toList] hexec
  obtain ⟨ended, hended, hsame⟩ := hrun _ hresult
  exact ⟨w, acts, rfl, hexec, hresult, hinterrupts, ended, hended rfl, hsame⟩

end PdeOperator.JobEntrypoint
