import Mathlib.Data.Option.Basic

/-! Programs over a state that may raise. An exception ends the program and keeps the state that it
has reached: what has been written before it stays written. -/

namespace PdeOperator.Base

/-- A program; its result is the value or the exception, together with the state at that point. -/
def Program (ε σ α : Type) := σ → Except ε α × σ

namespace Program

variable {ε ε' σ α β : Type}

def pure (a : α) : Program ε σ α := fun s => (.ok a, s)

def bind (p : Program ε σ α) (f : α → Program ε σ β) : Program ε σ β := fun s =>
  match p s with
  | (.error e, s') => (.error e, s')
  | (.ok a, s') => f a s'

instance : Monad (Program ε σ) where
  pure := pure
  bind := bind

def raise (e : ε) : Program ε σ α := fun s => (.error e, s)

def read : Program ε σ σ := fun s => (.ok s, s)

def update (f : σ → σ) : Program ε σ Unit := fun s => (.ok (), f s)

/-- Raise when a call of the environment fails. -/
def check (fails : Bool) (e : ε) : Program ε σ Unit := if fails then raise e else pure ()

/-- A pure computation that may raise. -/
def ofExcept : Except ε α → Program ε σ α
  | .error e => raise e
  | .ok a => pure a

/-- A program whose exceptions are wrapped. -/
def mapError (g : ε → ε') (p : Program ε σ α) : Program ε' σ α := fun s =>
  ((p s).1.mapError g, (p s).2)

/-- The loop over a list, with the position of each element. -/
def forEach (body : Nat → α → Program ε σ Unit) : Nat → List α → Program ε σ Unit
  | _, [] => pure ()
  | i, x :: xs => bind (body i x) fun _ => forEach body (i + 1) xs

theorem bind_error {p : Program ε σ α} {f : α → Program ε σ β} {s s' : σ} {e : ε}
    (h : p s = (.error e, s')) : (p >>= f) s = (.error e, s') := by
  show bind p f s = _
  rw [bind, h]

theorem bind_ok {p : Program ε σ α} {f : α → Program ε σ β} {s s' : σ} {a : α}
    (h : p s = (.ok a, s')) : (p >>= f) s = f a s' := by
  show bind p f s = _
  rw [bind, h]

/-- A sequence ends in its first part or goes on with the second. -/
theorem bind_cases (p : Program ε σ α) (f : α → Program ε σ β) (s : σ) :
    (∃ e s', p s = (.error e, s') ∧ (p >>= f) s = (.error e, s')) ∨
      ∃ a s', p s = (.ok a, s') ∧ (p >>= f) s = f a s' := by
  cases hp : p s with
  | mk result s' =>
      cases result with
      | error e => exact Or.inl ⟨e, s', rfl, bind_error hp⟩
      | ok a => exact Or.inr ⟨a, s', rfl, bind_ok hp⟩

theorem bind_eq_ok {p : Program ε σ α} {f : α → Program ε σ β} {s s' : σ} {b : β} :
    (p >>= f) s = (.ok b, s') ↔ ∃ a mid, p s = (.ok a, mid) ∧ f a mid = (.ok b, s') := by
  constructor
  · intro h
    rcases bind_cases p f s with ⟨e, mid, -, hs⟩ | ⟨a, mid, hp, hs⟩
    · cases hs.symm.trans h
    · exact ⟨a, mid, hp, hs.symm.trans h⟩
  · rintro ⟨a, mid, hp, hf⟩
    exact (bind_ok hp).trans hf

theorem check_cases (fails : Bool) (e : ε) (s : σ) :
    (fails = true ∧ check fails e s = (.error e, s)) ∨
      (fails = false ∧ check fails e s = (.ok (), s)) := by
  cases fails with
  | true => exact Or.inl ⟨rfl, rfl⟩
  | false => exact Or.inr ⟨rfl, rfl⟩

@[simp] theorem check_bind (fails : Bool) (e : ε) (f : Unit → Program ε σ β) (s : σ) :
    (check fails e >>= f) s = if fails then (.error e, s) else f () s := by
  cases fails with
  | true => rfl
  | false => rfl

@[simp] theorem update_bind (g : σ → σ) (f : Unit → Program ε σ β) (s : σ) :
    (update g >>= f) s = f () (g s) := rfl

@[simp] theorem read_bind (f : σ → Program ε σ β) (s : σ) : (read >>= f) s = f s s := rfl

@[simp] theorem ofExcept_bind (x : Except ε α) (f : α → Program ε σ β) (s : σ) :
    (ofExcept x >>= f) s =
      match x with
      | .error e => (.error e, s)
      | .ok a => f a s := by
  cases x with
  | error e => rfl
  | ok a => rfl

/-- A property of the state that the program keeps, also when it raises. -/
def Keeps (p : Program ε σ α) (I : σ → Prop) : Prop := ∀ s, I s → I (p s).2

variable {I : σ → Prop}

theorem keeps_pure (a : α) : Keeps (pure a : Program ε σ α) I := fun _ h => h

theorem keeps_check (fails : Bool) (e : ε) : Keeps (check fails e : Program ε σ Unit) I := by
  intro s h
  rcases check_cases fails e s with ⟨-, hs⟩ | ⟨-, hs⟩ <;> rw [hs] <;> exact h

theorem keeps_update {f : σ → σ} (hf : ∀ s, I s → I (f s)) :
    Keeps (update f : Program ε σ Unit) I := fun s h => hf s h

theorem Keeps.bind {p : Program ε σ α} {f : α → Program ε σ β} (hp : Keeps p I)
    (hf : ∀ a, Keeps (f a) I) : Keeps (p >>= f) I := by
  intro s h
  rcases bind_cases p f s with ⟨e, s', hps, hs⟩ | ⟨a, s', hps, hs⟩
  · rw [hs]
    have hkept := hp s h
    rw [hps] at hkept
    exact hkept
  · rw [hs]
    have hkept := hp s h
    rw [hps] at hkept
    exact hf a s' hkept

theorem keeps_forEach {body : Nat → α → Program ε σ Unit} (hbody : ∀ i x, Keeps (body i x) I)
    (i : Nat) (xs : List α) : Keeps (forEach body i xs) I := by
  induction xs generalizing i with
  | nil => exact keeps_pure ()
  | cons x xs ih => exact Keeps.bind (hbody i x) fun _ => ih (i + 1)

/-- What a loop that never raises makes of the state. -/
def sweep (f : Nat → α → σ → σ) : Nat → List α → σ → σ
  | _, [], s => s
  | i, x :: xs, s => sweep f (i + 1) xs (f i x s)

theorem forEach_cons_error {body : Nat → α → Program ε σ Unit} {i : Nat} {x : α} {xs : List α}
    {s s' : σ} {e : ε} (h : body i x s = (.error e, s')) (f : Unit → Program ε σ β) :
    (forEach body i (x :: xs) >>= f) s = (.error e, s') :=
  bind_error (bind_error h)

theorem forEach_cons_ok {body : Nat → α → Program ε σ Unit} {i : Nat} {x : α} {xs : List α}
    {s s' : σ} (h : body i x s = (.ok (), s')) (f : Unit → Program ε σ β) :
    (forEach body i (x :: xs) >>= f) s = (forEach body (i + 1) xs >>= f) s' := by
  have hloop : forEach body i (x :: xs) s = forEach body (i + 1) xs s' := bind_ok h
  show bind (forEach body i (x :: xs)) f s = bind (forEach body (i + 1) xs) f s'
  rw [bind, bind, hloop]

/-- A loop that has not raised has applied all its turns. -/
theorem forEach_ok {body : Nat → α → Program ε σ Unit} {f : Nat → α → σ → σ}
    (hbody : ∀ i x s s', body i x s = (.ok (), s') → s' = f i x s) {i : Nat} {xs : List α}
    {s s' : σ} (h : forEach body i xs s = (.ok (), s')) : s' = sweep f i xs s := by
  induction xs generalizing i s with
  | nil =>
      cases h
      rfl
  | cons x xs ih =>
      rcases bind_cases (body i x) (fun _ => forEach body (i + 1) xs) s with
        ⟨e, mid, -, hs⟩ | ⟨_, mid, hmid, hs⟩
      · rw [forEach] at h
        cases hs.symm.trans h
      · rw [sweep, ← hbody i x s mid hmid]
        exact ih (hs.symm.trans h)

/-- A loop raises in one of its turns. -/
theorem forEach_error {body : Nat → α → Program ε σ Unit} {i : Nat} {xs : List α} {s s' : σ} {e : ε}
    (h : forEach body i xs s = (.error e, s')) :
    ∃ k x mid, xs[k]? = some x ∧ body (i + k) x mid = (.error e, s') := by
  induction xs generalizing i s with
  | nil => cases h
  | cons x xs ih =>
      rcases bind_cases (body i x) (fun _ => forEach body (i + 1) xs) s with
        ⟨e', mid, hmid, hs⟩ | ⟨_, mid, hmid, hs⟩
      · have heq := hs.symm.trans h
        rw [heq] at hs
        cases heq
        exact ⟨0, x, s, rfl, hmid⟩
      · obtain ⟨k, y, last, hy, hlast⟩ := ih (hs.symm.trans h)
        refine ⟨k + 1, y, last, hy, ?_⟩
        rw [show i + (k + 1) = i + 1 + k by omega]
        exact hlast

/-- A loop with a turn that always raises does not end without an exception. -/
theorem forEach_raises {body : Nat → α → Program ε σ Unit} {i k : Nat} {xs : List α} {x : α}
    (hx : xs[k]? = some x) (hbody : ∀ s s', body (i + k) x s ≠ (.ok (), s')) (s s' : σ) :
    forEach body i xs s ≠ (.ok (), s') := by
  induction xs generalizing i k s with
  | nil => simp at hx
  | cons y xs ih =>
      intro h
      rcases bind_cases (body i y) (fun _ => forEach body (i + 1) xs) s with
        ⟨e, mid, -, hs⟩ | ⟨_, mid, hmid, hs⟩
      · cases hs.symm.trans h
      · cases k with
        | zero =>
            cases hx
            exact hbody s mid hmid
        | succ k =>
            refine ih hx (fun t t' ht => hbody t t' ?_) mid (hs.symm.trans h)
            rw [show i + (k + 1) = i + 1 + k by omega]
            exact ht

/-- A loop of which no turn raises under an invariant does not raise and keeps it. -/
theorem forEach_of_invariant {body : Nat → α → Program ε σ Unit} {I : σ → Prop} {i : Nat} {xs : List α}
    {s : σ} (hbody : ∀ k x u, xs[k]? = some x → I u → ∃ u', body (i + k) x u = (.ok (), u') ∧ I u')
    (h : I s) : ∃ s', forEach body i xs s = (.ok (), s') ∧ I s' := by
  induction xs generalizing i s with
  | nil => exact ⟨s, rfl, h⟩
  | cons x xs ih =>
      obtain ⟨mid, hmid, hinv⟩ := hbody 0 x s rfl h
      have hrest : ∀ k y u, xs[k]? = some y → I u → ∃ u', body (i + 1 + k) y u = (.ok (), u') ∧ I u' := by
        intro k y u hy hu
        rw [show i + 1 + k = i + (k + 1) by omega]
        exact hbody (k + 1) y u hy hu
      obtain ⟨s', hloop, hs'⟩ := ih hrest hinv
      exact ⟨s', (bind_ok hmid).trans hloop, hs'⟩

/-- What all turns keep holds after a loop that has not raised. -/
theorem forEach_keeps {body : Nat → α → Program ε σ Unit} {I : σ → Prop} {i : Nat} {xs : List α} {s s' : σ}
    (hbody : ∀ k x u u', xs[k]? = some x → body (i + k) x u = (.ok (), u') → I u → I u')
    (h : forEach body i xs s = (.ok (), s')) (hs : I s) : I s' := by
  induction xs generalizing i s with
  | nil =>
      cases h
      exact hs
  | cons x xs ih =>
      rcases bind_cases (body i x) (fun _ => forEach body (i + 1) xs) s with
        ⟨e, mid, -, hloop⟩ | ⟨_, mid, hmid, hloop⟩
      · cases hloop.symm.trans h
      · refine ih (fun k y u u' hy => ?_) (hloop.symm.trans h) (hbody 0 x s mid rfl hmid hs)
        rw [show i + 1 + k = i + (k + 1) by omega]
        exact hbody (k + 1) y u u' hy

/-- What each turn establishes and the later turns keep holds after a loop that has not raised. -/
theorem forEach_establishes {body : Nat → α → Program ε σ Unit} {Q : Nat → α → σ → Prop} {i : Nat}
    {xs : List α} {s s' : σ}
    (hbody : ∀ k x u u', xs[k]? = some x → body (i + k) x u = (.ok (), u') → Q k x u')
    (hkept : ∀ j k x y u u', j < k → xs[j]? = some x → xs[k]? = some y →
      body (i + k) y u = (.ok (), u') → Q j x u → Q j x u')
    (h : forEach body i xs s = (.ok (), s')) : ∀ k x, xs[k]? = some x → Q k x s' := by
  induction xs generalizing i s Q with
  | nil => exact fun k x hx => by simp at hx
  | cons first xs ih =>
      rcases bind_cases (body i first) (fun _ => forEach body (i + 1) xs) s with
        ⟨e, mid, -, hloop⟩ | ⟨_, mid, hmid, hloop⟩
      · cases hloop.symm.trans h
      · have hrest := hloop.symm.trans h
        have hindex : ∀ k, i + 1 + k = i + (k + 1) := fun k => by omega
        intro k x hx
        cases k with
        | zero =>
            refine forEach_keeps (I := Q 0 x) (fun k y u u' hy hturn => ?_) hrest ?_
            · rw [hindex] at hturn
              exact hkept 0 (k + 1) x y u u' (Nat.succ_pos k) hx hy hturn
            · exact hbody 0 x s mid hx (Option.some.inj hx ▸ hmid)
        | succ k =>
            refine ih (Q := fun k => Q (k + 1)) (fun k y u u' hy hturn => ?_) ?_ hrest k x hx
            · rw [hindex] at hturn
              exact hbody (k + 1) y u u' hy hturn
            · intro j k y z u u' hjk hy hz hturn
              rw [hindex] at hturn
              exact hkept (j + 1) (k + 1) y z u u' (by omega) hy hz hturn

end Program
end PdeOperator.Base
