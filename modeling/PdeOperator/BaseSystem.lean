import Mathlib.Data.List.Forall2
import Mathlib.Data.Option.Basic

/-! Executable labelled transition systems. A label carries every choice of the environment (the
caller's input, a clock reading, the outcome of a remote call), so one label has at most one
successor and a whole interleaving is a list of labels. -/

namespace PdeOperator.Base

/-- A transition system; `none` means that the label is not enabled in the state. -/
structure System (State Act : Type) where
  step : State → Act → Option State

namespace System

variable {State Act : Type} (S : System State Act)

/-- The state after a list of labels, when each of them is enabled in turn. -/
def exec : State → List Act → Option State
  | s, [] => some s
  | s, a :: acts => (S.step s a).bind fun s' => exec s' acts

@[simp] theorem exec_nil (s : State) : S.exec s [] = some s := rfl

theorem exec_cons (s : State) (a : Act) (acts : List Act) :
    S.exec s (a :: acts) = (S.step s a).bind fun s' => S.exec s' acts := rfl

theorem exec_cons_eq_some {s t : State} {a : Act} {acts : List Act} :
    S.exec s (a :: acts) = some t ↔ ∃ s', S.step s a = some s' ∧ S.exec s' acts = some t := by
  rw [exec_cons, Option.bind_eq_some_iff]

theorem exec_append (s : State) (acts acts' : List Act) :
    S.exec s (acts ++ acts') = (S.exec s acts).bind fun s' => S.exec s' acts' := by
  induction acts generalizing s with
  | nil => rfl
  | cons a acts ih =>
      rw [List.cons_append, exec_cons, exec_cons]
      cases S.step s a with
      | none => rfl
      | some s' => exact ih s'

theorem exec_append_eq_some {s t : State} {acts acts' : List Act} :
    S.exec s (acts ++ acts') = some t ↔
      ∃ s', S.exec s acts = some s' ∧ S.exec s' acts' = some t := by
  rw [exec_append, Option.bind_eq_some_iff]

/-- Every step of the execution meets a condition on the state before it and its label. -/
def Meets (ok : State → Act → Prop) : State → List Act → Prop
  | _, [] => True
  | s, a :: acts => ok s a ∧ ∀ s', S.step s a = some s' → Meets ok s' acts

instance decidableMeets {ok : State → Act → Prop} [∀ s a, Decidable (ok s a)] :
    ∀ (s : State) (acts : List Act), Decidable (S.Meets ok s acts)
  | _, [] => isTrue trivial
  | s, a :: acts =>
      have : Decidable (∀ s', S.step s a = some s' → S.Meets ok s' acts) :=
        match S.step s a with
        | none => isTrue fun _ h => by cases h
        | some s' =>
            have : Decidable (S.Meets ok s' acts) := decidableMeets s' acts
            decidable_of_iff (S.Meets ok s' acts)
              ⟨fun h _ heq => Option.some.inj heq ▸ h, fun h => h s' rfl⟩
      inferInstanceAs (Decidable (_ ∧ _))

variable {S}

theorem Meets.append_right {ok : State → Act → Prop} {s s' : State} {acts acts' : List Act}
    (h : S.Meets ok s (acts ++ acts')) (hexec : S.exec s acts = some s') : S.Meets ok s' acts' := by
  induction acts generalizing s with
  | nil =>
      rw [exec_nil, Option.some.injEq] at hexec
      subst hexec
      exact h
  | cons a acts ih =>
      obtain ⟨next, hstep, hrest⟩ := (S.exec_cons_eq_some).mp hexec
      exact ih (h.2 next hstep) hrest

theorem Meets.append_left {ok : State → Act → Prop} {s : State} {acts acts' : List Act}
    (h : S.Meets ok s (acts ++ acts')) : S.Meets ok s acts := by
  induction acts generalizing s with
  | nil => trivial
  | cons a acts ih => exact ⟨h.1, fun s' hstep => ih (h.2 s' hstep)⟩

theorem not_meets_of_exec {ok : State → Act → Prop} {s u : State} {before after : List Act} {a : Act}
    (hexec : S.exec s before = some u) (hbad : ¬ok u a) : ¬S.Meets ok s (before ++ a :: after) :=
  fun h => hbad (h.append_right hexec).1

/-- An execution that does not meet a condition has a first step that violates it. -/
theorem exists_of_not_meets {ok : State → Act → Prop} {s t : State} {acts : List Act}
    (hexec : S.exec s acts = some t) (h : ¬S.Meets ok s acts) :
    ∃ before a after u v, acts = before ++ a :: after ∧ S.exec s before = some u ∧
      S.step u a = some v ∧ ¬ok u a := by
  induction acts generalizing s with
  | nil => exact absurd trivial h
  | cons a acts ih =>
      obtain ⟨next, hnext, hrest⟩ := (S.exec_cons_eq_some).mp hexec
      by_cases ha : ok s a
      · have hmeets : ¬S.Meets ok next acts := fun hmeets => h ⟨ha, fun s' hs' => by
          rw [hnext, Option.some.injEq] at hs'
          exact hs' ▸ hmeets⟩
        obtain ⟨before, b, after, u, v, rfl, hbefore, hstep, hb⟩ := ih hrest hmeets
        exact ⟨a :: before, b, after, u, v, rfl,
          (S.exec_cons_eq_some).mpr ⟨next, hnext, hbefore⟩, hstep, hb⟩
      · exact ⟨[], a, acts, s, next, rfl, rfl, hnext, ha⟩

theorem Meets.imp {ok ok' : State → Act → Prop} {s : State} {acts : List Act}
    (h : S.Meets ok s acts) (himp : ∀ s a, ok s a → ok' s a) : S.Meets ok' s acts := by
  induction acts generalizing s with
  | nil => trivial
  | cons a acts ih => exact ⟨himp s a h.1, fun s' hstep => ih (h.2 s' hstep)⟩

theorem Meets.and {ok ok' : State → Act → Prop} {s : State} {acts : List Act}
    (h : S.Meets ok s acts) (h' : S.Meets ok' s acts) :
    S.Meets (fun s a => ok s a ∧ ok' s a) s acts := by
  induction acts generalizing s with
  | nil => trivial
  | cons a acts ih =>
      exact ⟨⟨h.1, h'.1⟩, fun s' hstep => ih (h.2 s' hstep) (h'.2 s' hstep)⟩

/-- A condition on the labels alone. -/
theorem meets_of_forall {p : Act → Prop} (s : State) {acts : List Act} (h : ∀ a ∈ acts, p a) :
    S.Meets (fun _ a => p a) s acts := by
  induction acts generalizing s with
  | nil => trivial
  | cons a acts ih =>
      exact ⟨h a List.mem_cons_self, fun s' _ => ih s' fun b hb => h b (List.mem_cons_of_mem _ hb)⟩

/-- The invariant rule: what every step that meets the condition preserves holds after every
execution whose steps all meet it. -/
theorem exec_invariant {I : State → Prop} {ok : State → Act → Prop}
    (hstep : ∀ {s a s'}, I s → ok s a → S.step s a = some s' → I s')
    {s t : State} {acts : List Act} (hinv : I s) (hok : S.Meets ok s acts)
    (hexec : S.exec s acts = some t) : I t := by
  induction acts generalizing s with
  | nil =>
      rw [exec_nil, Option.some.injEq] at hexec
      exact hexec ▸ hinv
  | cons a acts ih =>
      obtain ⟨next, hnext, hrest⟩ := (S.exec_cons_eq_some).mp hexec
      exact ih (hstep hinv hok.1 hnext) (hok.2 next hnext) hrest

/-- The rule for a property of every step: it holds in every state that satisfies an invariant, and
the steps that meet the condition preserve the invariant. -/
theorem Meets.of_invariant {I : State → Prop} {ok goal : State → Act → Prop}
    (hstep : ∀ {s a s'}, I s → ok s a → S.step s a = some s' → I s')
    (hgoal : ∀ {s a}, I s → ok s a → goal s a) {s : State} {acts : List Act} (hinv : I s)
    (hok : S.Meets ok s acts) : S.Meets goal s acts := by
  induction acts generalizing s with
  | nil => trivial
  | cons a acts ih =>
      refine ⟨hgoal hinv hok.1, fun s' hs' => ?_⟩
      exact ih (hstep hinv hok.1 hs') (hok.2 s' hs')

/-- The invariant rule for steps without a condition. -/
theorem exec_invariant_of_forall {I : State → Prop}
    (hstep : ∀ {s a s'}, I s → S.step s a = some s' → I s')
    {s t : State} {acts : List Act} (hinv : I s) (hexec : S.exec s acts = some t) : I t :=
  exec_invariant (fun hi _ hs => hstep hi hs) hinv (meets_of_forall s fun _ _ => trivial) hexec

/-- Something that holds at the start holds all along an execution exactly if every step meets the
condition, when the condition tells which steps keep it. -/
theorem always_iff_meets {I good : State → Prop} {ok : State → Act → Prop}
    (hstep : ∀ {s a s'}, I s → S.step s a = some s' → I s')
    (hok : ∀ {s a s'}, I s → good s → S.step s a = some s' → (ok s a ↔ good s'))
    {s t : State} {acts : List Act} (hinv : I s) (hgood : good s)
    (hexec : S.exec s acts = some t) :
    (∀ before after u, acts = before ++ after → S.exec s before = some u → good u) ↔
      S.Meets ok s acts := by
  constructor
  · intro hall
    by_contra hmeets
    obtain ⟨before, a, after, u, v, rfl, hbefore, hnext, hbad⟩ := exists_of_not_meets hexec hmeets
    have hthen : S.exec s (before ++ [a]) = some v :=
      (S.exec_append_eq_some).mpr ⟨u, hbefore, (S.exec_cons_eq_some).mpr ⟨v, hnext, rfl⟩⟩
    have hu : good u := hall before (a :: after) u rfl hbefore
    have hv : good v := hall (before ++ [a]) after v (by simp) hthen
    exact hbad ((hok (exec_invariant_of_forall hstep hinv hbefore) hu hnext).mpr hv)
  · rintro hmeets before after u rfl hbefore
    exact (exec_invariant (I := fun s => I s ∧ good s)
      (fun hi hk hs => ⟨hstep hi.1 hs, (hok hi.1 hi.2 hs).mp hk⟩) ⟨hinv, hgood⟩ hmeets.append_left
      hbefore).2

/-- What is once `seen` of a key `stays` true along an execution exactly if every step meets the
condition: the steps that meet it keep an invariant that begins with the sight, every other step loses
something that is seen. -/
theorem sticks_iff_meets {κ : Type} {I : State → Prop} (seen held stays : κ → State → Prop)
    {ok : State → Act → Prop} (hstep : ∀ {s a s'}, I s → S.step s a = some s' → I s')
    (hseen : ∀ {k s}, I s → seen k s → held k s) (hstays : ∀ {k s}, held k s → stays k s)
    (hheld : ∀ {k s a s'}, I s → held k s → ok s a → S.step s a = some s' → held k s')
    (hlost : ∀ {s a s'}, I s → ¬ok s a → S.step s a = some s' → ∃ k, seen k s ∧ ¬stays k s')
    {s t : State} {acts : List Act} (hinv : I s) (hexec : S.exec s acts = some t) :
    (∀ k before between after u v, acts = before ++ between ++ after → S.exec s before = some u →
      seen k u → S.exec u between = some v → stays k v) ↔ S.Meets ok s acts := by
  constructor
  · intro hall
    by_contra hmeets
    obtain ⟨before, a, after, u, v, rfl, hbefore, hnext, hbad⟩ := exists_of_not_meets hexec hmeets
    obtain ⟨k, hk, hnot⟩ := hlost (exec_invariant_of_forall hstep hinv hbefore) hbad hnext
    have hone : S.exec u [a] = some v := (S.exec_cons_eq_some).mpr ⟨v, hnext, rfl⟩
    exact hnot (hall k before [a] after u v (by simp) hbefore hk hone)
  · rintro hmeets k before between after u v rfl hbefore hk hbetween
    have hu : I u := exec_invariant_of_forall hstep hinv hbefore
    exact hstays (exec_invariant (I := fun s => I s ∧ held k s)
      (fun hi hk hs => ⟨hstep hi.1 hs, hheld hi.1 hi.2 hk hs⟩) ⟨hu, hseen hu hk⟩
      (hmeets.append_left.append_right hbefore) hbetween).2

/-- What two executions, of which one goes on with the other, show at their ends. -/
theorem exists_between {β : Type} {see : State → Option β} {s : State} {before between : List Act}
    {x y : β} (hx : (S.exec s before).bind see = some x)
    (hy : (S.exec s (before ++ between)).bind see = some y) :
    ∃ u v, S.exec s before = some u ∧ see u = some x ∧ S.exec u between = some v ∧
      see v = some y := by
  obtain ⟨u, hu, hseen⟩ := Option.bind_eq_some_iff.mp hx
  obtain ⟨v, hv, hseen'⟩ := Option.bind_eq_some_iff.mp hy
  obtain ⟨u', hu', hbetween⟩ := (S.exec_append_eq_some).mp hv
  obtain rfl := Option.some.inj (hu.symm.trans hu')
  exact ⟨u, v, hu, hseen, hbetween, hseen'⟩

variable {ο : Type}

variable (S) in
/-- What an observer sees of an execution, step by step. -/
def observed (see : State → Act → Option ο) : State → List Act → List ο
  | _, [] => []
  | s, a :: acts => (see s a).toList ++ (S.step s a).elim [] fun s' => observed see s' acts

/-- No observation is made twice when every step keeps an invariant on the state and the observations
so far that rules out the next one. -/
theorem nodup_observed {see : State → Act → Option ο} {ok : State → Act → Prop}
    {I : State → List ο → Prop}
    (hnew : ∀ {s a s' seen o}, I s seen → ok s a → S.step s a = some s' → see s a = some o → o ∉ seen)
    (hstep : ∀ {s a s' seen}, I s seen → ok s a → S.step s a = some s' →
      I s' (seen ++ (see s a).toList))
    {s t : State} {acts : List Act} {seen : List ο} (hinv : I s seen) (hseen : seen.Nodup)
    (hok : S.Meets ok s acts) (hexec : S.exec s acts = some t) :
    (seen ++ S.observed see s acts).Nodup := by
  induction acts generalizing s seen with
  | nil => simpa [observed] using hseen
  | cons a acts ih =>
      obtain ⟨next, hnext, hrest⟩ := (S.exec_cons_eq_some).mp hexec
      have hgrown : (seen ++ (see s a).toList).Nodup := by
        cases hsee : see s a with
        | none => simpa using hseen
        | some o =>
            have hfresh : o ∉ seen := hnew hinv hok.1 hnext hsee
            rw [Option.toList_some, List.nodup_append]
            refine ⟨hseen, List.pairwise_singleton _ o, ?_⟩
            rintro x hx y hy rfl
            exact hfresh (List.mem_singleton.mp hy ▸ hx)
      have hall := ih (hstep hinv hok.1 hnext) hgrown (hok.2 next hnext) hrest
      rw [observed, hnext, Option.elim_some, ← List.append_assoc]
      exact hall

end System

/-- A step that goes on only when a fallible computation has succeeded. -/
theorem toOption_eq_some {ε α : Type} {e : Except ε α} {a : α} :
    e.toOption = some a ↔ e = .ok a := by
  cases e with
  | error e => simp [Except.toOption]
  | ok b => simp [Except.toOption]

theorem bind_eq_ok {ε α β : Type} {x : Except ε α} {f : α → Except ε β} {b : β} :
    x >>= f = .ok b ↔ ∃ a, x = .ok a ∧ f a = .ok b := by
  cases x with
  | error e => simp [bind, Except.bind]
  | ok a => simp [bind, Except.bind]

theorem bind_eq_error {ε α β : Type} {x : Except ε α} {f : α → Except ε β} {e : ε} :
    x >>= f = .error e ↔ x = .error e ∨ ∃ a, x = .ok a ∧ f a = .error e := by
  cases x with
  | error e' => simp [bind, Except.bind]
  | ok a => simp [bind, Except.bind]

theorem map_eq_ok {ε α β : Type} {x : Except ε α} {f : α → β} {b : β} :
    x.map f = .ok b ↔ ∃ a, x = .ok a ∧ f a = b := by
  cases x with
  | error e => simp [Except.map]
  | ok a => simp [Except.map]

theorem map_eq_error {ε α β : Type} {x : Except ε α} {f : α → β} {e : ε} :
    x.map f = .error e ↔ x = .error e := by
  cases x with
  | error e' => simp [Except.map]
  | ok a => simp [Except.map]

theorem mapError_eq_ok {ε ε' α : Type} {x : Except ε α} {g : ε → ε'} {a : α} :
    x.mapError g = .ok a ↔ x = .ok a := by
  cases x with
  | error e => simp [Except.mapError]
  | ok b => simp [Except.mapError]

/-- A loop that may raise has run to its end when every turn has succeeded. -/
theorem mapM_eq_ok_iff {α β ε : Type} {f : α → Except ε β} {xs : List α} {ys : List β} :
    xs.mapM f = .ok ys ↔ List.Forall₂ (fun x y => f x = .ok y) xs ys := by
  induction xs generalizing ys with
  | nil =>
      rw [List.mapM_nil, List.forall₂_nil_left_iff]
      exact ⟨fun h => (Except.ok.inj h).symm, fun h => congrArg Except.ok h.symm⟩
  | cons x xs ih =>
      rw [List.mapM_cons, bind_eq_ok, List.forall₂_cons_left_iff]
      constructor
      · rintro ⟨y, hy, hrest⟩
        obtain ⟨rest, hrest, heq⟩ := bind_eq_ok.mp hrest
        exact ⟨y, rest, hy, ih.mp hrest, (Except.ok.inj heq).symm⟩
      · rintro ⟨y, rest, hy, hrest, rfl⟩
        exact ⟨y, hy, bind_eq_ok.mpr ⟨rest, ih.mpr hrest, rfl⟩⟩

theorem mapM_congr {α β ε : Type} {f g : α → Except ε β} {xs : List α} (h : ∀ x ∈ xs, f x = g x) :
    xs.mapM f = xs.mapM g := by
  induction xs with
  | nil => rfl
  | cons x xs ih =>
      obtain ⟨hx, hxs⟩ := List.forall_mem_cons.mp h
      rw [List.mapM_cons, List.mapM_cons, hx, ih hxs]

theorem mapM_ok_of_forall {α β ε : Type} {f : α → Except ε β} {g : α → β} {xs : List α}
    (h : ∀ x ∈ xs, f x = .ok (g x)) : xs.mapM f = .ok (xs.map g) := by
  rw [mapM_eq_ok_iff, List.forall₂_map_right_iff, List.forall₂_same]
  exact h

theorem exists_mapM_ok_iff {α β ε : Type} {f : α → Except ε β} {xs : List α} :
    (∃ ys, xs.mapM f = .ok ys) ↔ ∀ x ∈ xs, ∃ y, f x = .ok y := by
  simp only [mapM_eq_ok_iff]
  induction xs with
  | nil => simp
  | cons x xs ih =>
      rw [List.forall_mem_cons, ← ih]
      constructor
      · rintro ⟨ys, hys⟩
        obtain ⟨y, rest, hy, hrest, rfl⟩ := List.forall₂_cons_left_iff.mp hys
        exact ⟨⟨y, hy⟩, rest, hrest⟩
      · rintro ⟨⟨y, hy⟩, rest, hrest⟩
        exact ⟨y :: rest, List.Forall₂.cons hy hrest⟩

/-- A loop raises in its first turn that does not succeed. -/
theorem mapM_eq_error_iff {α β ε : Type} {f : α → Except ε β} {xs : List α} {e : ε} :
    xs.mapM f = .error e ↔ ∃ before x after, xs = before ++ x :: after ∧
      (∀ y ∈ before, ∃ b, f y = .ok b) ∧ f x = .error e := by
  induction xs with
  | nil =>
      rw [List.mapM_nil]
      refine iff_of_false nofun ?_
      rintro ⟨before, x, after, hxs, -⟩
      exact absurd hxs.symm (List.append_ne_nil_of_right_ne_nil _ (List.cons_ne_nil _ _))
  | cons x xs ih =>
      rw [List.mapM_cons, bind_eq_error]
      constructor
      · rintro (hx | ⟨b, hx, hrest⟩)
        · exact ⟨[], x, xs, rfl, nofun, hx⟩
        · rcases bind_eq_error.mp hrest with hrest | ⟨_, -, hend⟩
          · obtain ⟨before, y, after, rfl, hbefore, hy⟩ := ih.mp hrest
            exact ⟨x :: before, y, after, rfl, List.forall_mem_cons.mpr ⟨⟨b, hx⟩, hbefore⟩, hy⟩
          · cases hend
      · rintro ⟨before, y, after, hxs, hbefore, hy⟩
        cases before with
        | nil =>
            obtain ⟨rfl, rfl⟩ := List.cons.inj hxs
            exact Or.inl hy
        | cons first before =>
            obtain ⟨rfl, rfl⟩ := List.cons.inj hxs
            obtain ⟨⟨b, hx⟩, hbefore⟩ := List.forall_mem_cons.mp hbefore
            exact Or.inr ⟨b, hx, bind_eq_error.mpr
              (Or.inl (ih.mpr ⟨before, y, after, rfl, hbefore, hy⟩))⟩

theorem exists_of_mapM_ok {α β ε : Type} {f : α → Except ε β} {xs : List α} {ys : List β}
    (h : xs.mapM f = .ok ys) {x : α} (hx : x ∈ xs) : ∃ y ∈ ys, f x = .ok y := by
  have hturns := mapM_eq_ok_iff.mp h
  clear h
  induction hturns with
  | nil => exact absurd hx List.not_mem_nil
  | cons hturn _ ih =>
      rcases List.mem_cons.mp hx with rfl | hx
      · exact ⟨_, List.mem_cons_self, hturn⟩
      · obtain ⟨y, hy, hturn⟩ := ih hx
        exact ⟨y, List.mem_cons_of_mem _ hy, hturn⟩

theorem mem_of_mapM_ok {α β ε : Type} {f : α → Except ε β} {xs : List α} {ys : List β}
    (h : xs.mapM f = .ok ys) {y : β} (hy : y ∈ ys) : ∃ x ∈ xs, f x = .ok y := by
  have hturns := mapM_eq_ok_iff.mp h
  clear h
  induction hturns with
  | nil => exact absurd hy List.not_mem_nil
  | cons hturn _ ih =>
      rcases List.mem_cons.mp hy with rfl | hy
      · exact ⟨_, List.mem_cons_self, hturn⟩
      · obtain ⟨x, hx, hturn⟩ := ih hy
        exact ⟨x, List.mem_cons_of_mem _ hx, hturn⟩

/-! ### Two runs of a server -/

section Server

variable {ι ο σ : Type} (serve : ι → σ → ο × σ)

/-- What a server answers to a sequence of inputs. -/
def outputs : List ι → σ → List ο
  | [], _ => []
  | i :: inputs, s => (serve i s).1 :: outputs inputs (serve i s).2

variable {serve}

/-- The unwinding rule: when every allowed input keeps two states related, and answers the same from
both exactly if it is silent, two runs answer the same exactly if all inputs are silent. -/
theorem outputs_eq_iff {R : σ → σ → Prop} {allowed silent : ι → Prop}
    (hkeep : ∀ {i s t}, allowed i → R s t → R (serve i s).2 (serve i t).2)
    (hout : ∀ {i s t}, allowed i → R s t → ((serve i s).1 = (serve i t).1 ↔ silent i))
    {inputs : List ι} (hallowed : ∀ i ∈ inputs, allowed i) {s t : σ} (h : R s t) :
    outputs serve inputs s = outputs serve inputs t ↔ ∀ i ∈ inputs, silent i := by
  induction inputs generalizing s t with
  | nil => simp [outputs]
  | cons i inputs ih =>
      have hi : allowed i := hallowed i List.mem_cons_self
      have hrest : ∀ j ∈ inputs, allowed j := fun j hj => hallowed j (List.mem_cons_of_mem _ hj)
      rw [outputs, outputs, List.cons.injEq, hout hi h, ih hrest (hkeep hi h), List.forall_mem_cons]

end Server

end PdeOperator.Base
