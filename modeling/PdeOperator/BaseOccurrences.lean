import Mathlib.Data.Int.LeastGreatest
import Mathlib.Data.List.Chain
import Mathlib.Tactic.Ring

/-! Occurrences: integers that are read one after the other from a base on, and the gaps between
neighbours. A gap that is too short is found by reading a bounded number of them only if it comes back
often enough. -/

namespace PdeOperator.Base

section Occurrences

variable (occurs : ℤ → Prop)

/-- The first occurrence after a base. -/
structure IsNext (base next : ℤ) : Prop where
  lt : base < next
  mem : occurs next
  least : ∀ t, base < t → occurs t → next ≤ t

def Unending : Prop := ∀ base, ∃ t, base < t ∧ occurs t

/-- The n-th occurrence after a base. -/
def Ahead : ℕ → ℤ → ℤ → Prop
  | 0, base, t => t = base
  | n + 1, base, t => ∃ next, IsNext occurs base next ∧ Ahead n next t

/-- Two neighbours are at least `gap` apart. -/
def GapsAtLeast (gap : ℤ) : Prop := ∀ a b, occurs a → IsNext occurs a b → gap ≤ b - a

/-- A shorter gap begins at one of the first `n` occurrences after the base. -/
def ShortAhead (gap : ℤ) (n : ℕ) (base : ℤ) : Prop :=
  ∃ k a b, k < n ∧ Ahead occurs (k + 1) base a ∧ IsNext occurs a b ∧ b - a < gap

/-- Occurrences after a base, each of them the first one after the one before it. -/
def Reads (base : ℤ) (times : List ℤ) : Prop := (base :: times).IsChain (IsNext occurs)

/-- Occurrences after a base in increasing order. -/
def Picks (base : ℤ) (times : List ℤ) : Prop := (base :: times).IsChain fun s t => s < t ∧ occurs t

variable {occurs} {base next s t gap period : ℤ} {m n : ℕ} {times picked : List ℤ}

theorem exists_isNext_of_mem (hlt : base < t) (ht : occurs t) : ∃ next, IsNext occurs base next := by
  obtain ⟨next, ⟨hnext, hmem⟩, hleast⟩ := Int.exists_least_of_bdd
    (P := fun t => base < t ∧ occurs t) ⟨base, fun _ h => h.1.le⟩ ⟨t, hlt, ht⟩
  exact ⟨next, hnext, hmem, fun t hlt ht => hleast t ⟨hlt, ht⟩⟩

theorem Unending.exists_isNext (h : Unending occurs) (base : ℤ) : ∃ next, IsNext occurs base next := by
  obtain ⟨t, hlt, ht⟩ := h base
  exact exists_isNext_of_mem hlt ht

theorem IsNext.unique {next' : ℤ} (h : IsNext occurs base next) (h' : IsNext occurs base next') :
    next = next' :=
  le_antisymm (h.least next' h'.lt h'.mem) (h'.least next h.lt h.mem)

theorem Ahead.le (h : Ahead occurs n base t) : base ≤ t := by
  induction n generalizing base with
  | zero => exact (Eq.symm h).le
  | succ n ih =>
      obtain ⟨next, hnext, hrest⟩ := h
      exact hnext.lt.le.trans (ih hrest)

theorem Ahead.mem (h : Ahead occurs n base t) (hbase : occurs base) : occurs t := by
  induction n generalizing base with
  | zero => exact Eq.symm h ▸ hbase
  | succ n ih =>
      obtain ⟨next, hnext, hrest⟩ := h
      exact ih hrest hnext.mem

theorem Ahead.mem_succ (h : Ahead occurs (n + 1) base t) : occurs t := by
  obtain ⟨next, hnext, hrest⟩ := h
  exact hrest.mem hnext.mem

theorem ahead_add : Ahead occurs (m + n) base t ↔ ∃ s, Ahead occurs m base s ∧ Ahead occurs n s t := by
  induction m generalizing base with
  | zero => simp [Ahead]
  | succ m ih =>
      rw [show m + 1 + n = m + n + 1 by omega]
      constructor
      · rintro ⟨next, hnext, hrest⟩
        obtain ⟨s, hs, ht⟩ := ih.mp hrest
        exact ⟨s, ⟨next, hnext, hs⟩, ht⟩
      · rintro ⟨s, ⟨next, hnext, hs⟩, ht⟩
        exact ⟨next, hnext, ih.mpr ⟨s, hs, ht⟩⟩

/-- Every later occurrence is read at some point. -/
theorem exists_ahead (hlt : base < t) (ht : occurs t) : ∃ k, Ahead occurs (k + 1) base t := by
  induction hdist : (t - base).toNat using Nat.strong_induction_on generalizing base with
  | _ dist ih =>
      obtain ⟨next, hnext⟩ := exists_isNext_of_mem hlt ht
      rcases (hnext.least t hlt ht).eq_or_lt with rfl | hmore
      · exact ⟨0, next, hnext, rfl⟩
      · have hcloser : (t - next).toNat < dist := by
          have hstep := hnext.lt
          omega
        obtain ⟨k, hk⟩ := ih _ hcloser hmore rfl
        exact ⟨k + 1, next, hnext, hk⟩

theorem reads_cons : Reads occurs base (t :: times) ↔ IsNext occurs base t ∧ Reads occurs t times :=
  List.isChain_cons_cons

theorem picks_cons : Picks occurs base (t :: picked) ↔ (base < t ∧ occurs t) ∧ Picks occurs t picked :=
  List.isChain_cons_cons

theorem Picks.mono (h : Picks occurs s picked) (hle : base ≤ s) : Picks occurs base picked :=
  List.IsChain.imp_head (fun ⟨hlt, hmem⟩ => ⟨hle.trans_lt hlt, hmem⟩) h

theorem Picks.lt_of_mem (h : Picks occurs base picked) (hmem : t ∈ picked) : base < t := by
  induction picked generalizing base with
  | nil => cases hmem
  | cons first rest ih =>
      obtain ⟨⟨hlt, -⟩, hrest⟩ := picks_cons.mp h
      rcases List.mem_cons.mp hmem with rfl | hlater
      · exact hlt
      · exact hlt.trans (ih hrest hlater)

theorem Picks.mem (h : Picks occurs base picked) (hmem : t ∈ picked) : occurs t := by
  induction picked generalizing base with
  | nil => cases hmem
  | cons first rest ih =>
      obtain ⟨⟨-, hfirst⟩, hrest⟩ := picks_cons.mp h
      rcases List.mem_cons.mp hmem with rfl | hlater
      · exact hfirst
      · exact ih hrest hlater

/-- Of two lists that are read from one base, one goes on where the other ends. -/
theorem Reads.prefix_or_prefix {times' : List ℤ} (h : Reads occurs base times)
    (h' : Reads occurs base times') : times <+: times' ∨ times' <+: times := by
  induction times generalizing base times' with
  | nil => exact Or.inl (List.nil_prefix)
  | cons t times ih =>
      cases times' with
      | nil => exact Or.inr (List.nil_prefix)
      | cons t' times' =>
          obtain ⟨hnext, hrest⟩ := reads_cons.mp h
          obtain ⟨hnext', hrest'⟩ := reads_cons.mp h'
          obtain rfl := hnext.unique hnext'
          rcases ih hrest hrest' with hpre | hpre
          · exact Or.inl (List.cons_prefix_cons.mpr ⟨rfl, hpre⟩)
          · exact Or.inr (List.cons_prefix_cons.mpr ⟨rfl, hpre⟩)

/-- An occurrence after the base is read unless the reading ends before it. -/
theorem Reads.mem_or_lt (h : Reads occurs base times) (hlt : base < t) (ht : occurs t) :
    t ∈ times ∨ ∀ s ∈ times, s < t := by
  induction times generalizing base with
  | nil =>
      right
      intro s hs
      cases hs
  | cons first times ih =>
      obtain ⟨hnext, hrest⟩ := reads_cons.mp h
      rcases (hnext.least t hlt ht).eq_or_lt with rfl | hmore
      · exact Or.inl List.mem_cons_self
      · rcases ih hrest hmore with hmem | hbeyond
        · exact Or.inl (List.mem_cons_of_mem _ hmem)
        · right
          intro s hs
          rcases List.mem_cons.mp hs with rfl | hs
          · exact hmore
          · exact hbeyond s hs

/-- Occurrences in increasing order come among those that are read in the order in which they are read. -/
theorem Reads.filter_sublist (h : Reads occurs base times) (hpicks : Picks occurs base picked) :
    (picked.filter (· ∈ times)).Sublist times := by
  induction times generalizing base picked with
  | nil =>
      have hnone : picked.filter (· ∈ ([] : List ℤ)) = [] := by simp
      rw [hnone]
  | cons t times ih =>
      obtain ⟨hnext, hrest⟩ := reads_cons.mp h
      -- What is picked later than `t` is looked for among the others.
      have hlater : ∀ {xs}, Picks occurs t xs → xs.filter (· ∈ t :: times) = xs.filter (· ∈ times) := by
        intro xs hxs
        apply List.filter_congr
        intro x hx
        have hne : x ≠ t := (hxs.lt_of_mem hx).ne'
        simp [hne]
      cases picked with
      | nil => exact List.nil_sublist _
      | cons p picked =>
          obtain ⟨⟨hlt, hp⟩, htail⟩ := picks_cons.mp hpicks
          rcases (hnext.least p hlt hp).eq_or_lt with rfl | hmore
          · rw [List.filter_cons_of_pos (by simp), hlater htail]
            exact (ih hrest htail).cons_cons t
          · have hall : Picks occurs t (p :: picked) := picks_cons.mpr ⟨⟨hmore, hp⟩, htail⟩
            rw [hlater hall]
            exact (ih hrest hall).cons t

theorem not_shortAhead (h : GapsAtLeast occurs gap) : ¬ShortAhead occurs gap n base := by
  rintro ⟨k, a, b, -, ha, hb, hshort⟩
  have hgap := h a b ha.mem_succ hb
  omega

/-- When the occurrences repeat after a period that has no more than `n` of them, a gap that is too short
begins at one of the first `n` after any base. -/
theorem shortAhead_of_periodic (hpos : 0 < period) (hperiod : ∀ t, occurs (t + period) ↔ occurs t)
    (hcount : ∀ base t, Ahead occurs (n + 1) base t → base + period < t)
    (h : ¬GapsAtLeast occurs gap) (base : ℤ) : ShortAhead occurs gap n base := by
  simp only [GapsAtLeast, not_forall, not_le] at h
  obtain ⟨a, b, ha, hb, hshort⟩ := h
  have hshift : ∀ (j t : ℤ), occurs (t + j * period) ↔ occurs t := by
    intro j t
    induction j using Int.induction_on generalizing t with
    | zero => rw [zero_mul, add_zero]
    | succ i ih =>
        rw [show t + (i + 1) * period = t + i * period + period by ring, hperiod]
        exact ih t
    | pred i ih =>
        rw [← hperiod, show t + (-i - 1) * period + period = t + -i * period by ring]
        exact ih t
  -- The short gap is moved into the period after the base.
  obtain ⟨j, hj⟩ : ∃ j : ℤ, base < a + j * period ∧ a + j * period ≤ base + period := by
    refine ⟨(base - a) / period + 1, ?_, ?_⟩
    · have hmod := Int.emod_lt_of_pos (base - a) hpos
      have hdiv := Int.emod_add_mul_ediv (base - a) period
      rw [add_mul, one_mul, mul_comm]
      omega
    · have hmod := Int.emod_nonneg (base - a) hpos.ne'
      have hdiv := Int.emod_add_mul_ediv (base - a) period
      rw [add_mul, one_mul, mul_comm]
      omega
  have hmoved : IsNext occurs (a + j * period) (b + j * period) := by
    refine ⟨by have := hb.lt; omega, (hshift j b).mpr hb.mem, fun t hlt ht => ?_⟩
    have hback := hb.least (t - j * period) (by omega) ?_
    · omega
    · rw [← hshift j, sub_add_cancel]
      exact ht
  obtain ⟨k, hk⟩ := exists_ahead hj.1 ((hshift j a).mpr ha)
  refine ⟨k, a + j * period, b + j * period, ?_, hk, hmoved, by omega⟩
  by_contra hlate
  obtain ⟨s, hs, hrest⟩ := (ahead_add (m := n + 1) (n := k - n)).mp
    (by rwa [show n + 1 + (k - n) = k + 1 by omega])
  have hfar := hcount base s hs
  have hle := hrest.le
  omega

end Occurrences

end PdeOperator.Base
