import PdeOperator.BaseOccurrences
import PdeOperator.CronUtils

/-! The minimum interval of a cron expression, and what the sample of its next occurrences tells of it. -/

namespace PdeOperator
open Base

/-- `get_next` in UTC goes through exactly the instants that match all fields, in increasing order. -/
def CronLibrary.Enumerates (cron : CronLibrary) (expression : Text) (occurs : Instant → Prop) : Prop :=
  ∀ base next, cron.getNext expression (CronUtils.secondAtBeginning expression) "UTC".toList base =
    some next ↔ IsNext occurs base next

namespace CronUtils

/-- The expression has five or six fields that `croniter` reads. -/
structure IsExpression (cron : CronLibrary) (expression : Text) : Prop where
  minFields_le : minFields ≤ (Text.words (Text.strip expression)).length
  le_maxFields : (Text.words (Text.strip expression)).length ≤ maxFields
  isValid : cron.isValid (Text.strip expression) (secondAtBeginning (Text.strip expression)) = true

variable {cron : CronLibrary} {expression : Text} {occurs : Instant → Prop} {threshold : Int}
  {now previous : Instant}

variable (threshold) in
theorem gapLoop_ok (henum : cron.Enumerates expression occurs) (hunending : Unending occurs)
    (samples : Nat) (previous : Instant) :
    (gapLoop cron expression threshold samples previous = .ok none ∧
      ∀ k a b, k < samples → Ahead occurs k previous a → IsNext occurs a b → seconds threshold ≤ b - a) ∨
    ∃ gap, gapLoop cron expression threshold samples previous = .ok (some gap) ∧
      ∃ k a b, k < samples ∧ Ahead occurs k previous a ∧ IsNext occurs a b ∧ b - a < seconds threshold := by
  induction samples generalizing previous with
  | zero => exact Or.inl ⟨rfl, fun k a b hk => absurd hk (Nat.not_lt_zero k)⟩
  | succ samples ih =>
      obtain ⟨current, hcurrent⟩ := hunending.exists_isNext previous
      rw [gapLoop, (henum previous current).mpr hcurrent]
      dsimp only
      split
      · next hshort =>
        exact Or.inr ⟨_, rfl, 0, previous, current, Nat.succ_pos samples, rfl, hcurrent, hshort⟩
      · next hlong =>
        rcases ih current with ⟨hok, hall⟩ | ⟨gap, hgap, k, a, b, hk, ha, hb, hshort⟩
        · refine Or.inl ⟨hok, fun k a b hk ha hb => ?_⟩
          cases k with
          | zero =>
              obtain rfl : a = previous := ha
              rw [hb.unique hcurrent]
              exact Int.not_lt.mp hlong
          | succ k =>
              obtain ⟨next, hnext, ha⟩ := ha
              rw [hnext.unique hcurrent] at ha
              exact hall k a b (Nat.lt_of_succ_lt_succ hk) ha hb
        · exact Or.inr ⟨gap, hgap, k + 1, a, b, Nat.succ_lt_succ hk, ⟨current, hcurrent, ha⟩, hb, hshort⟩

variable (threshold now) in
/-- The sample finds a short gap if one begins at one of its occurrences but the last. -/
theorem subMinimumGap_ok (henum : cron.Enumerates expression occurs) (hunending : Unending occurs) :
    (subMinimumGap cron expression threshold now = .ok none ∧
      ¬ShortAhead occurs (seconds threshold) (intervalSamples - 1) now) ∨
    ∃ gap, subMinimumGap cron expression threshold now = .ok (some gap) ∧
      ShortAhead occurs (seconds threshold) (intervalSamples - 1) now := by
  obtain ⟨first, hfirst⟩ := hunending.exists_isNext now
  rw [subMinimumGap, (henum now first).mpr hfirst]
  dsimp only
  rcases gapLoop_ok threshold henum hunending (intervalSamples - 1) first with
    ⟨hok, hall⟩ | ⟨gap, hgap, k, a, b, hk, ha, hb, hshort⟩
  · refine Or.inl ⟨hok, ?_⟩
    rintro ⟨k, a, b, hk, ⟨next, hnext, ha⟩, hb, hshort⟩
    rw [hnext.unique hfirst] at ha
    have hlong := hall k a b hk ha hb
    omega
  · exact Or.inr ⟨gap, hgap, k, a, b, hk, ⟨first, hfirst, ha⟩, hb, hshort⟩

/-- What the check of an expression comes to. -/
theorem validateExpression_ok_iff (hexpression : IsExpression cron expression)
    (hthreshold : 0 < threshold) (henum : cron.Enumerates (Text.strip expression) occurs)
    (hunending : Unending occurs) :
    validateExpression cron expression threshold now = .ok () ↔
      ¬ShortAhead occurs (seconds threshold) (intervalSamples - 1) now := by
  have hmin := hexpression.minFields_le
  have hmax := hexpression.le_maxFields
  have hne : (Text.strip expression).isEmpty = false := by
    cases hcleaned : Text.strip expression with
    | nil =>
        rw [hcleaned] at hmin
        exact absurd hmin (by decide)
    | cons c rest => rfl
  have hfields : ¬((Text.words (Text.strip expression)).length < minFields ∨
      maxFields < (Text.words (Text.strip expression)).length) := by
    omega
  simp only [validateExpression, hne, Bool.false_eq_true, if_false, if_neg hfields,
    hexpression.isValid, Bool.not_true, if_pos hthreshold]
  rcases subMinimumGap_ok threshold now henum hunending with
    ⟨hok, hnone⟩ | ⟨gap, hgap, hshort⟩
  · rw [hok]
    exact iff_of_true rfl hnone
  · rw [hgap]
    refine iff_of_false (fun h => ?_) (not_not.mpr hshort)
    cases h

/-- The expression is accepted if and only if its occurrences are far enough apart, exactly when they are
or a gap that is too short begins at one of the first seven of them. It is judged so at every time exactly
when all its gaps are long enough or a short one begins at one of any seven occurrences in a row. -/
theorem validateExpression_iff (hexpression : IsExpression cron expression) (hthreshold : 0 < threshold)
    (henum : cron.Enumerates (Text.strip expression) occurs) (hunending : Unending occurs) :
    (∀ now, (validateExpression cron expression threshold now = .ok () ↔
        GapsAtLeast occurs (seconds threshold)) ↔
      GapsAtLeast occurs (seconds threshold) ∨ ShortAhead occurs (seconds threshold) 7 now) ∧
    ((∀ now, validateExpression cron expression threshold now = .ok () ↔
        GapsAtLeast occurs (seconds threshold)) ↔
      GapsAtLeast occurs (seconds threshold) ∨ ∀ now, ShortAhead occurs (seconds threshold) 7 now) := by
  have hone : ∀ now, (validateExpression cron expression threshold now = .ok () ↔
      GapsAtLeast occurs (seconds threshold)) ↔
        GapsAtLeast occurs (seconds threshold) ∨ ShortAhead occurs (seconds threshold) 7 now := by
    intro now
    rw [validateExpression_ok_iff hexpression hthreshold henum hunending]
    have hnot : GapsAtLeast occurs (seconds threshold) →
        ¬ShortAhead occurs (seconds threshold) (intervalSamples - 1) now := not_shortAhead
    show (¬ShortAhead occurs (seconds threshold) 7 now ↔ _) ↔ _
    constructor
    · intro hiff
      by_cases hshort : ShortAhead occurs (seconds threshold) 7 now
      · exact Or.inr hshort
      · exact Or.inl (hiff.mp hshort)
    · rintro (hgaps | hshort)
      · exact iff_of_true (hnot hgaps) hgaps
      · exact iff_of_false (not_not.mpr hshort) fun hgaps => hnot hgaps hshort
  refine ⟨hone, ?_⟩
  simp only [hone]
  exact forall_or_left

/-- An expression whose occurrences repeat, at most seven in a period, is judged right at every time. -/
theorem validateExpression_of_periodic {period : Int} (hexpression : IsExpression cron expression)
    (hthreshold : 0 < threshold) (henum : cron.Enumerates (Text.strip expression) occurs)
    (hunending : Unending occurs) (hpos : 0 < period)
    (hperiod : ∀ t, occurs (t + period) ↔ occurs t)
    (hcount : ∀ base t, Ahead occurs 8 base t → base + period < t) :
    validateExpression cron expression threshold now = .ok () ↔
      GapsAtLeast occurs (seconds threshold) := by
  rw [validateExpression_ok_iff hexpression hthreshold henum hunending]
  constructor
  · intro hnone
    by_contra hgaps
    exact hnone (shortAhead_of_periodic hpos hperiod hcount hgaps now)
  · exact fun hgaps => not_shortAhead hgaps

def everySevenMinutes : Text := "*/7 * * * *".toList

/-- The instants of `*/7 * * * *`: minute 0, 7, ..., 56 of each hour. -/
def atSevenMinutes (t : Int) : Prop := t % seconds 3600 % seconds 420 = 0

/-- The libraries as they treat the expression in UTC. -/
def sevenMinutes : CronLibrary where
  isValid _ _ := true
  getNext _ _ _ base :=
    let later := base % seconds 3600 / seconds 420 * seconds 420 + seconds 420
    some (base / seconds 3600 * seconds 3600 + min later (seconds 3600))
  zoneInfo name := name == "UTC".toList
  isoFormat _ := []
  formatGap _ := []
  badDate := []

theorem atSevenMinutes_of_multiple (hours : Int) {k : Int} (hk : 0 ≤ k) (hk' : k ≤ 8) :
    atSevenMinutes (hours * seconds 3600 + k * seconds 420) := by
  have hsmall : k * seconds 420 < seconds 3600 := by
    simp only [seconds]
    omega
  have hnonneg : 0 ≤ k * seconds 420 := mul_nonneg hk (by decide)
  rw [atSevenMinutes, add_comm, Int.add_mul_emod_self_right, Int.emod_eq_of_lt hnonneg hsmall,
    Int.mul_emod_left]

theorem sevenMinutes_enumerates : sevenMinutes.Enumerates everySevenMinutes atSevenMinutes := by
  have hnext : ∀ base : Int, IsNext atSevenMinutes base (base / seconds 3600 * seconds 3600 +
      min (base % seconds 3600 / seconds 420 * seconds 420 + seconds 420) (seconds 3600)) := by
    intro base
    simp only [seconds]
    constructor
    · omega
    · by_cases hlast : base % (3600 * 1000000) / (420 * 1000000) ≤ 7
      · have hmore := atSevenMinutes_of_multiple (base / seconds 3600)
          (k := base % seconds 3600 / seconds 420 + 1) (by simp only [seconds]; omega)
          (by simp only [seconds]; omega)
        rw [add_mul, one_mul] at hmore
        rwa [min_eq_left (by omega)]
      · have hhour := atSevenMinutes_of_multiple (base / seconds 3600 + 1) le_rfl (by decide)
        rw [zero_mul, add_zero, add_mul, one_mul] at hhour
        rwa [min_eq_right (by omega)]
    · intro t hlt ht
      simp only [atSevenMinutes, seconds] at ht
      -- A later hour comes after the end of this one, and in this hour the minutes are multiples of seven.
      by_cases hhour : t / (3600 * 1000000) = base / (3600 * 1000000)
      · omega
      · omega
  intro base next
  show some _ = some next ↔ _
  rw [Option.some.injEq]
  constructor
  · rintro rfl
    exact hnext base
  · exact fun h => (hnext base).unique h

theorem atSevenMinutes_unending : Unending atSevenMinutes := by
  intro base
  refine ⟨(base / seconds 3600 + 1) * seconds 3600, ?_, ?_⟩
  · have hlt : base < (base / seconds 3600 + 1) * seconds 3600 := Int.lt_ediv_add_one_mul_self base (by decide)
    exact hlt
  · rw [atSevenMinutes, Int.mul_emod_left]
    rfl

/-- With a minimum of four minutes the expression is judged right at any time. -/
theorem validateExpression_iff_fourMinutes :
    (∀ now, validateExpression sevenMinutes everySevenMinutes 240 now = .ok () ↔
        GapsAtLeast atSevenMinutes (seconds 240)) ↔
      GapsAtLeast atSevenMinutes (seconds 240) ∨ ∀ now, ShortAhead atSevenMinutes (seconds 240) 7 now :=
  (validateExpression_iff ⟨by decide, by decide, rfl⟩ (by decide) sevenMinutes_enumerates
    atSevenMinutes_unending).2

/-- With a minimum of five minutes the expression is accepted at the full hour and refused ten minutes
before it, although its occurrences at minute 56 and at the next full hour are four minutes apart. -/
theorem sevenMinutes_verdict_depends_on_time :
    validateExpression sevenMinutes everySevenMinutes 300 0 = .ok () ∧
      validateExpression sevenMinutes everySevenMinutes 300 (seconds 3000) =
        .error (.belowMinimumInterval (seconds 240) 300) ∧
      ¬GapsAtLeast atSevenMinutes (seconds 300) := by
  refine ⟨by decide, by decide, fun h => ?_⟩
  have hgap : IsNext atSevenMinutes (seconds 3360) (seconds 3600) :=
    (sevenMinutes_enumerates _ _).mp (by decide)
  have hlong := h _ _ (by decide : seconds 3360 % seconds 3600 % seconds 420 = 0) hgap
  exact absurd hlong (by decide)

end CronUtils
end PdeOperator
