import PdeOperator.ScheduleRow

/-! `CronUtils`: validation of cron expressions and time zones, and the next fire time. The libraries
`croniter` and `zoneinfo` are a parameter. -/

namespace PdeOperator
open Base

/-- `croniter`, `zoneinfo` and the printing of times. The flag is `second_at_beginning`; `getNext` is
the first occurrence after a base in a time zone, `none` stands for the `ValueError` of the library. -/
structure CronLibrary where
  isValid : Text → Bool → Bool
  getNext : Text → Bool → Text → Instant → Option Instant
  zoneInfo : Text → Bool
  /-- `datetime.isoformat` -/
  isoFormat : Instant → Text
  /-- `f"{gap:g}"` of a number of seconds -/
  formatGap : Int → Text
  /-- The message of the `ValueError`. -/
  badDate : Text

namespace CronUtils

inductive Error where
  | timezoneRequired
  | unknownTimezone (name : Text)
  | expressionRequired
  | fieldCount (got : Nat) (expression : Text)
  | invalidExpression (expression : Text)
  | belowMinimumInterval (gap : Int) (minimum : Nat)
  | badDate
  deriving DecidableEq

def minFields : Nat := 5
def maxFields : Nat := 6
def intervalSamples : Nat := 8

/-- `_cron_kwargs` -/
def secondAtBeginning (expression : Text) : Bool := (Text.words expression).length == maxFields

/-- A number in decimal digits. -/
def decimal (n : Nat) : Text := (Nat.toDigits 10 n)

variable (cron : CronLibrary)

def Error.message : Error → Text
  | .timezoneRequired => "Timezone is required".toList
  | .unknownTimezone name => "Unknown timezone '".toList ++ name ++ "'".toList
  | .expressionRequired => "Cron expression is required".toList
  | .fieldCount got expression =>
      "Cron expression must have ".toList ++ decimal minFields ++ " or ".toList ++
        decimal maxFields ++ " fields, got ".toList ++ decimal got ++ ": '".toList ++ expression ++
        "'".toList
  | .invalidExpression expression => "Invalid cron expression: '".toList ++ expression ++ "'".toList
  | .belowMinimumInterval gap minimum =>
      "Cron expression fires every ".toList ++ cron.formatGap gap ++
        "s, which is below the minimum interval of ".toList ++ decimal minimum ++ "s".toList
  | .badDate => cron.badDate

def resolveTimezone (name : Text) : Except Error Text :=
  let cleaned := Text.strip name
  if cleaned.isEmpty then .error .timezoneRequired
  else if cron.zoneInfo cleaned then .ok cleaned
  else .error (.unknownTimezone name)

/-- `next_fire_time` -/
def nextFireTime (expression timezone : Text) (base : Instant) : Except Error Instant := do
  let zone ← resolveTimezone cron timezone
  match cron.getNext expression (secondAtBeginning expression) zone base with
  | some next => .ok next
  | none => .error .badDate

/-- The loop of `_sub_minimum_gap` over the sampled occurrences. -/
def gapLoop (expression : Text) (threshold : Int) : Nat → Instant → Except Error (Option Int)
  | 0, _ => .ok none
  | samples + 1, previous =>
      match cron.getNext expression (secondAtBeginning expression) "UTC".toList previous with
      | none => .error .badDate
      | some current =>
          if current - previous < seconds threshold then .ok (some (current - previous))
          else gapLoop expression threshold samples current

def subMinimumGap (expression : Text) (threshold : Int) (now : Instant) :
    Except Error (Option Int) :=
  match cron.getNext expression (secondAtBeginning expression) "UTC".toList now with
  | none => .error .badDate
  | some first => gapLoop cron expression threshold (intervalSamples - 1) first

def validateExpression (expression : Text) (minIntervalSeconds : Int) (now : Instant) :
    Except Error Unit :=
  let cleaned := Text.strip expression
  let fields := (Text.words cleaned).length
  if cleaned.isEmpty then .error .expressionRequired
  else if fields < minFields ∨ maxFields < fields then .error (.fieldCount fields expression)
  else if !cron.isValid cleaned (secondAtBeginning cleaned) then
    .error (.invalidExpression expression)
  else if minIntervalSeconds > 0 then do
    match ← subMinimumGap cron cleaned minIntervalSeconds now with
    | some gap => .error (.belowMinimumInterval gap minIntervalSeconds.toNat)
    | none => .ok ()
  else .ok ()


end CronUtils

/-- What the anchors rest on: the next occurrence lies strictly after its base. -/
def CronLibrary.Forward (cron : CronLibrary) : Prop :=
  ∀ expression flag zone base next, cron.getNext expression flag zone base = some next → base < next

theorem CronLibrary.Forward.nextFireTime {cron : CronLibrary} (h : cron.Forward)
    {expression timezone : Text} {base next : Instant}
    (hnext : CronUtils.nextFireTime cron expression timezone base = .ok next) : base < next := by
  unfold CronUtils.nextFireTime at hnext
  cases hzone : CronUtils.resolveTimezone cron timezone with
  | error e =>
      rw [hzone] at hnext
      cases hnext
  | ok zone =>
      rw [hzone] at hnext
      simp only [Except.bind, bind] at hnext
      split at hnext
      · next later hlater =>
        cases hnext
        exact h _ _ _ _ _ hlater
      · cases hnext

/-- The libraries as they treat the expression `* * * * *` in UTC. -/
def everyMinute : CronLibrary where
  isValid _ _ := true
  getNext _ _ _ base := some ((base / seconds 60 + 1) * seconds 60)
  zoneInfo name := name == "UTC".toList
  isoFormat _ := []
  formatGap _ := []
  badDate := []

theorem everyMinute_forward : everyMinute.Forward := by
  intro expression flag zone base next h
  rw [everyMinute, Option.some.injEq] at h
  subst h
  have hmod : base % seconds 60 < seconds 60 := Int.emod_lt_of_pos base (by decide)
  calc base = seconds 60 * (base / seconds 60) + base % seconds 60 :=
        (Int.mul_ediv_add_emod base (seconds 60)).symm
    _ < seconds 60 * (base / seconds 60) + seconds 60 := Int.add_lt_add_left hmod _
    _ = (base / seconds 60 + 1) * seconds 60 := by rw [Int.add_mul, Int.one_mul, Int.mul_comm]

end PdeOperator
