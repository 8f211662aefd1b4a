import Contiwatch.StoredConfig
import Mathlib.Data.List.Sort

/-!
# Scheduler Plans

How `internal/server/scheduler.go` reads the plan of a configuration. `buildSchedulerPlan` turns
it into what the scheduler's loop runs on, or says what is wrong with it. The parser of the cron
library is a parameter.

## Main results

* `planAccepted_eq` — whether a configuration has a plan that can be built depends on its plan
  alone.
* `planAccepted_repairPlan` — the repairs of the store do not spoil a plan.
-/

namespace Contiwatch

open GoStrings

/-! ### Basic plans -/

/-- `getnum` of Go's `time` package: a number of two digits, or of one if that is not `fixed`,
and the rest of the text. -/
def getnum (fixed : Bool) : List Char → Option (ℕ × List Char)
  | a :: b :: rest =>
      if ¬ a.isDigit then none
      else if b.isDigit then
        some ((a.toNat - '0'.toNat) * 10 + (b.toNat - '0'.toNat), rest)
      else if fixed then none
      else some (a.toNat - '0'.toNat, b :: rest)
  | [a] => if ¬ a.isDigit ∨ fixed then none else some (a.toNat - '0'.toNat, [])
  | [] => none

/-- `time.Parse` with the layout `15:04`: hour and minute. -/
def parseClock (value : List Char) : Option (ℕ × ℕ) :=
  match getnum false value with
  | none => none
  | some (hour, rest) =>
      if 24 ≤ hour then none
      else
        match rest with
        | ':' :: rest =>
            match getnum true rest with
            | some (minute, []) => if 60 ≤ minute then none else some (hour, minute)
            | _ => none
        | _ => none

/-- `normalizeBasicDays`: the days as numbers of the cron grammar, in which Sunday is 0. -/
def normalizeBasicDays (days : List Int64) : Except String String :=
  match days.find? fun day => day < 1 || 7 < day with
  | some day => .error ("invalid day: " ++ toString day.toInt)
  | none =>
      let values := days.dedup.map fun day => if day = 7 then 0 else day.toInt
      .ok (",".intercalate ((values.insertionSort (· ≤ ·)).map toString))

/-- `buildCronFromBasic`. -/
def buildCronFromBasic (days : List Int64) (timeValue : String) : Except String String :=
  if days = [] then .error "select at least one day"
  else
    match parseClock timeValue.toList with
    | none => .error "time must be HH:MM"
    | some (hour, minute) =>
        match normalizeBasicDays days with
        | .error err => .error err
        | .ok dowList => .ok (toString minute ++ " " ++ toString hour ++ " * * " ++ dowList)

example : buildCronFromBasic [7, 1, 1] "3:05" = .ok "5 3 * * 0,1" := by decide

/-! ### Plans -/

/-- `schedulerPlan`: what the scheduler runs on. The interval is in nanoseconds. -/
structure BuiltPlan where
  mode : String
  expr : String
  interval : Int64
  deriving DecidableEq, Repr

section

variable (parseCron : String → Except String Unit)

/-- `buildSchedulerPlan`. -/
def buildSchedulerPlan (cfg : StoredConfig) : Except String BuiltPlan :=
  let trimmed := trimSpaceStr cfg.schedulerPlan.mode
  let mode := if trimmed = "" then schedulerModeLegacy else trimmed
  if mode = schedulerModeLegacy then
    let interval := cfg.scanIntervalSec * 1000000000
    let interval := if interval ≤ 0 then 5 * 60 * 1000000000 else interval
    .ok { mode := mode, expr := "", interval := interval }
  else if mode = schedulerModeBasic then
    match cfg.schedulerPlan.basic with
    | none => .error "basic schedule is required"
    | some basic =>
        match buildCronFromBasic basic.days basic.time with
        | .error err => .error err
        | .ok expr => .ok { mode := mode, expr := expr, interval := 0 }
  else if mode = schedulerModeCron then
    match cfg.schedulerPlan.cron with
    | none => .error "cron expression is required"
    | some cron =>
        let expr := trimSpaceStr cron.expr
        if expr = "" then .error "cron expression is required"
        else
          match parseCron expr with
          | .error err => .error ("invalid cron: " ++ err)
          | .ok () => .ok { mode := mode, expr := expr, interval := 0 }
  else .error ("unknown scheduler mode: " ++ mode)

/-- `buildSchedulerPlan` accepts the plan. -/
def planAccepted (cfg : StoredConfig) : Bool := (buildSchedulerPlan parseCron cfg).isOk

/-- `shouldApplySchedulerPlan`: the payload has a plan of its own. -/
def shouldApplySchedulerPlan (cfg : StoredConfig) : Bool :=
  trimSpaceStr cfg.schedulerPlan.mode ≠ "" || cfg.schedulerPlan.basic.isSome ||
    cfg.schedulerPlan.cron.isSome

/-- Whether a plan is accepted depends on the plan alone. -/
theorem planAccepted_eq {cfg cfg' : StoredConfig} (h : cfg.schedulerPlan = cfg'.schedulerPlan) :
    planAccepted parseCron cfg = planAccepted parseCron cfg' := by
  simp only [planAccepted, buildSchedulerPlan, h]
  by_cases hlegacy : (if trimSpaceStr cfg'.schedulerPlan.mode = "" then schedulerModeLegacy
      else trimSpaceStr cfg'.schedulerPlan.mode) = schedulerModeLegacy
  · simp only [if_pos hlegacy, Except.isOk, Except.toBool]
  · simp only [if_neg hlegacy]

/-- A plan without a mode is a legacy plan, and accepted. -/
theorem planAccepted_of_mode {cfg : StoredConfig} (h : cfg.schedulerPlan.mode = "") :
    planAccepted parseCron cfg = true := by
  have htrim : trimSpaceStr "" = "" := rfl
  simp [planAccepted, buildSchedulerPlan, h, htrim, Except.isOk, Except.toBool]

/-- The default plan is accepted. -/
theorem planAccepted_default {cfg : StoredConfig}
    (h : cfg.schedulerPlan = defaultConfig.schedulerPlan) : planAccepted parseCron cfg = true := by
  have htrim : trimSpaceStr defaultConfig.schedulerPlan.mode = schedulerModeLegacy := by
    decide
  have hmode : schedulerModeLegacy ≠ "" := by decide
  simp [planAccepted, buildSchedulerPlan, h, htrim, hmode, Except.isOk, Except.toBool]

/-- **Repairs keep plans.** The plan is accepted after the repair of the store exactly if it was
accepted before. -/
theorem planAccepted_repairPlan {cfg cfg' : StoredConfig}
    (h : cfg'.schedulerPlan = repairPlan cfg.schedulerPlan) :
    planAccepted parseCron cfg' = planAccepted parseCron cfg := by
  by_cases hmode : cfg.schedulerPlan.mode = ""
  · rw [repairPlan, if_pos hmode] at h
    rw [planAccepted_default parseCron h, planAccepted_of_mode parseCron hmode]
  · rw [repairPlan, if_neg hmode] at h
    exact planAccepted_eq parseCron h

end

end Contiwatch
