import Contiwatch.BasicPlans
import Contiwatch.Releases
import Contiwatch.SchedulerTicks
import Mathlib.Data.List.Infix

/-!
# Previews of Plans

`/api/scheduler/preview/basic` and `/api/scheduler/preview/cron` of
`internal/server/scheduler.go` answer a plan that is not stored yet with its next runs, or with
what is wrong with it. The zone of the server and its `Format` are parameters.

## Main results

* `preview_planned` — the preview of a plan has the error for which the scheduler would refuse the
  plan, or else the instants of the plan's schedule, from now on and without gaps.
* `run_previewed` — in every run of the scheduler, what a loop publishes is what a preview showed
  when the loop started.
-/

namespace Contiwatch

open Cron GoStrings

/-- What a reply says of instants: the name of the zone and `Format(time.RFC3339)` in it. -/
structure PreviewText where
  zone : String
  format : ℕ → String

/-- `schedulerPreviewResponse`. A slice that is not set is `none`. -/
structure SchedulerPreviewResponse where
  timeZone : String
  now : String
  nextRuns : Option (List String)
  error : String
  deriving DecidableEq, Repr

/-! ### Parameters -/

/-- `parsePreviewCount`. -/
def parsePreviewCount (raw : String) : ℤ :=
  match atoi (trimSpace raw.toList) with
  | none => 5
  | some count => if count ≤ 0 then 5 else if 15 < count then 15 else count

/-- `parseDaysParam`. -/
def parseDaysParam (raw : String) : Except String (List Int64) :=
  if trimSpaceStr raw = "" then .error "select at least one day"
  else
    match (split ',' raw.toList).mapM fun part => atoi (trimSpace part) with
    | none => .error "invalid day list"
    | some days => .ok (days.map Int64.ofInt)

/-- A preview shows between one and fifteen times. -/
theorem parsePreviewCount_mem (raw : String) :
    1 ≤ parsePreviewCount raw ∧ parsePreviewCount raw ≤ 15 := by
  rw [parsePreviewCount]
  split
  · decide
  · split_ifs <;> omega

/-! ### Handlers -/

section

variable (lib : SchedulerLib) (text : PreviewText)

/-- `nextRunsFromCron`, at `now`. -/
def nextRunsFromCron (now : ℕ) (expr : String) (count : ℤ) : Except String (List String) :=
  if trimSpaceStr expr = "" then .error "cron expression is required"
  else
    let count := if count ≤ 0 then 5 else count
    match lib.parse expr with
    | .error err => .error ("invalid cron: " ++ err)
    | .ok sched => .ok ((sched.fires now count.toNat).map text.format)

/-- A reply, written at `now`. -/
def previewReply (now : ℕ) : Except String (List String) → SchedulerPreviewResponse
  | .error err =>
      { timeZone := text.zone, now := text.format now, nextRuns := none, error := err }
  | .ok runs =>
      { timeZone := text.zone, now := text.format now, nextRuns := some runs, error := "" }

/-- `handleSchedulerPreviewBasic`. The clock is read at `now` for the runs and at `replied` for the
reply; no reply is `StatusMethodNotAllowed`. -/
def handleSchedulerPreviewBasic (method : String) (query : String → String) (now replied : ℕ) :
    Option SchedulerPreviewResponse :=
  if method ≠ "GET" then none
  else
    let daysParam := trimSpaceStr (query "days")
    let timeParam := trimSpaceStr (query "time")
    let count := parsePreviewCount (query "count")
    match parseDaysParam daysParam with
    | .error err => some (previewReply text replied (.error err))
    | .ok days =>
        match buildCronFromBasic days timeParam with
        | .error err => some (previewReply text replied (.error err))
        | .ok expr => some (previewReply text replied (nextRunsFromCron lib text now expr count))

/-- `handleSchedulerPreviewCron`. -/
def handleSchedulerPreviewCron (method : String) (query : String → String) (now replied : ℕ) :
    Option SchedulerPreviewResponse :=
  if method ≠ "GET" then none
  else
    let expr := trimSpaceStr (query "expr")
    let count := parsePreviewCount (query "count")
    some (previewReply text replied (nextRunsFromCron lib text now expr count))

/-- `schedulerStatusResponse`. The field `Error` is never set. -/
structure SchedulerStatusResponse where
  enabled : Bool
  mode : String
  timeZone : String
  nextRuns : Option (List String)
  deriving DecidableEq, Repr

/-- `handleSchedulerStatus`. -/
def handleSchedulerStatus (method : String) (query : String → String) (s : SchedulerState) :
    Option SchedulerStatusResponse :=
  if method ≠ "GET" then none
  else
    let count := parsePreviewCount (query "count")
    some
      { enabled := s.enabled, mode := s.mode, timeZone := text.zone
        nextRuns :=
          if s.enabled ∧ s.nextRun ≠ 0 ∧ 0 < count then some [text.format s.nextRun] else none }

end

/-! ### The list of days -/

/-- A number is read as it was written. -/
theorem digitsValue_toDigits (n : ℕ) : digitsValue (Nat.toDigits 10 n) = n := by
  have hfold := Nat.ofDigitChars_ten_toDigits (n := n)
  rwa [Nat.ofDigitChars_eq_foldl] at hfold

/-- The characters of a number. -/
theorem mem_toList_toString {n : ℤ} {c : Char} (h : c ∈ (toString n).toList) :
    c = '-' ∨ c.isDigit = true := by
  rw [Int.toString_eq_repr] at h
  rcases n with n | n
  · exact Or.inr (Nat.isDigit_of_mem_toDigits (by decide) (by decide) (Nat.toList_repr ▸ h))
  · have hneg : (Int.negSucc n).repr = "-" ++ (n + 1).repr := rfl
    rw [hneg, String.toList_append, List.mem_append, Nat.toList_repr] at h
    rcases h with h | h
    · exact Or.inl (List.mem_singleton.mp h)
    · exact Or.inr (Nat.isDigit_of_mem_toDigits (by decide) (by decide) h)

/-- An `int` is read as it was written. -/
theorem atoi_toString {n : ℤ} (hlow : -2 ^ 63 ≤ n) (hhigh : n < 2 ^ 63) :
    atoi (toString n).toList = some n := by
  have hdigits : ∀ m : ℕ, (Nat.toDigits 10 m).all Char.isDigit = true := fun m =>
    List.all_eq_true.mpr fun c hc => Nat.isDigit_of_mem_toDigits (by decide) (by decide) hc
  rw [Int.toString_eq_repr]
  rcases n with n | n
  · have hrepr : (Int.ofNat n).repr = n.repr := rfl
    rw [hrepr, Nat.toList_repr, atoi_of_digits Nat.toDigits_ne_nil (hdigits n),
      digitsValue_toDigits]
    · rfl
    · rw [digitsValue_toDigits]
      exact Int.ofNat_lt.mp hhigh
  · have hrepr : (Int.negSucc n).repr = "-" ++ (n + 1).repr := rfl
    have htext : ("-" ++ (n + 1).repr).toList = '-' :: Nat.toDigits 10 (n + 1) := by
      rw [String.toList_append, Nat.toList_repr]
      rfl
    rw [hrepr, htext, atoi]
    simp [hdigits, Nat.toDigits_ne_nil, digitsValue_toDigits]
    omega

/-- A number is neither empty nor has it a blank or a comma in it. -/
theorem number_text (n : ℤ) : (toString n).toList ≠ [] ∧
    ∀ c ∈ (toString n).toList, isSpace c = false ∧ c ≠ ',' := by
  refine ⟨fun hnil => ?_, fun c hc => ?_⟩
  · rw [Int.toString_eq_repr] at hnil
    rcases n with n | n
    · exact Nat.toDigits_ne_nil (Nat.toList_repr ▸ hnil)
    · have hneg : (Int.negSucc n).repr = "-" ++ (n + 1).repr := rfl
      rw [hneg, String.toList_append] at hnil
      exact absurd hnil (List.cons_ne_nil '-' _)
  · rcases mem_toList_toString hc with rfl | hdigit
    · decide
    · exact ⟨ascii_forall (p := fun c => c.isDigit = true → isSpace c = false)
        (by decide) (toNat_lt_of_isDigit hdigit) hdigit,
        fun hcomma => absurd hdigit (by rw [hcomma]; decide)⟩

/-- The days as a client joins them. -/
def joinDays (days : List Int64) : String :=
  ",".intercalate (days.map fun day => toString day.toInt)

/-- **The list of days.** What a client joined is read back. -/
theorem parseDaysParam_joinDays {days : List Int64} (hne : days ≠ []) :
    parseDaysParam (trimSpaceStr (joinDays days)) = .ok days := by
  have hjoin : (joinDays days).toList =
      [','].intercalate (days.map fun day => (toString day.toInt).toList) := by
    rw [joinDays, String.toList_intercalate, List.map_map]
    rfl
  have hsplit : split ',' (joinDays days).toList =
      days.map fun day => (toString day.toInt).toList := by
    rw [split, hjoin]
    refine List.splitOn_intercalate ',' (fun w hw => ?_) (by simpa using hne)
    obtain ⟨day, -, rfl⟩ := List.mem_map.mp hw
    exact fun hcomma => ((number_text day.toInt).2 ',' hcomma).2 rfl
  have hspace : ∀ c ∈ (joinDays days).toList, isSpace c = false := by
    intro c hc
    rcases @mem_split ',' c _ hc with rfl | ⟨w, hw, hcw⟩
    · decide
    · rw [hsplit] at hw
      obtain ⟨day, -, rfl⟩ := List.mem_map.mp hw
      exact ((number_text day.toInt).2 c hcw).1
  have htrim : trimSpaceStr (joinDays days) = joinDays days := by
    rw [trimSpaceStr, trimSpace_of_not_space hspace, String.ofList_toList]
  have hnonempty : joinDays days ≠ "" := by
    intro hnil
    have hone : split ',' (joinDays days).toList = [[]] := by rw [hnil]; rfl
    obtain ⟨day, rest, rfl⟩ := List.exists_cons_of_ne_nil hne
    rw [hsplit, List.map_cons] at hone
    exact (number_text day.toInt).1 (List.cons.inj hone).1
  have hread : ((split ',' (joinDays days).toList).mapM fun part => atoi (trimSpace part)) =
      some (days.map Int64.toInt) := by
    rw [hsplit, List.mapM_map]
    refine mapM_of_forall fun day _ => ?_
    rw [Function.comp_apply, trimSpace_of_not_space fun c hc => ((number_text day.toInt).2 c hc).1]
    exact atoi_toString day.le_toInt day.toInt_lt
  rw [htrim, parseDaysParam, htrim, if_neg hnonempty, hread]
  simp [List.map_map, Function.comp_def]

/-! ### Previews of plans -/

/-- What a client asks for a plan. -/
def planQuery (plan : SchedulerPlan) (count key : String) : String :=
  if key = "days" then plan.basic.elim "" fun basic => joinDays basic.days
  else if key = "time" then plan.basic.elim "" SchedulerBasic.time
  else if key = "expr" then plan.cron.elim "" SchedulerCron.expr
  else if key = "count" then count
  else ""

/-- The runs of a plan, of which a reply lists `count`: as long as none of them is the zero time,
they are the instants of the schedule after `now`, in order and without gaps; the zero time says
that there is none within the horizon. -/
structure Foretold (sched : Schedule) (now : ℕ) (runs : List ℕ) : Prop where
  ordered : ∀ n, 0 ∉ runs.take n → (runs.take n).Pairwise (· < ·)
  complete : ∀ n, 0 ∉ runs.take n → ∀ u, u ∈ runs.take n ↔
    now < u ∧ u ≤ (runs.take n).getLastD now ∧ sched.Matches u
  zero : ∀ n, 0 ∉ runs.take n → runs[n]? = some 0 → ∀ u, (runs.take n).getLastD now < u →
    u ≤ sched.horizon ((runs.take n).getLastD now) → ¬ sched.Matches u

/-- The schedule's own next times are foretold. -/
theorem foretold_fires (sched : Schedule) (now count : ℕ) :
    Foretold sched now (sched.fires now count) := by
  have htake : ∀ n, (sched.fires now count).take n = sched.fires now (min n count) := by
    intro n
    rcases Nat.le_total n count with hle | hle
    · rw [Schedule.take_fires now hle, Nat.min_eq_left hle]
    · rw [List.take_of_length_le (by simpa using hle), Nat.min_eq_right hle]
  refine ⟨fun n hn => ?_, fun n hn u => ?_, fun n hn hzero u => ?_⟩
  · rw [htake] at hn ⊢
    exact Schedule.fires_pairwise hn
  · rw [htake] at hn ⊢
    exact Schedule.mem_fires_iff hn
  · have hlt : n < count := by
      simpa using (List.getElem?_eq_some_iff.mp hzero).1
    rw [Schedule.getElem?_fires now hlt] at hzero
    rw [htake, Nat.min_eq_left hlt.le]
    exact Schedule.not_matches_of_next (Option.some.inj hzero)

/-- What the reply to a preview says of a plan that the scheduler would take or refuse. -/
def Previews (lib : SchedulerLib) (text : PreviewText) (now : ℕ)
    (reply : SchedulerPreviewResponse) : Except String BuiltPlan → Prop
  | .error err => reply.error = err ∧ reply.nextRuns = none
  | .ok plan => ∀ sched, lib.parse plan.expr = .ok sched → reply.error = "" ∧
      ∃ runs, reply.nextRuns = some (runs.map text.format) ∧
        1 ≤ runs.length ∧ runs.length ≤ 15 ∧ Foretold sched now runs

section

variable {lib : SchedulerLib} {text : PreviewText} {now replied : ℕ}

/-- An error is previewed as an error. -/
theorem previews_error (err : String) :
    Previews lib text now (previewReply text replied (.error err)) (.error err) :=
  ⟨rfl, rfl⟩

/-- The reply for the expression of a plan. -/
theorem previews_runs (plan : BuiltPlan) (hexpr : trimSpaceStr plan.expr ≠ "") (raw : String) :
    Previews lib text now (previewReply text replied
      (nextRunsFromCron lib text now plan.expr (parsePreviewCount raw))) (.ok plan) := by
  intro sched hparse
  obtain ⟨hlow, hhigh⟩ := parsePreviewCount_mem raw
  have hcount : ¬ parsePreviewCount raw ≤ 0 := by omega
  simp only [nextRunsFromCron, if_neg hexpr, if_neg hcount, hparse, previewReply]
  refine ⟨trivial, _, rfl, ?_, ?_, foretold_fires sched now _⟩
  · rw [Schedule.length_fires]
    omega
  · rw [Schedule.length_fires]
    omega

/-- The expression of a basic plan begins with a digit. -/
theorem trimSpaceStr_ne_of_basic {days : List Int64} {timeValue expr : String}
    (h : buildCronFromBasic days timeValue = .ok expr) : trimSpaceStr expr ≠ "" := by
  obtain ⟨-, -, hour, minute, -, rfl⟩ := buildCronFromBasic_ok_iff.mp h
  obtain ⟨c, rest, hdigits⟩ := List.exists_cons_of_ne_nil (Nat.toDigits_ne_nil (b := 10)
    (n := minute))
  have hdigit : c.isDigit = true := Nat.isDigit_of_mem_toDigits (b := 10) (n := minute)
    (by decide) (by decide) (hdigits ▸ List.mem_cons_self ..)
  have hspace : isSpace c = false := ascii_forall
    (p := fun c => c.isDigit = true → isSpace c = false) (by decide)
    (toNat_lt_of_isDigit hdigit) hdigit
  obtain ⟨tail, htail⟩ : ∃ tail, (basicText days.dedup hour minute).toList = c :: tail := by
    simp only [basicText, String.toList_append, Nat.toString_eq_repr, Nat.toList_repr, hdigits,
      List.cons_append]
    exact ⟨_, rfl⟩
  intro hblank
  have hhead := head?_trim isSpace (c :: tail)
  have hnil : trimSpace (c :: tail) = [] := by
    rw [← htail, ← String.toList_ofList (l := trimSpace _)]
    exact congrArg String.toList hblank
  rw [trimSpace] at hnil
  rw [hnil, List.dropWhile_cons, hspace] at hhead
  cases hhead

variable {cfg : StoredConfig}

/-- The preview of a basic plan. -/
theorem preview_basic {basic : SchedulerBasic}
    (hmode : trimSpaceStr cfg.schedulerPlan.mode = schedulerModeBasic)
    (hbasic : cfg.schedulerPlan.basic = some basic)
    (htime : trimSpaceStr basic.time = basic.time) (raw : String) :
    ∃ reply, handleSchedulerPreviewBasic lib text "GET" (planQuery cfg.schedulerPlan raw) now
        replied = some reply ∧
      Previews lib text now reply (buildSchedulerPlan lib.parseError cfg) := by
  have hplan : buildSchedulerPlan lib.parseError cfg =
      match buildCronFromBasic basic.days basic.time with
      | .error err => .error err
      | .ok expr => .ok { mode := schedulerModeBasic, expr := expr, interval := 0 } := by
    have hset : ¬ schedulerModeBasic = "" := by decide
    have hlegacy : ¬ schedulerModeBasic = schedulerModeLegacy := by decide
    rcases hcron : buildCronFromBasic basic.days basic.time with err | expr
    all_goals
      simp only [buildSchedulerPlan, hmode, if_neg hset, if_neg hlegacy, hbasic, if_true, hcron]
  have hdays : planQuery cfg.schedulerPlan raw "days" = joinDays basic.days := by
    rw [planQuery, hbasic]
    rfl
  have hclock : trimSpaceStr (planQuery cfg.schedulerPlan raw "time") = basic.time := by
    rw [planQuery, hbasic]
    exact htime
  rw [handleSchedulerPreviewBasic, if_neg (by decide), hdays, hclock, hplan]
  dsimp only
  by_cases hnil : basic.days = []
  · have hnone : buildCronFromBasic basic.days basic.time = .error "select at least one day" := by
      rw [buildCronFromBasic, if_pos hnil]
    have hparse : parseDaysParam (trimSpaceStr (joinDays basic.days)) =
        .error "select at least one day" := by
      rw [hnil]
      rfl
    rw [hnone, hparse]
    exact ⟨_, rfl, previews_error _⟩
  rw [parseDaysParam_joinDays hnil]
  dsimp only
  cases hexpr : buildCronFromBasic basic.days basic.time with
  | error err => exact ⟨_, rfl, previews_error err⟩
  | ok expr =>
      exact ⟨_, rfl, previews_runs ⟨schedulerModeBasic, expr, 0⟩
        (trimSpaceStr_ne_of_basic hexpr) _⟩

/-- The preview of a cron plan. -/
theorem preview_cron (hmode : trimSpaceStr cfg.schedulerPlan.mode = schedulerModeCron)
    (raw : String) :
    ∃ reply, handleSchedulerPreviewCron lib text "GET" (planQuery cfg.schedulerPlan raw) now
        replied = some reply ∧
      Previews lib text now reply (buildSchedulerPlan lib.parseError cfg) := by
  have hset : ¬ schedulerModeCron = "" := by decide
  have hlegacy : ¬ schedulerModeCron = schedulerModeLegacy := by decide
  have hbasic : ¬ schedulerModeCron = schedulerModeBasic := by decide
  rw [handleSchedulerPreviewCron, if_neg (by decide)]
  refine ⟨_, rfl, ?_⟩
  simp only [buildSchedulerPlan, hmode, if_neg hset, if_neg hlegacy, if_neg hbasic, if_true]
  cases hcron : cfg.schedulerPlan.cron with
  | none =>
      have hexpr : trimSpaceStr (planQuery cfg.schedulerPlan raw "expr") = "" := by
        rw [planQuery, hcron]
        rfl
      rw [hexpr, nextRunsFromCron, if_pos (by rfl)]
      exact previews_error _
  | some cron =>
      have hexpr : trimSpaceStr (planQuery cfg.schedulerPlan raw "expr") =
          trimSpaceStr cron.expr := by
        rw [planQuery, hcron]
        rfl
      rw [hexpr]
      dsimp only
      by_cases hblank : trimSpaceStr cron.expr = ""
      · rw [if_pos hblank, hblank, nextRunsFromCron, if_pos (by rfl)]
        exact previews_error _
      rw [if_neg hblank, SchedulerLib.parseError]
      have hkept : trimSpaceStr (trimSpaceStr cron.expr) ≠ "" := by
        rwa [trimSpaceStr_trimSpaceStr]
      cases hparse : lib.parse (trimSpaceStr cron.expr) with
      | error err =>
          rw [nextRunsFromCron, if_neg hkept, hparse]
          exact previews_error _
      | ok sched => exact previews_runs ⟨schedulerModeCron, _, 0⟩ hkept raw

end

/-- **Previews of plans.** For every configuration with a basic or a cron plan, the preview of the
plan has the error for which the scheduler would refuse it, or else lists the instants of the
schedule that the scheduler would follow. -/
theorem preview_planned (lib : SchedulerLib) (text : PreviewText) (now replied : ℕ)
    (cfg : StoredConfig) (raw : String) :
    (trimSpaceStr cfg.schedulerPlan.mode = schedulerModeBasic →
      ∀ basic, cfg.schedulerPlan.basic = some basic → trimSpaceStr basic.time = basic.time →
      ∃ reply, handleSchedulerPreviewBasic lib text "GET" (planQuery cfg.schedulerPlan raw) now
          replied = some reply ∧
        Previews lib text now reply (buildSchedulerPlan lib.parseError cfg)) ∧
    (trimSpaceStr cfg.schedulerPlan.mode = schedulerModeCron →
      ∃ reply, handleSchedulerPreviewCron lib text "GET" (planQuery cfg.schedulerPlan raw) now
          replied = some reply ∧
        Previews lib text now reply (buildSchedulerPlan lib.parseError cfg)) := by
  exact ⟨fun hmode basic hbasic htime => preview_basic hmode hbasic htime raw,
    fun hmode => preview_cron hmode raw⟩

/-- The schedule of every minute. -/
def everyMinute : Schedule where
  Matches := fun t => GoTime.minute ∣ t
  horizon := fun t => t + 5 * 366 * 24 * GoTime.hour
  next := fun t => (t / GoTime.minute + 1) * GoTime.minute
  next_spec := by
    intro t
    have hpos : 0 < GoTime.minute := by decide
    have hlater : t < (t / GoTime.minute + 1) * GoTime.minute :=
      Nat.lt_mul_of_div_lt (Nat.lt_succ_self _) hpos
    refine Or.inl ⟨⟨hlater, ?_, dvd_mul_left ..⟩, ?_⟩
    · have hnear := Nat.div_mul_le_self t GoTime.minute
      have hhour : GoTime.minute ≤ 5 * 366 * 24 * GoTime.hour := by decide
      rw [Nat.succ_mul]
      exact Nat.add_le_add hnear hhour
    · rintro u ⟨hu, -, k, rfl⟩
      rw [Nat.mul_comm GoTime.minute k] at hu ⊢
      exact Nat.mul_le_mul_right _ (Nat.div_lt_of_lt_mul (by rwa [Nat.mul_comm]))

/-- A library that knows this schedule. -/
def minuteScheduler : SchedulerLib where
  parse expr := if expr = "* * * * *" then .ok everyMinute else .error "expected exactly 5 fields"
  durationString _ := "5m0s"

/-- The texts of the first minutes of the first year. -/
def firstMinutes : PreviewText where
  zone := "UTC"
  format t := "0001-01-01T00:0" ++ toString (t / GoTime.minute) ++ ":00Z"

/-- The defaults with the scheduler enabled, for a scan every minute. -/
def scanEveryMinute : StoredConfig :=
  { defaultConfig with
    schedulerEnabled := true
    schedulerPlan := { mode := "cron", basic := none, cron := some { expr := " * * * * * " } } }

/-- The defaults with a basic plan for a day that no week has. -/
def scanOnDayEight : StoredConfig :=
  { defaultConfig with
    schedulerEnabled := true
    schedulerPlan := { mode := "basic", basic := some { days := [1, 8], time := "03:05" }
                       cron := none } }

/-- A cron and a basic plan of their own previews. -/
theorem preview_planned_samples :
    (∃ reply, handleSchedulerPreviewCron minuteScheduler firstMinutes "GET"
        (planQuery scanEveryMinute.schedulerPlan "3") 1 2 = some reply ∧
      Previews minuteScheduler firstMinutes 1 reply
        (buildSchedulerPlan minuteScheduler.parseError scanEveryMinute)) ∧
    ∃ reply, handleSchedulerPreviewBasic minuteScheduler firstMinutes "GET"
        (planQuery scanOnDayEight.schedulerPlan "3") 1 2 = some reply ∧
      Previews minuteScheduler firstMinutes 1 reply (.error "invalid day: 8") := by
  have hplan : buildSchedulerPlan minuteScheduler.parseError scanOnDayEight =
      .error "invalid day: 8" := by
    decide
  refine ⟨(preview_planned minuteScheduler firstMinutes 1 2 scanEveryMinute "3").2
    (by decide), ?_⟩
  rw [← hplan]
  exact (preview_planned minuteScheduler firstMinutes 1 2 scanOnDayEight "3").1
    (by decide) _ rfl (by decide)

/-! ### Previews and loops -/

/-- What the loop `i` published, oldest first. -/
def publishedBy (i : ℕ) (es : List SchedulerEvent) : List ℕ :=
  es.filterMap fun
    | .loop j (.publish next) => if j = i then some next else none
    | _ => none

/-- What the variables of a loop hold, when it has published `runs`. -/
def RunsOk (sched : Schedule) (runs : List ℕ) (l : SchedLoop) : Prop :=
  runs = sched.fires l.startedAt runs.length ∧
    match l.phase with
    | .created => runs = []
    | .planning prev _ => prev = runs.getLastD l.startedAt
    | .publishing next => next = sched.next (runs.getLastD l.startedAt)
    | .arming next => next = runs.getLastD l.startedAt
    | .waiting next _ => next = runs.getLastD l.startedAt
    | .scanning tick => tick = runs.getLastD l.startedAt
    | .returned => True

/-- What one loop publishes adds up. -/
theorem publishedBy_snoc (i : ℕ) (es : List SchedulerEvent) (e : SchedulerEvent) :
    publishedBy i (es ++ [e]) = publishedBy i es ++ publishedBy i [e] :=
  List.filterMap_append

/-- A loop takes a step. -/
theorem RunsOk.step {lib : SchedulerLib} {now : ℕ} {sched : Schedule} {runs : List ℕ} {i : ℕ}
    {l l' : SchedLoop} {e : LoopEvent} (h : RunsOk sched runs l) (hstep : LoopStep lib now l e l')
    (hcron : l.IsCron) (hparse : lib.parse l.plan.expr = .ok sched) :
    RunsOk sched (runs ++ publishedBy i [.loop i e]) l' := by
  obtain ⟨hruns, hphase⟩ := h
  have hsilent : (∀ next, e ≠ .publish next) → runs ++ publishedBy i [.loop i e] = runs := by
    intro he
    cases e with
    | publish next => exact absurd rfl (he next)
    | _ => exact List.append_nil runs
  cases hstep with
  | beginInterval _ hmode => exact absurd hmode hcron
  | beginCron hp _ _ =>
      rw [hp] at hphase
      obtain rfl : runs = [] := hphase
      exact ⟨rfl, rfl⟩
  | beginFails _ _ herr => cases herr.symm.trans hparse
  | planInterval _ hmode => exact absurd hmode hcron
  | planCron hp _ hparse' =>
      obtain rfl : sched = _ := Except.ok.inj (hparse.symm.trans hparse')
      rw [hp] at hphase
      obtain rfl := hphase
      rw [hsilent nofun]
      exact ⟨hruns, rfl⟩
  | @publish next hp =>
      rw [hp] at hphase
      have hnew : publishedBy i [.loop i (.publish next)] = [next] := by simp [publishedBy]
      rw [hnew]
      refine ⟨?_, (List.getLastD_concat ..).symm⟩
      rw [List.length_append, List.length_singleton, Schedule.fires_succ, ← hruns, ← hphase]
  | arm hp =>
      rw [hp] at hphase
      rw [hsilent nofun]
      exact ⟨hruns, hphase⟩
  | fire hp _ =>
      rw [hp] at hphase
      rw [hsilent nofun]
      exact ⟨hruns, hphase⟩
  | stop _ _ =>
      rw [hsilent nofun]
      exact ⟨hruns, trivial⟩
  | scanned hp =>
      rw [hp] at hphase
      rw [hsilent nofun]
      exact ⟨hruns, hphase⟩

/-- The loop `i` of `t` is a new one, or that of `s`, up to its context. -/
def Grown (s t : SchedulerState) : Prop :=
  s.loops.length ≤ t.loops.length ∧ ∀ (i : ℕ) (l : SchedLoop), t.loops[i]? = some l →
    (s.loops.length ≤ i ∧ l.phase = .created) ∨
      ∃ cancelled, s.loops[i]? = some { l with cancelled := cancelled }

/-- Cancelling adds no loop and takes none away. -/
theorem grown_cancelLoop (s : SchedulerState) : s.cancelLoop.length = s.loops.length ∧
    ∀ (i : ℕ) (l : SchedLoop), s.cancelLoop[i]? = some l →
      ∃ cancelled, s.loops[i]? = some { l with cancelled := cancelled } := by
  rw [SchedulerState.cancelLoop]
  cases s.cancel with
  | none => exact ⟨rfl, fun i l hloop => ⟨l.cancelled, hloop⟩⟩
  | some k =>
      refine ⟨List.length_modify .., fun i l hloop => ?_⟩
      by_cases hk : k = i
      · subst hk
        rw [List.getElem?_modify_eq] at hloop
        obtain ⟨l₀, hl₀, rfl⟩ := Option.map_eq_some_iff.mp hloop
        exact ⟨l₀.cancelled, hl₀⟩
      · rw [List.getElem?_modify_ne _ _ hk] at hloop
        exact ⟨l.cancelled, hloop⟩

/-- An update of the scheduler keeps the loops, and does nothing or ends what was being written. -/
theorem grown_update (lib : SchedulerLib) (cfg : StoredConfig) (s : SchedulerState) :
    Grown s (updateSchedulerLocked lib cfg s) ∧
      (updateSchedulerLocked lib cfg s = s ∨ (updateSchedulerLocked lib cfg s).writer = none) := by
  obtain ⟨hlength, hcancel⟩ := grown_cancelLoop s
  rcases updateSchedulerLocked_cases lib cfg s with hsame | hdisable | ⟨plan, parentDone, hlaunch⟩
  · rw [hsame]
    exact ⟨⟨le_rfl, fun i l hloop => Or.inr ⟨l.cancelled, hloop⟩⟩, Or.inl rfl⟩
  · rw [hdisable]
    exact ⟨⟨hlength.ge, fun i l hloop => Or.inr (hcancel i l hloop)⟩, Or.inr rfl⟩
  · rw [hlaunch]
    refine ⟨⟨?_, fun i l hloop => ?_⟩, Or.inr rfl⟩
    · simp [SchedulerState.launch, hlength]
    · rcases Slots.of_append hloop with ⟨hi, rfl⟩ | hold
      · exact Or.inl ⟨(hi.trans hlength).ge, rfl⟩
      · exact Or.inr (hcancel i l hold)

/-- What the loops published, in a history that leads to `s`. -/
structure RunsInv (lib : SchedulerLib) (es : List SchedulerEvent) (s : SchedulerState) : Prop where
  unborn : ∀ i, s.loops.length ≤ i → publishedBy i es = []
  loops : ∀ (i : ℕ) (l : SchedLoop) (sched : Schedule), s.loops[i]? = some l → l.IsCron →
    lib.parse l.plan.expr = .ok sched → RunsOk sched (publishedBy i es) l
  status : ∀ i, s.writer = some i → (publishedBy i es).getLast? = some s.nextRun

/-- The scheduler starts within the invariant. -/
theorem runsInv_new (lib : SchedulerLib) (start : ℕ) :
    RunsInv lib [] (SchedulerState.new start) where
  unborn := fun _ _ => rfl
  loops := fun i l sched h => absurd h (by simp [SchedulerState.new])
  status := fun i h => absurd h (by simp [SchedulerState.new])

variable {lib : SchedulerLib}

/-- A step that is not one of a loop. -/
theorem RunsInv.quiet {es : List SchedulerEvent} {s t : SchedulerState} {e : SchedulerEvent}
    (h : RunsInv lib es s) (hgrown : Grown s t) (he : ∀ i, publishedBy i [e] = [])
    (hstatus : t.writer = none ∨ t.writer = s.writer ∧ t.nextRun = s.nextRun) :
    RunsInv lib (es ++ [e]) t := by
  have hsame : ∀ i, publishedBy i (es ++ [e]) = publishedBy i es := fun i => by
    rw [publishedBy_snoc, he, List.append_nil]
  refine ⟨fun i hi => ?_, fun i l sched hloop hcron hparse => ?_, fun i hi => ?_⟩
  · rw [hsame]
    exact h.unborn i (hgrown.1.trans hi)
  · rw [hsame]
    rcases hgrown.2 i l hloop with ⟨hi, hcreated⟩ | ⟨cancelled, hold⟩
    · rw [h.unborn i hi]
      refine ⟨rfl, ?_⟩
      rw [hcreated]
    · have hruns := h.loops i _ sched hold
      exact hruns hcron hparse
  · rw [hsame]
    rcases hstatus with hnone | ⟨hwriter, hnext⟩
    · cases hnone.symm.trans hi
    · rw [hnext]
      exact h.status i (hwriter ▸ hi)

/-- A step of the loop `i`. -/
theorem RunsInv.act {es : List SchedulerEvent} {s : SchedulerState} {i : ℕ} {l l' : SchedLoop}
    {e : LoopEvent} (h : RunsInv lib es s) (hloop : s.loops[i]? = some l)
    (hact : LoopStep lib s.clock l e l') :
    RunsInv lib (es ++ [.loop i e]) { s.record i l e with loops := s.loops.set i l' } := by
  have hother : ∀ j, j ≠ i → publishedBy j (es ++ [.loop i e]) = publishedBy j es := by
    intro j hj
    rw [publishedBy_snoc]
    cases e <;> simp [publishedBy, Ne.symm hj]
  refine ⟨fun j hj => ?_, fun j l₁ sched hl₁ hcron hparse => ?_, fun j hj => ?_⟩
  · rw [List.length_set] at hj
    have hlt := (List.getElem?_eq_some_iff.mp hloop).1
    rw [hother j (hlt.trans_le hj).ne']
    exact h.unborn j hj
  · rcases Slots.of_set hloop hl₁ with ⟨rfl, rfl⟩ | ⟨hj, hold⟩
    · rw [publishedBy_snoc]
      have hplan := hact.frame.1
      rw [SchedLoop.IsCron, hplan] at hcron
      rw [hplan] at hparse
      exact (h.loops j l sched hloop hcron hparse).step hact hcron hparse
    · rw [hother j hj]
      exact h.loops j l₁ sched hold hcron hparse
  · by_cases hpublish : ∃ next, e = .publish next
    · obtain ⟨next, rfl⟩ := hpublish
      obtain rfl : i = j := Option.some.inj hj
      rw [publishedBy_snoc]
      simp [publishedBy, SchedulerState.record]
    · rw [not_exists] at hpublish
      have hrecord := status_record (s := s) (i := i) (l := l) hpublish
      have hsilent : publishedBy j (es ++ [.loop i e]) = publishedBy j es := by
        rw [publishedBy_snoc]
        cases e with
        | publish next => exact absurd rfl (hpublish next)
        | _ => exact List.append_nil _
      rw [hsilent]
      exact (h.status j (hrecord.1 ▸ hj)).trans (congrArg some hrecord.2.2.symm)

/-- A step keeps the invariant. -/
theorem RunsInv.step {es : List SchedulerEvent} {s t : SchedulerState} {e : SchedulerEvent}
    (h : RunsInv lib es s) (hstep : SchedulerStep lib s e t) : RunsInv lib (es ++ [e]) t := by
  cases hstep with
  | advance _ =>
      exact h.quiet ⟨le_rfl, fun i l hloop => Or.inr ⟨l.cancelled, hloop⟩⟩ (fun _ => rfl)
        (Or.inr ⟨rfl, rfl⟩)
  | shutdown _ =>
      refine h.quiet ⟨(List.length_map ..).ge, fun i l hloop => Or.inr ?_⟩ (fun _ => rfl)
        (Or.inr ⟨rfl, rfl⟩)
      rw [List.getElem?_map] at hloop
      obtain ⟨l₀, hl₀, rfl⟩ := Option.map_eq_some_iff.mp hloop
      exact ⟨l₀.cancelled, hl₀⟩
  | @start cfg _ =>
      obtain ⟨hgrown, hwriter⟩ := grown_update lib cfg { s with parent := some false }
      refine h.quiet hgrown (fun _ => rfl) (hwriter.symm.imp_right fun hsame => ?_)
      rw [startScheduler, hsame]
      exact ⟨rfl, rfl⟩
  | @update cfg =>
      obtain ⟨hgrown, hwriter⟩ := grown_update lib cfg s
      refine h.quiet hgrown (fun _ => rfl) (hwriter.symm.imp_right fun hsame => ?_)
      rw [hsame]
      exact ⟨rfl, rfl⟩
  | loop hloop hact => exact h.act hloop hact

/-- A preview that lists runs. -/
theorem runs_of_nextRunsFromCron {text : PreviewText} {now : ℕ} {expr : String} {count : ℤ}
    {runs : List String} (h : nextRunsFromCron lib text now expr count = .ok runs) :
    ∃ sched n, lib.parse expr = .ok sched ∧ runs = (sched.fires now n).map text.format := by
  rw [nextRunsFromCron] at h
  by_cases hblank : trimSpaceStr expr = ""
  · rw [if_pos hblank] at h
    cases h
  rw [if_neg hblank] at h
  cases hparse : lib.parse expr with
  | error err =>
      rw [hparse] at h
      cases h
  | ok sched =>
      rw [hparse] at h
      exact ⟨sched, _, rfl, (Except.ok.inj h).symm⟩

/-- **Previews and loops.** In every run of the scheduler, however long scans take and whatever
plans come and go, the instants that a loop publishes are those of the preview of its expression
at the time the loop started, as far as both go. The status that the loop wrote shows the last of
them. -/
theorem run_previewed (text : PreviewText) {start : ℕ} {es : List SchedulerEvent}
    {q : SchedulerState} (hrun : Run (SchedulerStep lib) (SchedulerState.new start) es q)
    {i : ℕ} {l : SchedLoop} (hloop : q.loops[i]? = some l) (hcron : l.IsCron) :
    (∀ count runs, nextRunsFromCron lib text l.startedAt l.plan.expr count = .ok runs →
      ((publishedBy i es).map text.format).take runs.length =
        runs.take (publishedBy i es).length) ∧
    (q.writer = some i → ∀ query reply,
      handleSchedulerStatus text "GET" query q = some reply →
        ∃ last, (publishedBy i es).getLast? = some last ∧
          reply.nextRuns =
            if q.enabled ∧ last ≠ 0 then some [text.format last] else none) := by
  have hinv : RunsInv lib es q :=
    hrun.invariant (RunsInv lib) (runsInv_new lib start) RunsInv.step
  refine ⟨fun count runs hruns => ?_, fun hwriter query reply hreply => ?_⟩
  · obtain ⟨sched, n, hparse, rfl⟩ := runs_of_nextRunsFromCron hruns
    have hfires := (hinv.loops i l sched hloop hcron hparse).1
    rw [hfires, ← List.map_take, ← List.map_take, List.length_map, Schedule.length_fires,
      Schedule.length_fires, Schedule.take_fires_comm]
  · rw [handleSchedulerStatus, if_neg (by decide)] at hreply
    obtain rfl := Option.some.inj hreply
    have hcount : 0 < parsePreviewCount (query "count") :=
      Int.lt_of_lt_of_le Int.zero_lt_one (parsePreviewCount_mem _).1
    exact ⟨q.nextRun, hinv.status i hwriter, by simp only [hcount, and_true]⟩

/-- The scheduler after the second scan of this plan was planned. -/
def minuteScheduled : SchedulerState :=
  (drive minuteScheduler [.start scanEveryMinute, .loop 0, .loop 0, .loop 0, .loop 0,
    .clock GoTime.minute, .loop 0, .clock (5 * GoTime.minute), .loop 0, .loop 0, .loop 0]
    (SchedulerState.new 1)).getD (SchedulerState.new 1)

/-- The sample: a plan for each minute, two of its ticks. -/
theorem drive_minuteScheduled :
    drive minuteScheduler [.start scanEveryMinute, .loop 0, .loop 0, .loop 0, .loop 0,
      .clock GoTime.minute, .loop 0, .clock (5 * GoTime.minute), .loop 0, .loop 0, .loop 0]
      (SchedulerState.new 1) = some minuteScheduled := by
  decide

/-- What it publishes is what the preview foretold. -/
theorem run_previewed_every_minute :
    ∃ es, Run (SchedulerStep minuteScheduler) (SchedulerState.new 1) es minuteScheduled ∧
      ((publishedBy 0 es).map firstMinutes.format).take 2 =
        ["0001-01-01T00:01:00Z", "0001-01-01T00:02:00Z"].take (publishedBy 0 es).length := by
  obtain ⟨es, hrun⟩ := run_of_drive drive_minuteScheduled
  have hloop : minuteScheduled.loops[0]? = some
      { plan := { mode := "cron", expr := "* * * * *", interval := 0 }, cancelled := false
        phase := .arming (2 * GoTime.minute), startedAt := 1
        published := some (2 * GoTime.minute) } := by
    decide
  have hcron : "cron" ≠ schedulerModeLegacy := by decide
  exact ⟨es, hrun, (run_previewed firstMinutes hrun hloop hcron).1 2
    ["0001-01-01T00:01:00Z", "0001-01-01T00:02:00Z"] (by decide)⟩

end Contiwatch
