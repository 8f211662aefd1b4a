import Contiwatch.Lib.CronExpr
import Contiwatch.SettingsForm

/-!
# The Migration of Interval Plans

For a stored plan of the legacy mode the page shows a banner with the interval in minutes, and a
button that replaces the plan with a cron expression: `refreshConfig`, `setLegacySchedulerBanner`
and the handler of `schedulerLegacyMigrateBtn` in `src/web/static/app.js`. The server checks the
expression with the cron library and runs by it.

The step of the expression counts within the hour, so that it starts again at every full hour.

## Main results

* `buildSchedulerPlan_migrated` — the plan that the server builds after a click.
* `migrated_every_iff` — the expression fires at the stored interval exactly if that divides the
  hour.
* `migrated_hourly` — an interval of an hour or more becomes an hour.
-/

namespace Contiwatch

open GoStrings Js

/-- How the browser computes with an interval in seconds: `Math.round(Number(x) / 60)` is exact for
whole minutes if the numbers are small. -/
structure BrowserMinutes where
  roundMinutes : ℤ → ℤ
  roundMinutes_safe : ∀ n, |60 * n| ≤ 2 ^ 53 → roundMinutes (60 * n) = n

/-! ### The banner and the button -/

section

variable (b : BrowserMinutes)

/-- `legacyIntervalMinutes`. -/
def legacyIntervalMinutes (cfg : Json) : ℤ :=
  max 1 (b.roundMinutes (Js.number (prop "scan_interval_sec" (some cfg))))

/-- `isLegacyPlan`. -/
def isLegacyPlan (cfg : Json) : Bool :=
  let mode := prop "mode" (prop "scheduler_plan" (some cfg))
  truthy mode && text mode ≠ "basic" && text mode ≠ "cron"

/-- `setLegacySchedulerBanner`: what it leaves in `schedulerLegacyIntervalMinutes`. At zero the
banner is hidden. -/
def setLegacySchedulerBanner (intervalMinutes : ℤ) : ℤ :=
  if intervalMinutes ≤ 0 then 0 else intervalMinutes

/-- `schedulerLegacyIntervalMinutes` after `refreshConfig`. -/
def schedulerLegacyIntervalMinutes (cfg : Json) : ℤ :=
  if isLegacyPlan cfg then setLegacySchedulerBanner (legacyIntervalMinutes b cfg)
  else setLegacySchedulerBanner 0

/-- The expression of the handler of `schedulerLegacyMigrateBtn`. -/
def migrateExpr (minutes : ℤ) : String :=
  "*/" ++ toString (if 0 < minutes then minutes else 15) ++ " * * * *"

/-- The handler of `schedulerLegacyMigrateBtn`. -/
def legacyMigrate (minutes : ℤ) (form : SettingsForm) : SettingsForm :=
  { form with schedulerCron := textInput (migrateExpr minutes), schedulerMode := "cron" }

/-- The form after `refreshConfig` and a click on the button. -/
def migratedForm (nilSlice : Bool) (cfg : Json) (form : SettingsForm) : SettingsForm :=
  legacyMigrate (schedulerLegacyIntervalMinutes b cfg) (refreshConfig nilSlice cfg form)

end

/-! ### The plan that the server builds -/

/-- The parser of the cron library takes the expressions of the grammar, as long as their numbers
are not too long for an integer. -/
def AcceptsGrammar (parseCron : String → Except String Unit) : Prop :=
  ∀ expr : String, expr.length ≤ 20 → (Cron.parse expr.toList).isSome = true →
    parseCron expr = .ok ()

/-- The expression as its fields. -/
theorem toList_migrateExpr {n : ℕ} (hn : 0 < n) : (migrateExpr n).toList =
    [' '].intercalate ['*' :: '/' :: Nat.toDigits 10 n, ['*'], ['*'], ['*'], ['*']] := by
  have htext : toString ((n : ℕ) : ℤ) = n.repr := rfl
  have hpos : (0 : ℤ) < n := Int.natCast_pos.mpr hn
  rw [migrateExpr, if_pos hpos, htext]
  simp only [String.toList_append, Nat.toList_repr, List.intercalate_cons_cons,
    List.intercalate_singleton, List.append_assoc]
  rfl

/-- There is nothing to trim. -/
theorem toList_migrateExpr_ends {n : ℕ} (hn : 0 < n) :
    ∃ cs, (migrateExpr n).toList = '*' :: cs ++ ['*'] := by
  rw [toList_migrateExpr hn]
  exact ⟨'/' :: Nat.toDigits 10 n ++ [' ', '*', ' ', '*', ' ', '*', ' '], by simp⟩

/-- Go has nothing to trim from the migrated expression. -/
theorem trimSpaceStr_migrateExpr {n : ℕ} (hn : 0 < n) :
    trimSpaceStr (migrateExpr n) = migrateExpr n := by
  obtain ⟨cs, hcs⟩ := toList_migrateExpr_ends hn
  rw [trimSpaceStr, hcs, trimSpace, trim_of_ends (by decide) (by decide), ← hcs,
    String.ofList_toList]

/-- Nor has JavaScript. -/
theorem trim_migrateExpr {n : ℕ} (hn : 0 < n) : Js.trim (migrateExpr n) = migrateExpr n := by
  obtain ⟨cs, hcs⟩ := toList_migrateExpr_ends hn
  rw [Js.trim, hcs, trim_of_ends (by decide) (by decide), ← hcs, String.ofList_toList]

/-- The expression has no line breaks. -/
theorem textInput_migrateExpr {n : ℕ} (hn : 0 < n) : textInput (migrateExpr n) = migrateExpr n := by
  have hbreaks : '\n' ∉ (migrateExpr n).toList ∧ '\r' ∉ (migrateExpr n).toList := by
    rw [toList_migrateExpr hn]
    simp [Cron.not_mem_toDigits, List.intercalate_cons_cons]
  have hfilter : (migrateExpr n).toList.filter (fun c => c ≠ '\n' ∧ c ≠ '\r') =
      (migrateExpr n).toList := by
    refine List.filter_eq_self.mpr fun c hc => decide_eq_true ⟨?_, ?_⟩
    · rintro rfl
      exact hbreaks.1 hc
    · rintro rfl
      exact hbreaks.2 hc
  rw [textInput, hfilter, String.ofList_toList]

section

variable (parseCron : String → Except String Unit) (cfg : StoredConfig) (form : SettingsForm)

/-- The plan that the server builds after a click: the expression, if the library takes it. -/
theorem buildSchedulerPlan_migrated {n : ℕ} (hn : 0 < n) :
    buildSchedulerPlan parseCron { cfg with schedulerPlan := sentPlan (legacyMigrate n form) } =
      match parseCron (migrateExpr n) with
      | .error err => .error ("invalid cron: " ++ err)
      | .ok () => .ok ⟨schedulerModeCron, migrateExpr n, 0⟩ := by
  have hplan : sentPlan (legacyMigrate n form) =
      { mode := "cron", basic := none, cron := some ⟨migrateExpr n⟩ } := by
    rw [sentPlan, legacyMigrate, if_pos rfl, textInput_migrateExpr hn, trim_migrateExpr hn]
  have hmode : trimSpaceStr "cron" = schedulerModeCron := by decide
  have hnonempty : ¬ schedulerModeCron = "" := by decide
  have hlegacy : ¬ schedulerModeCron = schedulerModeLegacy := by decide
  have hbasic : ¬ schedulerModeCron = schedulerModeBasic := by decide
  have hexpr : ¬ migrateExpr n = "" := by
    intro hempty
    obtain ⟨cs, hcs⟩ := toList_migrateExpr_ends hn
    cases hcs.symm.trans (congrArg String.toList hempty)
  cases hcron : parseCron (migrateExpr n) <;>
    simp only [buildSchedulerPlan, hplan, hmode, if_neg hnonempty, if_neg hlegacy, if_neg hbasic,
      if_true, trimSpaceStr_migrateExpr hn, if_neg hexpr, hcron]

/-- The expression is accepted, if its number is not too long for the library. -/
theorem migrated_accepted (hparse : AcceptsGrammar parseCron) {n : ℕ} (hn : 0 < n)
    (hlong : n < 10 ^ 10) :
    buildSchedulerPlan parseCron { cfg with schedulerPlan := sentPlan (legacyMigrate n form) } =
      .ok ⟨schedulerModeCron, migrateExpr n, 0⟩ := by
  obtain ⟨e, he, -⟩ := Cron.parse_step hn
  have hdigits : (Nat.toDigits 10 n).length ≤ 10 :=
    (Nat.length_toDigits_le_iff (by decide) (by decide)).mpr hlong
  have hlength : (migrateExpr n).length ≤ 20 := by
    rw [← String.length_toList, toList_migrateExpr hn]
    simp [List.intercalate_cons_cons]
    omega
  have hok : parseCron (migrateExpr n) = .ok () :=
    hparse _ hlength (by rw [toList_migrateExpr hn, he]; rfl)
  rw [buildSchedulerPlan_migrated parseCron cfg form hn, hok]

/-- What the migration is to do: the server accepts the expression, which fires every `n`
minutes. -/
def FiresAsBefore (migrated : SettingsForm) (cal : Cron.Calendar) (n : ℕ) : Prop :=
  ∃ expr e, buildSchedulerPlan parseCron { cfg with schedulerPlan := sentPlan migrated } =
      .ok ⟨schedulerModeCron, expr, 0⟩ ∧
    Cron.parse expr.toList = some e ∧ e.FiresEvery cal n

/-- A step that is the interval wherever that divides the hour. -/
theorem firesAsBefore_iff (hparse : AcceptsGrammar parseCron) {k n : ℕ} (hk : 0 < k) (hn : 0 < n)
    (hkn : n ∣ 60 → k = n) (cal : Cron.Calendar) :
    FiresAsBefore parseCron cfg (legacyMigrate k form) cal n ↔ n ∣ 60 := by
  obtain ⟨e, he, hfires⟩ := Cron.parse_step hk
  rw [← toList_migrateExpr hk] at he
  rw [← Cron.firesEvery_step hn cal hfires hkn]
  constructor
  · rintro ⟨expr, e', hplan, he', hevery⟩
    rw [buildSchedulerPlan_migrated parseCron cfg form hk] at hplan
    split at hplan
    · cases hplan
    · obtain rfl : migrateExpr k = expr := (BuiltPlan.mk.inj (Except.ok.inj hplan)).2.1
      obtain rfl := Option.some.inj (he.symm.trans he')
      exact hevery
  · intro hevery
    have hdvd := (Cron.firesEvery_step hn cal hfires hkn).mp hevery
    have hle : k ≤ 60 := hkn hdvd ▸ Nat.le_of_dvd (by decide) hdvd
    exact ⟨_, e, migrated_accepted parseCron cfg form hparse hk (by omega), he, hevery⟩

end

/-! ### The stored interval -/

section

variable {lib : Libraries} {cfg : StoredConfig} {timeZone : String}

/-- The minutes that the banner shows. -/
theorem banner_minutes (b : BrowserMinutes) {n : ℕ} (hn : 0 < n)
    (hinterval : cfg.scanIntervalSec.toInt = 60 * n)
    (hlegacy : isLegacyPlan (getConfig lib.fold timeZone cfg) = true) :
    ∃ k : ℕ, 0 < k ∧ (60 * n ≤ 2 ^ 53 → k = n) ∧
      schedulerLegacyIntervalMinutes b (getConfig lib.fold timeZone cfg) = k := by
  obtain ⟨hprop, -, -⟩ := @prop_getConfig lib cfg timeZone
  have hone : 1 ≤ max 1 (b.roundMinutes (60 * n)) := le_max_left _ _
  obtain ⟨k, hk⟩ := Int.eq_ofNat_of_zero_le (Int.zero_le_ofNat 1 |>.trans hone)
  have hpos : 0 < k := by omega
  refine ⟨k, hpos, fun hsafe => ?_, ?_⟩
  · have habs : |60 * (n : ℤ)| ≤ 2 ^ 53 := by
      rw [abs_of_nonneg (by omega)]
      exact_mod_cast hsafe
    rw [b.roundMinutes_safe n habs] at hk
    omega
  · rw [schedulerLegacyIntervalMinutes, if_pos hlegacy, legacyIntervalMinutes, hprop,
      Js.number_int, hinterval, setLegacySchedulerBanner, if_neg (by omega), hk]

/-- **Migration.** The expression of the button is accepted and fires at the stored interval exactly
if the interval divides the hour. -/
theorem migrated_every_iff (b : BrowserMinutes) (hparse : AcceptsGrammar lib.parseCron)
    {n : ℕ} (hn : 0 < n) (hinterval : cfg.scanIntervalSec.toInt = 60 * n)
    (hlegacy : isLegacyPlan (getConfig lib.fold timeZone cfg) = true) (nilSlice : Bool)
    (form : SettingsForm) (cal : Cron.Calendar) :
    FiresAsBefore lib.parseCron cfg
        (migratedForm b nilSlice (getConfig lib.fold timeZone cfg) form) cal n ↔ n ∣ 60 := by
  obtain ⟨k, hk, hkn, hbanner⟩ := banner_minutes b hn hinterval hlegacy
  rw [migratedForm, hbanner]
  refine firesAsBefore_iff _ _ _ hparse hk hn (fun hdvd => hkn ?_) cal
  have hle := Nat.le_of_dvd (by decide) hdvd
  omega

/-- An interval of an hour or more becomes an hour, as long as the library takes the number. -/
theorem migrated_hourly (b : BrowserMinutes) (hparse : AcceptsGrammar lib.parseCron)
    {n : ℕ} (hn : 60 ≤ n) (hlong : n < 10 ^ 10) (hinterval : cfg.scanIntervalSec.toInt = 60 * n)
    (hlegacy : isLegacyPlan (getConfig lib.fold timeZone cfg) = true) (nilSlice : Bool)
    (form : SettingsForm) (cal : Cron.Calendar) :
    FiresAsBefore lib.parseCron cfg
      (migratedForm b nilSlice (getConfig lib.fold timeZone cfg) form) cal 60 := by
  obtain ⟨k, hk, hkn, hbanner⟩ := banner_minutes b (by omega) hinterval hlegacy
  obtain rfl := hkn (by omega)
  obtain ⟨e, he, hfires⟩ := Cron.parse_step hk
  rw [← toList_migrateExpr hk] at he
  -- in the field only the full hour is left
  have hhour : ∀ t : Cron.Clock, t.Valid → (e.Fires t ↔ 60 ∣ t.minute) := by
    intro t ht
    rw [hfires t ht, Nat.dvd_iff_mod_eq_zero, Nat.dvd_iff_mod_eq_zero,
      Nat.mod_eq_of_lt (ht.minute.trans_le hn), Nat.mod_eq_of_lt ht.minute]
  rw [migratedForm, hbanner]
  exact ⟨_, e, migrated_accepted lib.parseCron cfg _ hparse hk hlong, he,
    (Cron.firesEvery_step (by decide) cal hhour fun _ => rfl).mpr (Nat.dvd_refl 60)⟩

end

/-! ### Half an hour, and the default -/

/-- A browser that computes without errors. -/
def exactMinutes : BrowserMinutes where
  roundMinutes x := (x + 30) / 60
  roundMinutes_safe n _ := by omega

/-- Libraries with the grammar. -/
def grammarLibraries : Libraries :=
  { sampleLibraries with
    parseCron := fun expr =>
      if (Cron.parse expr.toList).isSome then .ok () else .error "expected exactly 5 fields" }

/-- The sample libraries accept the grammar. -/
theorem acceptsGrammar_grammarLibraries : AcceptsGrammar grammarLibraries.parseCron :=
  fun _ _ h => if_pos h

/-- A calendar of one day. -/
def plainCalendar : Cron.Calendar where
  clock t := ⟨t % 60, t / 60 % 24, 1, 1, 0⟩
  valid t :=
    ⟨Nat.mod_lt _ (by decide), Nat.mod_lt _ (by decide), by simp, by simp, by simp⟩
  minute_eq _ := rfl

/-- A plan of half an hour. -/
def halfHourConfig : StoredConfig := { defaultConfig with scanIntervalSec := 1800 }

/-- Every thirty minutes before and after. -/
theorem migrated_half_hour :
    FiresAsBefore grammarLibraries.parseCron halfHourConfig
      (migratedForm exactMinutes true (getConfig grammarLibraries.fold "UTC" halfHourConfig)
        blankForm) plainCalendar 30 :=
  (migrated_every_iff exactMinutes acceptsGrammar_grammarLibraries (by decide) (by decide)
    (by decide) true blankForm plainCalendar).mpr (by decide)

/-- The default interval, a day, is not kept. -/
theorem migrated_day_not_kept :
    ¬ ∀ (b : BrowserMinutes) (lib : Libraries) (cfg : StoredConfig) (timeZone : String) (n : ℕ),
      AcceptsGrammar lib.parseCron → 0 < n → cfg.scanIntervalSec.toInt = 60 * n →
      isLegacyPlan (getConfig lib.fold timeZone cfg) = true →
      ∀ (nilSlice : Bool) (form : SettingsForm) (cal : Cron.Calendar),
        FiresAsBefore lib.parseCron cfg
          (migratedForm b nilSlice (getConfig lib.fold timeZone cfg) form) cal n := by
  intro h
  have hlegacy : isLegacyPlan (getConfig grammarLibraries.fold "UTC" defaultConfig) = true := by
    decide
  have hday := h exactMinutes grammarLibraries defaultConfig "UTC" 1440
    acceptsGrammar_grammarLibraries (by decide) (by decide) hlegacy true blankForm plainCalendar
  obtain ⟨k, hk, hkn, hbanner⟩ :=
    banner_minutes exactMinutes (n := 1440) (by decide) (by decide) hlegacy
  rw [migratedForm, hbanner] at hday
  have hdvd := (firesAsBefore_iff _ _ _ acceptsGrammar_grammarLibraries hk (by decide)
    (fun _ => hkn (by decide)) plainCalendar).mp hday
  exact absurd hdvd (by decide)

end Contiwatch
