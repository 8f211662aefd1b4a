import Contiwatch.ConfigHandlers

/-!
# Checks of Scheduler Plans

`PUT /api/config` may store any plan while it leaves the scheduler disabled. When it enables the
scheduler it checks the plan first: its own, or, if it has none, the stored one as it was when
the request read the configuration. The update then keeps whatever plan is stored by that time.

## Main results

* `planValid_update_iff` — what an update needs to leave no enabled scheduler with a plan that
  cannot be built.
* `run_plans_iff` — over any interleaving of requests, no scheduler is enabled with such a plan
  exactly as long as every request that enables it without a plan of its own does so while the
  stored plan can be built.
* `plan_can_turn_invalid` — a plan stored in between can be enabled unchecked.
-/

namespace Contiwatch

open GoJson

section

variable (lib : Libraries)

/-- An enabled scheduler has a plan that can be built. -/
def PlanValid (cfg : StoredConfig) : Prop :=
  cfg.schedulerEnabled = true → planAccepted lib.parseCron cfg = true

instance (cfg : StoredConfig) : Decidable (PlanValid lib cfg) :=
  inferInstanceAs (Decidable (_ → _))

/-- A request that enables the scheduler and has no plan makes its update while the stored plan
can be built. -/
def StoredPlanAccepted (s : Store) : SettingsEvent → Prop
  | .op (.putConfig body) (.update _) _ => ∀ payload, putPayload lib body = .ok payload →
      payload.schedulerEnabled = true → shouldApplySchedulerPlan payload = false →
      planAccepted lib.parseCron s.config = true
  | _ => True

variable {lib}

/-- A request that enables the scheduler with a plan of its own has checked this plan. -/
theorem planAccepted_of_scheduleError {before payload cfg : StoredConfig}
    (h : scheduleError lib before payload = none) (henabled : payload.schedulerEnabled = true)
    (happly : shouldApplySchedulerPlan payload = true)
    (hcfg : cfg.schedulerPlan = payload.schedulerPlan) :
    planAccepted lib.parseCron cfg = true := by
  have hplan : cfg.schedulerPlan = (validateCfg before payload).schedulerPlan := by
    rw [validateCfg, if_pos happly, hcfg]
  rw [planAccepted_eq lib.parseCron hplan, planAccepted]
  rw [scheduleError, henabled, Bool.true_or, if_pos rfl] at h
  rcases hbuild : buildSchedulerPlan lib.parseCron (validateCfg before payload) with err | plan
  · rw [hbuild] at h
    cases h
  · rfl

/-- Requests for servers leave the scheduler and its plan alone. -/
theorem planValid_of_same_plan {cfg cfg' : StoredConfig} (h : PlanValid lib cfg)
    (henabled : cfg'.schedulerEnabled = cfg.schedulerEnabled)
    (hplan : cfg'.schedulerPlan = repairPlan cfg.schedulerPlan) : PlanValid lib cfg' := by
  intro hon
  rw [planAccepted_repairPlan lib.parseCron hplan]
  exact h (henabled.symm.trans hon)

/-- One update leaves no enabled scheduler with a plan that cannot be built exactly if it meets
the condition. -/
theorem planValid_update_iff {req : SettingsRequest} {before : StoredConfig}
    {f : StoredConfig → StoredConfig} {s : Store} {r : StoredConfig × Option WriteStep}
    (hcommits : Commits lib req before f) (h : PlanValid lib s.config) :
    PlanValid lib (normalizeUpdated (f s.config)) ↔
      StoredPlanAccepted lib s (.op req (.update f) r) := by
  obtain ⟨body, payload, rfl, hpayload, hschedule, rfl⟩ | ⟨hreq, hservers⟩ :=
    commits_cases lib hcommits
  · have hrepaired : planAccepted lib.parseCron
        (normalizeUpdated (applyPayload before payload s.config)) =
        planAccepted lib.parseCron (applyPayload before payload s.config) :=
      planAccepted_repairPlan lib.parseCron (schedulerPlan_normalizeUpdated _)
    have hcond : StoredPlanAccepted lib s
        (.op (.putConfig body) (.update (applyPayload before payload)) r) ↔
        (payload.schedulerEnabled = true → shouldApplySchedulerPlan payload = false →
          planAccepted lib.parseCron s.config = true) := forall_payload_iff hpayload
    rw [PlanValid, schedulerEnabled_normalizeUpdated, schedulerEnabled_applyPayload, hrepaired,
      hcond]
    refine imp_congr_right fun henabled => ?_
    rcases happly : shouldApplySchedulerPlan payload with _ | _
    · -- the stored plan stays
      have hplan : (applyPayload before payload s.config).schedulerPlan =
          s.config.schedulerPlan := by
        rw [schedulerPlan_applyPayload, happly, if_neg Bool.false_ne_true]
      rw [planAccepted_eq lib.parseCron hplan]
      simp
    · -- the plan of the request, which was checked
      refine iff_of_true ?_ (by simp)
      exact planAccepted_of_scheduleError hschedule henabled happly
        (by rw [schedulerPlan_applyPayload, if_pos happly])
  · obtain ⟨locals, remotes, hf⟩ := hservers s.config
    rw [hf]
    refine iff_of_true (planValid_of_same_plan h rfl rfl) ?_
    cases req with
    | putConfig body => exact absurd rfl (hreq body)
    | _ => trivial

/-- **Plans over runs.** From a configuration with the scheduler disabled, the runs in which no
scheduler is ever enabled with a plan that cannot be built are exactly those in which every
request that enables it without a plan of its own does so while the stored plan can be built. -/
theorem run_plans_iff {s : Store} {es : List SettingsEvent} {q : SettingsPool}
    (h0 : s.config.schedulerEnabled = false) :
    Run (fun p e q => settingsStep lib p e q ∧ PlanValid lib q.state.config) ⟨s, []⟩ es q ↔
      Run (fun p e q => settingsStep lib p e q ∧ StoredPlanAccepted lib p.state e)
        ⟨s, []⟩ es q := by
  have hvalid : PlanValid lib s.config := fun hon =>
    absurd (h0.symm.trans hon) Bool.false_ne_true
  refine run_config_iff (fun _ _ => trivial) (fun _ req _ => ?_) planValid_update_iff hvalid
  cases req <;> trivial

/-! ### A plan stored in between -/

/-- `PUT /api/config` that enables the scheduler and has no plan. -/
def enableScheduler : SettingsRequest :=
  .putConfig (some (.obj [("scheduler_enabled", .bool true)]))

/-- `PUT /api/config` that stores a cron expression nobody can read. -/
def storeBrokenPlan : SettingsRequest :=
  .putConfig (some (.obj [("scheduler_plan",
    .obj [("mode", .str "cron"), ("cron", .obj [("expr", .str "every night")])])]))

/-- The payload of `enableScheduler`. -/
def enablePayload : StoredConfig := { zeroConfig with schedulerEnabled := true }

/-- The payload of `storeBrokenPlan`. -/
def brokenPayload : StoredConfig :=
  { zeroConfig with
    schedulerPlan := { mode := "cron", basic := none, cron := some { expr := "every night" } } }

/-- The first sample request switches the scheduler on. -/
theorem commits_enableScheduler :
    Commits sampleLibraries enableScheduler defaultConfig
      (applyPayload defaultConfig enablePayload) :=
  ⟨enablePayload, by decide, by decide, rfl⟩

/-- The second stores a plan that is none. -/
theorem commits_storeBrokenPlan :
    Commits sampleLibraries storeBrokenPlan defaultConfig
      (applyPayload defaultConfig brokenPayload) :=
  ⟨brokenPayload, by decide, by decide, rfl⟩

/-- **A plan can turn invalid.** One client enables the scheduler while another, with the
scheduler still off, stores a plan that cannot be built: the first request checked the plan that
was there before, and the scheduler is enabled with the second. -/
theorem plan_can_turn_invalid :
    (savedStore Char.toLower defaultConfig).config.schedulerEnabled = false ∧
      ∃ es q, Run (settingsStep sampleLibraries) ⟨savedStore Char.toLower defaultConfig, []⟩ es q ∧
        q.state.config.schedulerEnabled = true ∧
        planAccepted sampleLibraries.parseCron q.state.config = false := by
  refine ⟨rfl, ?_⟩
  obtain ⟨es, p, q, hrun, -, hstep, hstate⟩ := run_overtaken
    (s := savedStore Char.toLower defaultConfig) commits_enableScheduler commits_storeBrokenPlan
    (storeSem_update _ noFaults _ _) (storeSem_update _ noFaults _ _)
  refine ⟨_, q, hrun.snoc hstep, ?_⟩
  rw [hstate]
  decide

/-- Alone, the request that enables the scheduler meets the condition, and the scheduler is
enabled with the stored plan. -/
theorem plan_stays_valid_when_enabled :
    (savedStore Char.toLower defaultConfig).config.schedulerEnabled = false ∧
      ∃ es q, Run (fun p e q => settingsStep sampleLibraries p e q ∧
          PlanValid sampleLibraries q.state.config)
          ⟨savedStore Char.toLower defaultConfig, []⟩ es q ∧
        q.state.config.schedulerEnabled = true := by
  have h0 : PlanValid sampleLibraries (savedStore Char.toLower defaultConfig).config := by
    decide
  obtain ⟨es, q, hrun, hstate⟩ := run_request (s := savedStore Char.toLower defaultConfig)
    (C := StoredPlanAccepted sampleLibraries) commits_enableScheduler
    (storeSem_update _ noFaults _ _) trivial trivial
    ((planValid_update_iff commits_enableScheduler h0).mp (by decide))
  refine ⟨rfl, es, q, (run_plans_iff rfl).mpr hrun, ?_⟩
  rw [hstate]
  decide

end

end Contiwatch
