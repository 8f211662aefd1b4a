import Contiwatch.Config
import Contiwatch.Lib.GoJson

/-!
# The Stored Configuration

The configuration of `internal/config/config.go` with all its fields, its defaults, its JSON
form, and the two lists of rules that repair it: the one that `Store.load` applies to what it
read from the file, and the one that `Store.Update` applies to what a request made of the
configuration in memory.

## Main results

* `normalizeLoaded_of_normal` — what `Update` leaves, `load` changes in one way only: an old
  default of the scan interval is replaced by the present one (`migrate`).
-/

namespace Contiwatch

open GoJson

/-! ### Records -/

/-- `RemoteServer` as it is stored. -/
structure RemoteEntry extends RemoteServer where
  publicIP : String
  deriving DecidableEq, Repr

/-- `LocalServer` as it is stored. -/
structure LocalEntry extends LocalServer where
  publicIP : String
  deriving DecidableEq, Repr

/-- `SchedulerBasic`. -/
structure SchedulerBasic where
  days : List Int64
  time : String
  deriving DecidableEq, Repr

/-- `SchedulerCron`. -/
structure SchedulerCron where
  expr : String
  deriving DecidableEq, Repr

/-- `SchedulerPlan`. -/
structure SchedulerPlan where
  mode : String
  basic : Option SchedulerBasic
  cron : Option SchedulerCron
  deriving DecidableEq, Repr

/-- `ExperimentalFeatures`. -/
structure ExperimentalFeatures where
  containers : Bool
  stacksView : Bool
  images : Bool
  volumes : Bool
  networks : Bool
  containerShell : Bool
  containerLogs : Bool
  containerResources : Bool
  containersSidebar : Bool
  deriving DecidableEq, Repr

/-- `Config`, with all fields. -/
structure StoredConfig where
  scanIntervalSec : Int64
  schedulerEnabled : Bool
  schedulerPlan : SchedulerPlan
  globalPolicy : String
  discordWebhookURL : String
  discordNotificationsEnabled : Option Bool
  discordNotifyOnStart : Option Bool
  discordNotifyOnUpdateDetected : Option Bool
  discordNotifyOnContainerUpdated : Option Bool
  updateStoppedContainers : Bool
  pruneDanglingImages : Bool
  timeZone : String
  experimentalFeatures : ExperimentalFeatures
  localServers : List LocalEntry
  remoteServers : List RemoteEntry
  deriving DecidableEq, Repr

/-- `SchedulerModeLegacy`. -/
def schedulerModeLegacy : String := "interval_legacy"

/-- `SchedulerModeBasic`. -/
def schedulerModeBasic : String := "basic"

/-- `SchedulerModeCron`. -/
def schedulerModeCron : String := "cron"

/-- `ExperimentalFeatures{}`. -/
def noFeatures : ExperimentalFeatures :=
  ⟨false, false, false, false, false, false, false, false, false⟩

/-- `DefaultConfig`. -/
def defaultConfig : StoredConfig where
  scanIntervalSec := 60 * 1440
  schedulerEnabled := false
  schedulerPlan := { mode := schedulerModeLegacy, basic := none, cron := none }
  globalPolicy := policyNotifyOnly
  discordWebhookURL := ""
  discordNotificationsEnabled := some false
  discordNotifyOnStart := some false
  discordNotifyOnUpdateDetected := some false
  discordNotifyOnContainerUpdated := some false
  updateStoppedContainers := false
  pruneDanglingImages := false
  timeZone := ""
  experimentalFeatures := noFeatures
  localServers := []
  remoteServers := []

/-! ### JSON -/

section

variable (fold : Char → Char)

/-- The JSON form of `RemoteServer`. -/
def remoteServerCodec : Codec RemoteEntry :=
  structCodec fold { name := "", url := "", token := "", maintenance := false, publicIP := "" }
    [field "name" stringCodec (·.name) fun v t => { t with name := v },
      field "url" stringCodec (·.url) fun v t => { t with url := v },
      field "token" stringCodec (·.token) fun v t => { t with token := v },
      omitempty "public_ip" stringCodec (·.publicIP) (fun v t => { t with publicIP := v })
        fun _ => rfl,
      field "maintenance" boolCodec (·.maintenance) fun v t => { t with maintenance := v }]
    (by simp) (by simp)

/-- The JSON form of `LocalServer`. -/
def localServerCodec : Codec LocalEntry :=
  structCodec fold { name := "", socket := "", maintenance := false, publicIP := "" }
    [field "name" stringCodec (·.name) fun v t => { t with name := v },
      field "socket" stringCodec (·.socket) fun v t => { t with socket := v },
      omitempty "public_ip" stringCodec (·.publicIP) (fun v t => { t with publicIP := v })
        fun _ => rfl,
      field "maintenance" boolCodec (·.maintenance) fun v t => { t with maintenance := v }]
    (by simp) (by simp)

/-- The JSON form of `SchedulerBasic`. -/
def schedulerBasicCodec : Codec SchedulerBasic :=
  structCodec fold { days := [], time := "" }
    [field "days" (sliceCodec intCodec) (·.days) fun v t => { t with days := v },
      field "time" stringCodec (·.time) fun v t => { t with time := v }]
    (by simp) (by simp)

/-- The JSON form of `SchedulerCron`. -/
def schedulerCronCodec : Codec SchedulerCron :=
  structCodec fold { expr := "" }
    [field "expr" stringCodec (·.expr) fun v t => { t with expr := v }]
    (by simp) (by simp)

/-- A basic plan is never written as `null`. -/
theorem schedulerBasicCodec_ne_null (basic : SchedulerBasic) :
    (schedulerBasicCodec fold).encode basic ≠ .null := structCodec_ne_null fold basic

/-- Nor is a cron plan. -/
theorem schedulerCronCodec_ne_null (cron : SchedulerCron) :
    (schedulerCronCodec fold).encode cron ≠ .null := structCodec_ne_null fold cron

/-- The JSON form of `SchedulerPlan`. -/
def schedulerPlanCodec : Codec SchedulerPlan :=
  structCodec fold { mode := "", basic := none, cron := none }
    [field "mode" stringCodec (·.mode) fun v t => { t with mode := v },
      omitempty "basic"
        (ptrCodec (schedulerBasicCodec fold) (schedulerBasicCodec_ne_null fold)) (·.basic)
        (fun v t => { t with basic := v }) fun _ => rfl,
      omitempty "cron"
        (ptrCodec (schedulerCronCodec fold) (schedulerCronCodec_ne_null fold)) (·.cron)
        (fun v t => { t with cron := v }) fun _ => rfl]
    (by simp) (by simp)

/-- The JSON form of `ExperimentalFeatures`. -/
def experimentalFeaturesCodec : Codec ExperimentalFeatures :=
  structCodec fold noFeatures
    [field "containers" boolCodec (·.containers) fun v t => { t with containers := v },
      field "stacks" boolCodec (·.stacksView) fun v t => { t with stacksView := v },
      field "images" boolCodec (·.images) fun v t => { t with images := v },
      field "volumes" boolCodec (·.volumes) fun v t => { t with volumes := v },
      field "networks" boolCodec (·.networks) fun v t => { t with networks := v },
      field "container_shell" boolCodec (·.containerShell)
        fun v t => { t with containerShell := v },
      field "container_logs" boolCodec (·.containerLogs)
        fun v t => { t with containerLogs := v },
      field "container_resources" boolCodec (·.containerResources)
        fun v t => { t with containerResources := v },
      field "containers_sidebar" boolCodec (·.containersSidebar)
        fun v t => { t with containersSidebar := v }]
    (by simp) (by simp [noFeatures])

/-- A pointer to a `bool`. -/
def boolPtrCodec : Codec (Option Bool) := ptrCodec boolCodec boolCodec_ne_null

/-- The zero value of `Config`. -/
def zeroConfig : StoredConfig where
  scanIntervalSec := 0
  schedulerEnabled := false
  schedulerPlan := { mode := "", basic := none, cron := none }
  globalPolicy := ""
  discordWebhookURL := ""
  discordNotificationsEnabled := none
  discordNotifyOnStart := none
  discordNotifyOnUpdateDetected := none
  discordNotifyOnContainerUpdated := none
  updateStoppedContainers := false
  pruneDanglingImages := false
  timeZone := ""
  experimentalFeatures := noFeatures
  localServers := []
  remoteServers := []

/-- The JSON form of `Config`. -/
def configCodec : Codec StoredConfig :=
  structCodec fold zeroConfig
    [field "scan_interval_sec" intCodec (·.scanIntervalSec)
        fun v t => { t with scanIntervalSec := v },
      field "scheduler_enabled" boolCodec (·.schedulerEnabled)
        fun v t => { t with schedulerEnabled := v },
      field "scheduler_plan" (schedulerPlanCodec fold) (·.schedulerPlan)
        fun v t => { t with schedulerPlan := v },
      field "global_policy" stringCodec (·.globalPolicy)
        fun v t => { t with globalPolicy := v },
      field "discord_webhook_url" stringCodec (·.discordWebhookURL)
        fun v t => { t with discordWebhookURL := v },
      field "discord_notifications_enabled" boolPtrCodec (·.discordNotificationsEnabled)
        fun v t => { t with discordNotificationsEnabled := v },
      field "discord_notify_on_start" boolPtrCodec (·.discordNotifyOnStart)
        fun v t => { t with discordNotifyOnStart := v },
      field "discord_notify_on_update_detected" boolPtrCodec (·.discordNotifyOnUpdateDetected)
        fun v t => { t with discordNotifyOnUpdateDetected := v },
      field "discord_notify_on_container_updated" boolPtrCodec
        (·.discordNotifyOnContainerUpdated)
        fun v t => { t with discordNotifyOnContainerUpdated := v },
      field "update_stopped_containers" boolCodec (·.updateStoppedContainers)
        fun v t => { t with updateStoppedContainers := v },
      field "prune_dangling_images" boolCodec (·.pruneDanglingImages)
        fun v t => { t with pruneDanglingImages := v },
      omitempty "time_zone" stringCodec (·.timeZone) (fun v t => { t with timeZone := v })
        fun _ => rfl,
      field "experimental_features" (experimentalFeaturesCodec fold) (·.experimentalFeatures)
        fun v t => { t with experimentalFeatures := v },
      field "local_servers" (sliceCodec (localServerCodec fold)) (·.localServers)
        fun v t => { t with localServers := v },
      field "remote_servers" (sliceCodec (remoteServerCodec fold)) (·.remoteServers)
        fun v t => { t with remoteServers := v }]
    (by simp)
    (by simp [zeroConfig, boolPtrCodec, schedulerPlanCodec, experimentalFeaturesCodec, structCodec])

end

/-! ### Repairs -/

/-- `cfg.ScanIntervalSec <= 0` is replaced by the default. -/
def repairInterval (interval : Int64) : Int64 :=
  if interval ≤ 0 then defaultConfig.scanIntervalSec else interval

/-- A plan without a mode is replaced by the default. -/
def repairPlan (plan : SchedulerPlan) : SchedulerPlan :=
  if plan.mode = "" then defaultConfig.schedulerPlan else plan

/-- The empty policy is replaced by the default. -/
def repairPolicy (policy : String) : String :=
  if policy = "" then defaultConfig.globalPolicy else policy

/-- The nil pointer is replaced by one to `false`. -/
def repairFlag (flag : Option Bool) : Option Bool := some (flag.getD false)

/-- No features are replaced by the default. -/
def repairFeatures (features : ExperimentalFeatures) : ExperimentalFeatures :=
  if features = noFeatures then defaultConfig.experimentalFeatures else features

/-- What `Store.Update` does to the configuration after the update function. -/
def normalizeUpdated (cfg : StoredConfig) : StoredConfig :=
  { cfg with
    scanIntervalSec := repairInterval cfg.scanIntervalSec
    schedulerPlan := repairPlan cfg.schedulerPlan
    globalPolicy := repairPolicy cfg.globalPolicy
    discordNotificationsEnabled := repairFlag cfg.discordNotificationsEnabled
    discordNotifyOnStart := repairFlag cfg.discordNotifyOnStart
    experimentalFeatures := repairFeatures cfg.experimentalFeatures }

@[simp] theorem schedulerEnabled_normalizeUpdated (cfg : StoredConfig) :
    (normalizeUpdated cfg).schedulerEnabled = cfg.schedulerEnabled := rfl

@[simp] theorem schedulerPlan_normalizeUpdated (cfg : StoredConfig) :
    (normalizeUpdated cfg).schedulerPlan = repairPlan cfg.schedulerPlan := rfl

@[simp] theorem discordWebhookURL_normalizeUpdated (cfg : StoredConfig) :
    (normalizeUpdated cfg).discordWebhookURL = cfg.discordWebhookURL := rfl

@[simp] theorem localServers_normalizeUpdated (cfg : StoredConfig) :
    (normalizeUpdated cfg).localServers = cfg.localServers := rfl

@[simp] theorem remoteServers_normalizeUpdated (cfg : StoredConfig) :
    (normalizeUpdated cfg).remoteServers = cfg.remoteServers := rfl

/-- The settings that `Store.load` takes for those of an installation that was never
configured: the scan interval is five minutes and nothing else it looks at was changed. -/
def UsesOldDefaults (cfg : StoredConfig) : Prop :=
  cfg.scanIntervalSec = 300 ∧ cfg.schedulerEnabled = false ∧ cfg.discordWebhookURL = "" ∧
    cfg.updateStoppedContainers = false ∧ cfg.globalPolicy = defaultConfig.globalPolicy

instance (cfg : StoredConfig) : Decidable (UsesOldDefaults cfg) :=
  inferInstanceAs (Decidable (_ ∧ _))

/-- Replace the old default of the scan interval by the present one. -/
def migrate (cfg : StoredConfig) : StoredConfig :=
  if UsesOldDefaults cfg then { cfg with scanIntervalSec := defaultConfig.scanIntervalSec }
  else cfg

/-- What `Store.load` does to the configuration it read. The policy is repaired after it was
looked at. -/
def normalizeLoaded (cfg : StoredConfig) : StoredConfig :=
  let cfg := migrate { cfg with
    scanIntervalSec := repairInterval cfg.scanIntervalSec
    schedulerPlan := repairPlan cfg.schedulerPlan }
  { cfg with
    globalPolicy := repairPolicy cfg.globalPolicy
    discordNotificationsEnabled := repairFlag cfg.discordNotificationsEnabled
    discordNotifyOnStart := repairFlag cfg.discordNotifyOnStart
    discordNotifyOnUpdateDetected := repairFlag cfg.discordNotifyOnUpdateDetected
    discordNotifyOnContainerUpdated := repairFlag cfg.discordNotifyOnContainerUpdated
    experimentalFeatures := repairFeatures cfg.experimentalFeatures }

/-- A configuration that needs no repair. -/
structure Normal (cfg : StoredConfig) : Prop where
  interval : ¬ cfg.scanIntervalSec ≤ 0
  mode : cfg.schedulerPlan.mode ≠ ""
  policy : cfg.globalPolicy ≠ ""
  notificationsEnabled : cfg.discordNotificationsEnabled ≠ none
  notifyOnStart : cfg.discordNotifyOnStart ≠ none
  notifyOnUpdateDetected : cfg.discordNotifyOnUpdateDetected ≠ none
  notifyOnContainerUpdated : cfg.discordNotifyOnContainerUpdated ≠ none

/-- A repaired interval is positive. -/
theorem repairInterval_pos (interval : Int64) : ¬ repairInterval interval ≤ 0 := by
  rw [repairInterval]
  split
  · decide
  · assumption

/-- A repaired plan has a mode. -/
theorem repairPlan_mode (plan : SchedulerPlan) : (repairPlan plan).mode ≠ "" := by
  rw [repairPlan]
  split
  · decide
  · assumption

/-- A repaired policy is not empty. -/
theorem repairPolicy_ne (policy : String) : repairPolicy policy ≠ "" := by
  rw [repairPolicy]
  split
  · decide
  · assumption

/-- A repaired flag is set. -/
theorem repairFlag_ne (flag : Option Bool) : repairFlag flag ≠ none :=
  Option.some_ne_none _

/-- A flag that is set stays. -/
theorem repairFlag_of_ne {flag : Option Bool} (h : flag ≠ none) : repairFlag flag = flag := by
  rcases flag with _ | b
  · exact absurd rfl h
  · rfl

/-- The default for no features is no features. -/
theorem repairFeatures_eq (features : ExperimentalFeatures) :
    repairFeatures features = features := by
  rw [repairFeatures]
  split
  · exact Eq.symm ‹_›
  · rfl

/-- The defaults need no repair. -/
theorem normal_defaultConfig : Normal defaultConfig where
  interval := by decide
  mode := by decide
  policy := by decide
  notificationsEnabled := Option.some_ne_none _
  notifyOnStart := Option.some_ne_none _
  notifyOnUpdateDetected := Option.some_ne_none _
  notifyOnContainerUpdated := Option.some_ne_none _

/-- The migration changes exactly the files with the old defaults. -/
theorem migrate_eq_self_iff {cfg : StoredConfig} : migrate cfg = cfg ↔ ¬ UsesOldDefaults cfg := by
  rw [migrate]
  constructor
  · intro h hold
    rw [if_pos hold] at h
    have hinterval : defaultConfig.scanIntervalSec = 300 := by
      rw [← hold.1]
      conv_rhs => rw [← h]
    exact absurd hinterval (by decide)
  · exact fun h => if_neg h

/-- It leaves an interval positive. -/
theorem migrate_interval {cfg : StoredConfig} (h : ¬ cfg.scanIntervalSec ≤ 0) :
    ¬ (migrate cfg).scanIntervalSec ≤ 0 := by
  rw [migrate]
  split
  · exact normal_defaultConfig.interval
  · exact h

/-- It does not touch the plan. -/
theorem migrate_plan (cfg : StoredConfig) : (migrate cfg).schedulerPlan = cfg.schedulerPlan := by
  rw [migrate]
  split
  · rfl
  · rfl

/-- The migration leaves a configuration that needs no repair as one. -/
theorem Normal.migrate {cfg : StoredConfig} (h : Normal cfg) : Normal (migrate cfg) := by
  rw [Contiwatch.migrate]
  split
  · exact { h with interval := normal_defaultConfig.interval }
  · exact h

/-- What was loaded needs no repair. -/
theorem normal_normalizeLoaded (cfg : StoredConfig) : Normal (normalizeLoaded cfg) where
  interval := migrate_interval (repairInterval_pos _)
  mode := by
    simp only [normalizeLoaded, migrate_plan]
    exact repairPlan_mode _
  policy := repairPolicy_ne _
  notificationsEnabled := repairFlag_ne _
  notifyOnStart := repairFlag_ne _
  notifyOnUpdateDetected := repairFlag_ne _
  notifyOnContainerUpdated := repairFlag_ne _

/-- What was updated needs no repair if the two flags that `Update` does not look at were
set. -/
theorem normal_normalizeUpdated {cfg : StoredConfig}
    (hdetected : cfg.discordNotifyOnUpdateDetected ≠ none)
    (hupdated : cfg.discordNotifyOnContainerUpdated ≠ none) : Normal (normalizeUpdated cfg) where
  interval := repairInterval_pos _
  mode := repairPlan_mode _
  policy := repairPolicy_ne _
  notificationsEnabled := repairFlag_ne _
  notifyOnStart := repairFlag_ne _
  notifyOnUpdateDetected := hdetected
  notifyOnContainerUpdated := hupdated

/-- **Loading after an update.** A configuration that needs no repair is migrated and nothing
else. -/
theorem normalizeLoaded_of_normal {cfg : StoredConfig} (h : Normal cfg) :
    normalizeLoaded cfg = migrate cfg := by
  have hread : { cfg with
      scanIntervalSec := repairInterval cfg.scanIntervalSec
      schedulerPlan := repairPlan cfg.schedulerPlan } = cfg := by
    rw [repairInterval, if_neg h.interval, repairPlan, if_neg h.mode]
  have hmigrated := h.migrate
  simp only [normalizeLoaded, hread]
  rw [repairPolicy, if_neg hmigrated.policy, repairFlag_of_ne hmigrated.notificationsEnabled,
    repairFlag_of_ne hmigrated.notifyOnStart, repairFlag_of_ne hmigrated.notifyOnUpdateDetected,
    repairFlag_of_ne hmigrated.notifyOnContainerUpdated, repairFeatures_eq]

end Contiwatch
