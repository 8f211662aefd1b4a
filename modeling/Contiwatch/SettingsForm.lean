import Contiwatch.Lib.Js
import Contiwatch.PolicySync
import Contiwatch.ScheduleChecks
import Mathlib.Data.List.Sublists

/-!
# The Settings Form

The form of `src/web/static/app.js`: `refreshConfig` fills it in from the answer to
`GET /api/config`, and `saveConfig` sends all of it whenever one of its controls is changed. What
the page shows besides the values of the controls is left out.

## Main results

* `refreshConfig_configResponse` — what the form shows of a stored configuration.
* `decode_buildConfigPayload` — what the handler reads off the form.
* `saved_settings_iff` — when a change of one control changes that setting alone.
* `toggle_replaces_plan` — a click that replaces the plan of the scheduler.
-/

namespace Contiwatch

open GoStrings GoJson Prog Js

/-! ### The form -/

/-- How the browser treats a number of a document: the integer that it writes for an integer that it
has read as a floating-point number. Small ones are kept. -/
structure Browser where
  rewrite : ℤ → ℤ
  rewrite_safe : ∀ n, |n| ≤ 2 ^ 53 → rewrite n = n
  rewrite_pos : ∀ n, 0 < n → 0 < rewrite n

/-- The controls of the settings form, and `currentConfig`. -/
structure SettingsForm where
  currentConfig : Json
  schedulerEnabled : Bool
  globalPolicy : String
  discordURL : String
  discordEnabled : Bool
  discordStartupNotify : Bool
  discordUpdateDetected : Bool
  discordContainerUpdated : Bool
  updateStopped : Bool
  pruneDangling : Bool
  experimental : ExperimentalFeatures
  schedulerMode : String
  schedulerDays : List Int64
  schedulerTime : String
  schedulerCron : String

/-- The options of the policy. -/
def policyOptions : List String := [policyUpdate, policyNotifyOnly, policySkip]

/-- The days that have a button. -/
def dayButtons : List Int64 := [1, 2, 3, 4, 5, 6, 7]

/-- `setSchedulerBasicDays` and `getSchedulerBasicDays`: the buttons of these days. -/
def shownDays (days : List Json) : List Int64 :=
  dayButtons.filter fun day => days.any fun j => Js.number (some j) = day.toInt

/-- The days that `refreshConfig` shows: from Monday to Friday if there is no list of them. An empty
list of Go may be the nil slice, which is written as `null`. -/
def planDays (nilSlice : Bool) (days : Option Json) : List Json :=
  match days with
  | some (.arr []) => if nilSlice then [1, 2, 3, 4, 5].map .int else []
  | some (.arr days) => days
  | _ => [1, 2, 3, 4, 5].map .int

/-- `refreshConfig`, from the form as it was. -/
def refreshConfig (nilSlice : Bool) (cfg : Json) (form : SettingsForm) : SettingsForm :=
  let get key := prop key (some cfg)
  let exp key := truthy (prop key (get "experimental_features"))
  let plan := get "scheduler_plan"
  let basic := prop "basic" plan
  let form := { form with
    currentConfig := cfg
    schedulerEnabled := truthy (get "scheduler_enabled")
    globalPolicy := selectInput policyOptions (text (get "global_policy"))
    discordURL := ""
    discordEnabled := notFalse (get "discord_notifications_enabled")
    discordStartupNotify := notFalse (get "discord_notify_on_start")
    discordUpdateDetected := notFalse (get "discord_notify_on_update_detected")
    discordContainerUpdated := notFalse (get "discord_notify_on_container_updated")
    updateStopped := truthy (get "update_stopped_containers")
    pruneDangling := truthy (get "prune_dangling_images")
    experimental :=
      { containers := exp "containers"
        stacksView := exp "stacks"
        images := exp "images"
        volumes := exp "volumes"
        networks := exp "networks"
        containerShell := exp "container_shell"
        containerLogs := exp "container_logs"
        containerResources := exp "container_resources"
        containersSidebar := exp "containers_sidebar" } }
  if text (prop "mode" plan) = "cron" then
    { form with
      schedulerMode := "cron"
      schedulerCron := textInput (text (prop "expr" (prop "cron" plan))) }
  else
    { form with
      schedulerMode := "basic"
      schedulerDays := shownDays (planDays nilSlice (prop "days" basic))
      schedulerTime :=
        timeInput (if truthy (prop "time" basic) then text (prop "time" basic) else "03:00") }

/-- `buildConfigPayload`. -/
def buildConfigPayload (b : Browser) (useWebhookInput : Bool) (form : SettingsForm) : Json :=
  let cfg := some form.currentConfig
  let currentInterval := b.rewrite (Js.number (prop "scan_interval_sec" cfg))
  let nextInterval := if currentInterval > 0 then currentInterval else 0
  let webhookValue :=
    if useWebhookInput then Js.trim form.discordURL
    else if truthy (prop "discord_webhook_configured" cfg) then "__keep__"
    else text (prop "discord_webhook_url" cfg)
  let schedulerPlan : Json :=
    if form.schedulerMode = "cron" then
      .obj [("mode", .str "cron"), ("cron", .obj [("expr", .str (Js.trim form.schedulerCron))])]
    else
      .obj [("mode", .str "basic"),
        ("basic", .obj [("days", .arr (form.schedulerDays.map fun day => .int day.toInt)),
          ("time", .str form.schedulerTime)])]
  .obj [("scheduler_enabled", .bool form.schedulerEnabled),
    ("scan_interval_sec", .int nextInterval),
    ("scheduler_plan", schedulerPlan),
    ("global_policy", .str form.globalPolicy),
    ("discord_webhook_url", .str webhookValue),
    ("discord_notifications_enabled", .bool form.discordEnabled),
    ("discord_notify_on_start", .bool form.discordStartupNotify),
    ("discord_notify_on_update_detected", .bool form.discordUpdateDetected),
    ("discord_notify_on_container_updated", .bool form.discordContainerUpdated),
    ("update_stopped_containers", .bool form.updateStopped),
    ("prune_dangling_images", .bool form.pruneDangling),
    ("experimental_features",
      .obj [("containers", .bool form.experimental.containers),
        ("containers_sidebar", .bool form.experimental.containersSidebar),
        ("container_shell", .bool form.experimental.containerShell),
        ("container_logs", .bool form.experimental.containerLogs),
        ("container_resources", .bool form.experimental.containerResources),
        ("stacks", .bool form.experimental.stacksView),
        ("images", .bool form.experimental.images),
        ("volumes", .bool form.experimental.volumes),
        ("networks", .bool form.experimental.networks)])]

/-! ### What the handler reads -/

/-- The interval that is sent. -/
def sentInterval (b : Browser) (form : SettingsForm) : ℤ :=
  let currentInterval := b.rewrite (Js.number (prop "scan_interval_sec" (some form.currentConfig)))
  if currentInterval > 0 then currentInterval else 0

/-- The webhook that is sent. -/
def sentWebhook (useWebhookInput : Bool) (form : SettingsForm) : String :=
  if useWebhookInput then Js.trim form.discordURL
  else if truthy (prop "discord_webhook_configured" (some form.currentConfig)) then "__keep__"
  else text (prop "discord_webhook_url" (some form.currentConfig))

/-- The plan that is sent. -/
def sentPlan (form : SettingsForm) : SchedulerPlan :=
  if form.schedulerMode = "cron" then
    { mode := "cron", basic := none, cron := some ⟨Js.trim form.schedulerCron⟩ }
  else { mode := "basic", basic := some ⟨form.schedulerDays, form.schedulerTime⟩, cron := none }

/-- The payload that the handler reads, if the interval is a number of Go. -/
def sentPayload (b : Browser) (useWebhookInput : Bool) (form : SettingsForm) : StoredConfig :=
  { zeroConfig with
    scanIntervalSec := Int64.ofInt (sentInterval b form)
    schedulerEnabled := form.schedulerEnabled
    schedulerPlan := sentPlan form
    globalPolicy := form.globalPolicy
    discordWebhookURL := sentWebhook useWebhookInput form
    discordNotificationsEnabled := some form.discordEnabled
    discordNotifyOnStart := some form.discordStartupNotify
    discordNotifyOnUpdateDetected := some form.discordUpdateDetected
    discordNotifyOnContainerUpdated := some form.discordContainerUpdated
    updateStoppedContainers := form.updateStopped
    pruneDanglingImages := form.pruneDangling
    experimentalFeatures := form.experimental }

section

variable (fold : Char → Char)

/-- The document of the plan is the one that Go writes for it. -/
theorem encode_sentPlan (form : SettingsForm) :
    (schedulerPlanCodec fold).encode (sentPlan form) =
      if form.schedulerMode = "cron" then
        .obj [("mode", .str "cron"), ("cron", .obj [("expr", .str (Js.trim form.schedulerCron))])]
      else
        .obj [("mode", .str "basic"),
          ("basic", .obj [("days", .arr (form.schedulerDays.map fun day => .int day.toInt)),
            ("time", .str form.schedulerTime)])] := by
  rw [sentPlan]
  split
  · simp [schedulerPlanCodec, structCodec, ptrCodec, schedulerCronCodec, stringCodec]
  · simp [schedulerPlanCodec, structCodec, ptrCodec, schedulerBasicCodec, stringCodec, sliceCodec,
      intCodec]

/-- The features are read whatever their order. -/
theorem decode_experimental (e : ExperimentalFeatures) :
    (experimentalFeaturesCodec fold).decode
      (.obj [("containers", .bool e.containers), ("containers_sidebar", .bool e.containersSidebar),
        ("container_shell", .bool e.containerShell), ("container_logs", .bool e.containerLogs),
        ("container_resources", .bool e.containerResources), ("stacks", .bool e.stacksView),
        ("images", .bool e.images), ("volumes", .bool e.volumes),
        ("networks", .bool e.networks)]) noFeatures = some e := by
  simp [experimentalFeaturesCodec, structCodec, readStruct, readMember, findField, boolCodec]

/-- The form sends no negative interval. -/
theorem sentInterval_nonneg (b : Browser) (form : SettingsForm) : 0 ≤ sentInterval b form := by
  simp only [sentInterval]
  split
  · exact Int.le_of_lt ‹_›
  · exact Int.le_refl 0

/-- **What the handler reads off the form.** -/
theorem decode_buildConfigPayload (b : Browser) (useWebhookInput : Bool) (form : SettingsForm) :
    decodeBody (configCodec fold) (some (buildConfigPayload b useWebhookInput form)) =
      if sentInterval b form < 2 ^ 63 then some (sentPayload b useWebhookInput form) else none := by
  have hdoc : buildConfigPayload b useWebhookInput form =
      .obj [("scheduler_enabled", .bool form.schedulerEnabled),
        ("scan_interval_sec", .int (sentInterval b form)),
        ("scheduler_plan", (schedulerPlanCodec fold).encode (sentPlan form)),
        ("global_policy", .str form.globalPolicy),
        ("discord_webhook_url", .str (sentWebhook useWebhookInput form)),
        ("discord_notifications_enabled", .bool form.discordEnabled),
        ("discord_notify_on_start", .bool form.discordStartupNotify),
        ("discord_notify_on_update_detected", .bool form.discordUpdateDetected),
        ("discord_notify_on_container_updated", .bool form.discordContainerUpdated),
        ("update_stopped_containers", .bool form.updateStopped),
        ("prune_dangling_images", .bool form.pruneDangling),
        ("experimental_features",
          .obj [("containers", .bool form.experimental.containers),
            ("containers_sidebar", .bool form.experimental.containersSidebar),
            ("container_shell", .bool form.experimental.containerShell),
            ("container_logs", .bool form.experimental.containerLogs),
            ("container_resources", .bool form.experimental.containerResources),
            ("stacks", .bool form.experimental.stacksView),
            ("images", .bool form.experimental.images),
            ("volumes", .bool form.experimental.volumes),
            ("networks", .bool form.experimental.networks)])] := by
    rw [encode_sentPlan]
    rfl
  have hrange : -2 ^ 63 ≤ sentInterval b form :=
    Int.le_trans (by decide) (sentInterval_nonneg b form)
  have hinterval : ∀ old : Int64, intCodec.decode (.int (sentInterval b form)) old =
      if sentInterval b form < 2 ^ 63 then some (Int64.ofInt (sentInterval b form)) else none := by
    intro old
    simp only [intCodec, hrange, true_and]
  have hbool (v old : Bool) : boolCodec.decode (.bool v) old = some v := rfl
  have hflag (v : Bool) (old : Option Bool) : boolPtrCodec.decode (.bool v) old = some (some v) :=
    rfl
  have hstring (v old : String) : stringCodec.decode (.str v) old = some v := rfl
  have hplan : (schedulerPlanCodec fold).decode ((schedulerPlanCodec fold).encode (sentPlan form))
      zeroConfig.schedulerPlan = some (sentPlan form) := (schedulerPlanCodec fold).decode_encode _
  have hexperimental : (experimentalFeaturesCodec fold).decode _
      zeroConfig.experimentalFeatures = some form.experimental :=
    decode_experimental fold form.experimental
  change readStruct fold _ (buildConfigPayload b useWebhookInput form) zeroConfig = _
  rw [hdoc, readStruct]
  by_cases hlt : sentInterval b form < 2 ^ 63
  · simp only [if_pos hlt] at hinterval ⊢
    simp [readMember, findField, hbool, hflag, hstring, hinterval, hplan, hexperimental,
      sentPayload]
  · simp only [if_neg hlt] at hinterval ⊢
    simp [readMember, findField, hbool, hinterval]

/-! ### What the form shows -/

/-- The members of the answer to `GET /api/config`. -/
theorem configResponse_eq (cfg : StoredConfig) : configResponse fold cfg =
    .obj ([("scan_interval_sec", .int cfg.scanIntervalSec.toInt),
      ("scheduler_enabled", .bool cfg.schedulerEnabled),
      ("scheduler_plan", (schedulerPlanCodec fold).encode cfg.schedulerPlan),
      ("global_policy", .str cfg.globalPolicy),
      ("discord_webhook_url", .str ""),
      ("discord_notifications_enabled", boolPtrCodec.encode cfg.discordNotificationsEnabled),
      ("discord_notify_on_start", boolPtrCodec.encode cfg.discordNotifyOnStart),
      ("discord_notify_on_update_detected", boolPtrCodec.encode cfg.discordNotifyOnUpdateDetected),
      ("discord_notify_on_container_updated",
        boolPtrCodec.encode cfg.discordNotifyOnContainerUpdated),
      ("update_stopped_containers", .bool cfg.updateStoppedContainers),
      ("prune_dangling_images", .bool cfg.pruneDanglingImages)] ++
      (if cfg.timeZone = "" then [] else [("time_zone", .str cfg.timeZone)]) ++
      [("experimental_features", (experimentalFeaturesCodec fold).encode cfg.experimentalFeatures),
        ("local_servers", (sliceCodec (localServerCodec fold)).encode cfg.localServers),
        ("remote_servers",
          (sliceCodec (remoteServerResponseCodec fold)).encode
            (cfg.remoteServers.map sanitizeRemoteServer)),
        ("discord_webhook_configured", .bool (trimSpaceStr cfg.discordWebhookURL ≠ ""))]) := by
  have hmembers : objectMembers ((configCodec fold).encode (sanitizeConfig cfg)) =
      members _ (sanitizeConfig cfg) := rfl
  rw [configResponse, hmembers]
  by_cases htz : cfg.timeZone = ""
  · simp [sanitizeConfig, htz, intCodec, stringCodec, boolCodec]
  · simp [sanitizeConfig, htz, intCodec, stringCodec, boolCodec]

/-- The members of the features. -/
theorem encode_experimental (e : ExperimentalFeatures) :
    (experimentalFeaturesCodec fold).encode e =
      .obj [("containers", .bool e.containers), ("stacks", .bool e.stacksView),
        ("images", .bool e.images), ("volumes", .bool e.volumes), ("networks", .bool e.networks),
        ("container_shell", .bool e.containerShell), ("container_logs", .bool e.containerLogs),
        ("container_resources", .bool e.containerResources),
        ("containers_sidebar", .bool e.containersSidebar)] := rfl

/-- The members of a plan. -/
theorem prop_plan (plan : SchedulerPlan) :
    text (prop "mode" (some ((schedulerPlanCodec fold).encode plan))) = plan.mode ∧
      prop "basic" (some ((schedulerPlanCodec fold).encode plan)) =
        plan.basic.map (schedulerBasicCodec fold).encode ∧
      prop "cron" (some ((schedulerPlanCodec fold).encode plan)) =
        plan.cron.map (schedulerCronCodec fold).encode := by
  obtain ⟨mode, basic, cron⟩ := plan
  have hdoc : (schedulerPlanCodec fold).encode ⟨mode, basic, cron⟩ = .obj (members _ _) := rfl
  rw [hdoc]
  rcases basic with _ | basic
  · rcases cron with _ | cron
    · simp [prop, text, ptrCodec, stringCodec, List.lookup_cons]
    · simp [prop, text, ptrCodec, stringCodec, List.lookup_cons]
  · rcases cron with _ | cron
    · simp [prop, text, ptrCodec, stringCodec, List.lookup_cons]
    · simp [prop, text, ptrCodec, stringCodec, List.lookup_cons]

/-- The members of a basic plan. -/
theorem prop_basic (basic : Option SchedulerBasic) :
    prop "days" (basic.map (schedulerBasicCodec fold).encode) =
        basic.map (fun basic => .arr (basic.days.map intCodec.encode)) ∧
      (if truthy (prop "time" (basic.map (schedulerBasicCodec fold).encode)) then
        text (prop "time" (basic.map (schedulerBasicCodec fold).encode)) else "03:00") =
        basic.elim "03:00" fun basic => if basic.time = "" then "03:00" else basic.time := by
  rcases basic with _ | ⟨days, time⟩
  · exact ⟨rfl, rfl⟩
  · refine ⟨rfl, ?_⟩
    have htime : prop "time" (some ((schedulerBasicCodec fold).encode ⟨days, time⟩)) =
        some (.str time) := rfl
    rw [Option.map_some, htime, text_str, Option.elim_some]
    by_cases hempty : time = ""
    · simp [truthy, hempty]
    · simp [truthy, hempty]

/-- The member of a cron plan. -/
theorem prop_cron (cron : Option SchedulerCron) :
    text (prop "expr" (cron.map (schedulerCronCodec fold).encode)) = cron.elim "" (·.expr) := by
  rcases cron with _ | cron
  · rfl
  · rfl

/-- The flag that a control shows. -/
theorem notFalse_flag {flag : Option Bool} (h : flag ≠ none) :
    notFalse (some (boolPtrCodec.encode flag)) = flag.getD false := by
  obtain ⟨b, rfl⟩ := Option.ne_none_iff_exists'.mp h
  rfl

/-- The form that shows a configuration. -/
def shownForm (nilSlice : Bool) (answer : Json) (cfg : StoredConfig) (form : SettingsForm) :
    SettingsForm :=
  let form := { form with
    currentConfig := answer
    schedulerEnabled := cfg.schedulerEnabled
    globalPolicy := selectInput policyOptions cfg.globalPolicy
    discordURL := ""
    discordEnabled := cfg.discordNotificationsEnabled.getD false
    discordStartupNotify := cfg.discordNotifyOnStart.getD false
    discordUpdateDetected := cfg.discordNotifyOnUpdateDetected.getD false
    discordContainerUpdated := cfg.discordNotifyOnContainerUpdated.getD false
    updateStopped := cfg.updateStoppedContainers
    pruneDangling := cfg.pruneDanglingImages
    experimental := cfg.experimentalFeatures }
  if cfg.schedulerPlan.mode = "cron" then
    { form with
      schedulerMode := "cron"
      schedulerCron := textInput (cfg.schedulerPlan.cron.elim "" (·.expr)) }
  else
    { form with
      schedulerMode := "basic"
      schedulerDays := shownDays (planDays nilSlice
        (cfg.schedulerPlan.basic.map fun basic => .arr (basic.days.map intCodec.encode)))
      schedulerTime := timeInput (cfg.schedulerPlan.basic.elim "03:00" fun basic =>
        if basic.time = "" then "03:00" else basic.time) }

/-- **What the form shows.** -/
theorem refreshConfig_configResponse {cfg : StoredConfig} (h : Normal cfg) (nilSlice : Bool)
    (form : SettingsForm) :
    refreshConfig nilSlice (configResponse fold cfg) form =
      shownForm nilSlice (configResponse fold cfg) cfg form := by
  obtain ⟨hmode, hbasic, hcron⟩ := prop_plan fold cfg.schedulerPlan
  obtain ⟨hdays, htime⟩ := prop_basic fold cfg.schedulerPlan.basic
  have hexpr := prop_cron fold cfg.schedulerPlan.cron
  have henabled := notFalse_flag h.notificationsEnabled
  have hstart := notFalse_flag h.notifyOnStart
  have hdetected := notFalse_flag h.notifyOnUpdateDetected
  have hupdated := notFalse_flag h.notifyOnContainerUpdated
  generalize hanswer : configResponse fold cfg = answer
  have hget (key : String) :
      prop key (some answer) = prop key (some (configResponse fold cfg)) := by
    rw [hanswer]
  simp only [refreshConfig, shownForm, hget]
  rw [configResponse_eq]
  by_cases htz : cfg.timeZone = ""
  · simp [prop_obj, htz, List.lookup_cons, encode_experimental, hmode, hbasic, hcron, henabled,
      hstart, hdetected, hupdated, hdays, htime, hexpr]
  · simp [prop_obj, htz, List.lookup_cons, encode_experimental, hmode, hbasic, hcron, henabled,
      hstart, hdetected, hupdated, hdays, htime, hexpr]

end

/-! ### Controls -/

/-- The controls of the menu. -/
inductive Feature
  | containers | stacksView | images | volumes | networks
  | containerShell | containerLogs | containerResources | containersSidebar
  deriving DecidableEq, Repr

/-- Switch a feature. -/
def Feature.switch (on : Bool) (features : ExperimentalFeatures) : Feature → ExperimentalFeatures
  | .containers => { features with containers := on }
  | .stacksView => { features with stacksView := on }
  | .images => { features with images := on }
  | .volumes => { features with volumes := on }
  | .networks => { features with networks := on }
  | .containerShell => { features with containerShell := on }
  | .containerLogs => { features with containerLogs := on }
  | .containerResources => { features with containerResources := on }
  | .containersSidebar => { features with containersSidebar := on }

/-- What a user does to the form: nothing, but it is submitted; or one control is changed that does
not belong to the schedule. The webhook is saved by its test. -/
inductive Control
  | submit
  | globalPolicy (value : String)
  | webhook (url : String)
  | discordEnabled (on : Bool)
  | discordStartupNotify (on : Bool)
  | discordUpdateDetected (on : Bool)
  | discordContainerUpdated (on : Bool)
  | updateStopped (on : Bool)
  | pruneDangling (on : Bool)
  | experimental (feature : Feature) (on : Bool)
  deriving DecidableEq, Repr

namespace Control

/-- What it does to the form. -/
def change : Control → SettingsForm → SettingsForm
  | .submit, form => form
  | .globalPolicy value, form => { form with globalPolicy := value }
  | .webhook url, form => { form with discordURL := textInput url }
  | .discordEnabled on, form => { form with discordEnabled := on }
  | .discordStartupNotify on, form => { form with discordStartupNotify := on }
  | .discordUpdateDetected on, form => { form with discordUpdateDetected := on }
  | .discordContainerUpdated on, form => { form with discordContainerUpdated := on }
  | .updateStopped on, form => { form with updateStopped := on }
  | .pruneDangling on, form => { form with pruneDangling := on }
  | .experimental feature on, form =>
      { form with experimental := feature.switch on form.experimental }

/-- The webhook that a user means. -/
def webhookValue (url : String) : String := trimSpaceStr (Js.trim (textInput url))

/-- The setting that it stands for. -/
def setting : Control → StoredConfig → StoredConfig
  | .submit, cfg => cfg
  | .globalPolicy value, cfg => { cfg with globalPolicy := value }
  | .webhook url, cfg => { cfg with discordWebhookURL := webhookValue url }
  | .discordEnabled on, cfg => { cfg with discordNotificationsEnabled := some on }
  | .discordStartupNotify on, cfg => { cfg with discordNotifyOnStart := some on }
  | .discordUpdateDetected on, cfg => { cfg with discordNotifyOnUpdateDetected := some on }
  | .discordContainerUpdated on, cfg => { cfg with discordNotifyOnContainerUpdated := some on }
  | .updateStopped on, cfg => { cfg with updateStoppedContainers := on }
  | .pruneDangling on, cfg => { cfg with pruneDanglingImages := on }
  | .experimental feature on, cfg =>
      { cfg with experimentalFeatures := feature.switch on cfg.experimentalFeatures }

/-- The option `useWebhookInput` of `saveConfig`. -/
def useWebhookInput : Control → Bool
  | .webhook _ => true
  | _ => false

/-- What the page offers: an option for the policy; a webhook that has passed its test, which
checks it and fails for the two sentinels. -/
def Offered (lib : Libraries) : Control → Prop
  | .globalPolicy value => value ∈ policyOptions
  | .webhook url => validateDiscordWebhookURL lib (webhookValue url) = none ∧
      webhookValue url ≠ discordWebhookKeepSentinel ∧
      webhookValue url ≠ discordWebhookClearSentinel
  | _ => True

/-- The control is that of the policy. -/
def SetsPolicy : Control → Prop
  | .globalPolicy _ => True
  | _ => False

end Control

/-- The document that is sent after a control was changed in the form that shows a stored
configuration. -/
def savedForm (lib : Libraries) (b : Browser) (nilSlice : Bool) (timeZone : String) (ctl : Control)
    (cfg : StoredConfig) (form : SettingsForm) : Json :=
  buildConfigPayload b ctl.useWebhookInput
    (ctl.change (refreshConfig nilSlice (getConfig lib.fold timeZone cfg) form))

/-- An answer to a request that was not refused. -/
def SettingsReply.Accepted : SettingsReply → Prop
  | .ok _ | .internalError _ => True
  | .malformed | .badRequest _ => False

/-- `PUT /api/config` with the document is accepted, and leaves the configuration `cfg`. -/
def SavesAs (lib : Libraries) (s : Store) (doc : Json) (cfg : StoredConfig) : Prop :=
  ∀ reply t, Exec (storeSem lib.fold) (handle lib (.putConfig (some doc))) s reply t →
    reply.Accepted ∧ t.config = cfg

/-- The form can show the plan of a scheduler: it is a cron plan without outer blanks and line
breaks, or a basic one with a valid time, whose days are in order; and nothing else is stored in
it. -/
def Representable (nilSlice : Bool) (plan : SchedulerPlan) : Prop :=
  (plan.mode = "cron" ∧ plan.basic = none ∧
      ∃ expr, plan.cron = some ⟨expr⟩ ∧ Js.trim (textInput expr) = expr) ∨
    (plan.mode = "basic" ∧ plan.cron = none ∧ ∃ basic, plan.basic = some basic ∧
      basic.days.Sublist dayButtons ∧ ¬ (nilSlice = true ∧ basic.days = []) ∧
      isTime basic.time.toList = true)

/-- What a configuration must be like for a control to change its setting alone. -/
structure SavedWhole (lib : Libraries) (b : Browser) (nilSlice : Bool) (ctl : Control)
    (cfg : StoredConfig) : Prop where
  plan : Representable nilSlice cfg.schedulerPlan
  interval : b.rewrite cfg.scanIntervalSec.toInt = cfg.scanIntervalSec.toInt
  policy : ctl.SetsPolicy ∨ cfg.globalPolicy ∈ policyOptions
  accepted : cfg.schedulerEnabled = true → planAccepted lib.parseCron cfg = true

/-! ### Plans that the form can show -/

/-- The plan that is sent for the one that the form shows. -/
def shownPlan (nilSlice : Bool) (plan : SchedulerPlan) : SchedulerPlan :=
  if plan.mode = "cron" then
    { mode := "cron", basic := none,
      cron := some ⟨Js.trim (textInput (plan.cron.elim "" (·.expr)))⟩ }
  else
    { mode := "basic"
      basic := some
        { days := shownDays (planDays nilSlice
            (plan.basic.map fun basic => .arr (basic.days.map intCodec.encode)))
          time := timeInput (plan.basic.elim "03:00" fun basic =>
            if basic.time = "" then "03:00" else basic.time) }
      cron := none }

/-- The days whose buttons are pressed. -/
theorem shownDays_eq (days : List Int64) :
    shownDays (days.map intCodec.encode) = dayButtons.filter (· ∈ days) := by
  refine List.filter_congr fun day _ => ?_
  rw [List.any_map, Bool.eq_iff_iff, List.any_eq_true, decide_eq_true_iff]
  constructor
  · rintro ⟨d, hd, heq⟩
    have hsame : d.toInt = day.toInt := of_decide_eq_true heq
    rwa [Int64.toInt_inj.mp hsame] at hd
  · exact fun hday => ⟨day, hday, decide_eq_true rfl⟩

/-- The days pressed come in the order of the buttons. -/
theorem filter_dayButtons : ∀ days ∈ dayButtons.sublists,
    dayButtons.filter (· ∈ days) = days := by
  decide +kernel

/-- Days are shown as they are exactly if they are in order. -/
theorem shownDays_eq_self_iff {days : List Int64} :
    shownDays (days.map intCodec.encode) = days ↔ days.Sublist dayButtons := by
  rw [shownDays_eq]
  constructor
  · intro h
    rw [← h]
    exact List.filter_sublist
  · exact fun h => filter_dayButtons days (List.mem_sublists.mpr h)

/-- Days are shown as they are, unless they are the nil slice, exactly if they are in order. -/
theorem planDays_eq_self_iff {nilSlice : Bool} {days : List Int64} :
    shownDays (planDays nilSlice (some (.arr (days.map intCodec.encode)))) = days ↔
      days.Sublist dayButtons ∧ ¬ (nilSlice = true ∧ days = []) := by
  rw [← shownDays_eq_self_iff]
  rcases days with _ | ⟨day, days⟩
  · cases nilSlice
    · decide
    · decide
  · simp [planDays]

/-- **Plans that the form can show** are those that it sends back. -/
theorem shownPlan_eq_self_iff {nilSlice : Bool} {plan : SchedulerPlan} :
    shownPlan nilSlice plan = plan ↔ Representable nilSlice plan := by
  obtain ⟨mode, basic, cron⟩ := plan
  rw [shownPlan, Representable]
  by_cases hcron : mode = "cron"
  · subst hcron
    rw [if_pos rfl]
    constructor
    · intro h
      obtain ⟨-, hbasic, hexpr⟩ := SchedulerPlan.mk.inj h
      rcases cron with _ | ⟨⟨expr⟩⟩
      · cases hexpr
      · rw [Option.some.injEq, SchedulerCron.mk.injEq, Option.elim_some] at hexpr
        exact .inl ⟨rfl, hbasic.symm, expr, rfl, hexpr⟩
    · rintro (⟨-, rfl, expr, rfl, htrim⟩ | ⟨hmode, -⟩)
      · rw [Option.elim_some, htrim]
      · simp at hmode
  · simp only [hcron, if_false, false_and, false_or, SchedulerPlan.mk.injEq]
    rcases basic with _ | ⟨days, time⟩
    · simp
    · have htime : timeInput (if time = "" then "03:00" else time) = time ↔
          isTime time.toList = true := by
        by_cases hempty : time = ""
        · subst hempty
          decide
        · rw [if_neg hempty, timeInput_eq_self_iff hempty]
      have hdays := @planDays_eq_self_iff nilSlice days
      rw [Option.map_some, Option.elim_some]
      generalize shownDays _ = shown at hdays ⊢
      generalize timeInput _ = value at htime ⊢
      constructor
      · rintro ⟨rfl, hbasic, rfl⟩
        obtain ⟨rfl, rfl⟩ := SchedulerBasic.mk.inj (Option.some.inj hbasic)
        exact ⟨rfl, rfl, _, rfl, (hdays.mp rfl).1, (hdays.mp rfl).2, htime.mp rfl⟩
      · rintro ⟨rfl, rfl, basic, hbasic, hsublist, hnil, hvalid⟩
        obtain rfl := Option.some.inj hbasic
        rw [hdays.mpr ⟨hsublist, hnil⟩, htime.mpr hvalid]
        exact ⟨rfl, rfl, rfl⟩

/-! ### Saving the form -/

section

variable {lib : Libraries}

/-- A body that is refused is answered so. -/
theorem putPayload_refused {body : Option Json} {reply : SettingsReply}
    (h : putPayload lib body = .error reply) : ¬ reply.Accepted := by
  rw [putPayload] at h
  split at h
  · rw [← Except.error.inj h]
    exact id
  · simp only at h
    split at h
    · cases h
    · split at h
      · rw [← Except.error.inj h]
        exact id
      · cases h

/-- A payload is taken whose webhook is none, a sentinel or a valid URL. -/
theorem putPayload_of_decode {body : Option Json} {payload : StoredConfig}
    (hread : decodeBody (configCodec lib.fold) body = some payload)
    (hwebhook : webhookInput payload = "" ∨ webhookInput payload = discordWebhookKeepSentinel ∨
      webhookInput payload = discordWebhookClearSentinel ∨
      validateDiscordWebhookURL lib (webhookInput payload) = none) :
    putPayload lib body = .ok payload := by
  simp only [putPayload, hread]
  rcases hwebhook with hempty | hkeep | hclear | hvalid
  · rw [if_pos (.inl hempty)]
  · rw [if_pos (.inr (.inl hkeep))]
  · rw [if_pos (.inr (.inr hclear))]
  · rw [hvalid, ite_self]

/-- A payload with a plan passes the check of the plan, unless it enables the scheduler and the plan
cannot be built. -/
theorem scheduleError_eq_none_iff {before payload cfg : StoredConfig}
    (happly : shouldApplySchedulerPlan payload = true)
    (hcfg : cfg.schedulerPlan = payload.schedulerPlan) :
    scheduleError lib before payload = none ↔
      (payload.schedulerEnabled = true → planAccepted lib.parseCron cfg = true) := by
  refine ⟨fun h henabled => planAccepted_of_scheduleError h henabled happly hcfg, fun h => ?_⟩
  have hplan : (validateCfg before payload).schedulerPlan = cfg.schedulerPlan := by
    rw [validateCfg, if_pos happly, hcfg]
  rw [scheduleError, happly, Bool.or_true, if_pos rfl]
  rcases hbuild : buildSchedulerPlan lib.parseCron (validateCfg before payload) with err | plan
  · have hrefused : planAccepted lib.parseCron cfg = false := by
      rw [← planAccepted_eq lib.parseCron hplan, planAccepted, hbuild]
      rfl
    refine if_neg fun henabled => ?_
    rw [hrefused] at h
    exact Bool.false_ne_true (h henabled)
  · rfl

/-- A request is accepted exactly if its payload passes the checks. -/
theorem savesAs_iff {s : Store} {doc : Json} {cfg : StoredConfig} :
    SavesAs lib s doc cfg ↔ ∃ payload, putPayload lib (some doc) = .ok payload ∧
      scheduleError lib s.config payload = none ∧
      normalizeUpdated (applyPayload s.config payload s.config) = cfg := by
  constructor
  · intro h
    rcases hput : putPayload lib (some doc) with reply | payload
    · have hexec : Exec (storeSem lib.fold) (handle lib (.putConfig (some doc))) s reply s := by
        refine .op (r := s.config) ⟨rfl, rfl⟩ ?_
        simp only [hput]
        exact .done
      exact absurd (h _ _ hexec).1 (putPayload_refused hput)
    rcases hschedule : scheduleError lib s.config payload with _ | err
    · have hcommits : Commits lib (.putConfig (some doc)) s.config
          (applyPayload s.config payload) := ⟨payload, hput, hschedule, rfl⟩
      have hupdate := storeSem_update lib.fold noFaults (applyPayload s.config payload) s
      obtain ⟨-, hcfg⟩ := h _ _ ((comes_to_commit ⟨rfl, rfl⟩ hcommits).exec (.op hupdate .done))
      exact ⟨payload, rfl, hschedule, (config_of_update hupdate).symm.trans hcfg⟩
    · have hexec : Exec (storeSem lib.fold) (handle lib (.putConfig (some doc))) s
          (.badRequest err) s := by
        refine .op (r := s.config) ⟨rfl, rfl⟩ ?_
        simp only [hput, hschedule]
        exact .done
      exact absurd (h _ _ hexec).1 id
  · rintro ⟨payload, hput, hschedule, rfl⟩ reply t h
    rw [handle, handleConfig, exec_op] at h
    obtain ⟨before, u, ⟨hbefore, rfl⟩, hrest⟩ := h
    obtain rfl : before = u.config := hbefore
    simp only [hput, hschedule] at hrest
    obtain ⟨r, v, hupdate, hdone⟩ := exec_op.mp hrest
    obtain ⟨rfl, rfl⟩ := exec_done.mp hdone
    refine ⟨?_, config_of_update hupdate⟩
    obtain ⟨updated, _ | step⟩ := r
    · trivial
    · trivial

variable {b : Browser} {nilSlice : Bool} {ctl : Control} {cfg : StoredConfig} {answer : Json}
  {timeZone : String} {form : SettingsForm}

/-- A change of the form does not touch the settings it was filled from. -/
theorem currentConfig_change : (ctl.change form).currentConfig = form.currentConfig := by
  cases ctl <;> rfl

/-- Nor the switch. -/
theorem schedulerEnabled_change : (ctl.change form).schedulerEnabled = form.schedulerEnabled := by
  cases ctl <;> rfl

/-- No control changes the plan that the form shows. -/
theorem sentPlan_change : sentPlan (ctl.change form) = sentPlan form := by
  cases ctl <;> rfl

/-- The form remembers the settings it shows. -/
theorem currentConfig_shownForm : (shownForm nilSlice answer cfg form).currentConfig = answer := by
  rw [shownForm]
  split <;> rfl

/-- It shows the switch as it is. -/
theorem schedulerEnabled_shownForm :
    (shownForm nilSlice answer cfg form).schedulerEnabled = cfg.schedulerEnabled := by
  rw [shownForm]
  split <;> rfl

/-- An untouched form sends the plan shown. -/
theorem sentPlan_shownForm :
    sentPlan (shownForm nilSlice answer cfg form) = shownPlan nilSlice cfg.schedulerPlan := by
  rw [shownForm, shownPlan, sentPlan]
  by_cases hcron : cfg.schedulerPlan.mode = "cron"
  · simp only [if_pos hcron, if_true]
  · have hbasic : ¬ ("basic" : String) = "cron" := by decide
    simp only [if_neg hcron, if_neg hbasic]

/-- What `saveConfig` reads off the answer itself. -/
theorem prop_getConfig :
    prop "scan_interval_sec" (some (getConfig lib.fold timeZone cfg)) =
        some (.int cfg.scanIntervalSec.toInt) ∧
      prop "discord_webhook_configured" (some (getConfig lib.fold timeZone cfg)) =
        some (.bool (trimSpaceStr cfg.discordWebhookURL ≠ "")) ∧
      prop "discord_webhook_url" (some (getConfig lib.fold timeZone cfg)) = some (.str "") := by
  rw [getConfig, configResponse_eq]
  by_cases htz : trimSpaceStr timeZone = ""
  · simp [prop_obj, htz, List.lookup_cons]
  · simp [prop_obj, htz, List.lookup_cons]

/-- The interval that is sent is what the browser makes of the stored one. -/
theorem sentInterval_change (h : Normal cfg) :
    sentInterval b (ctl.change (shownForm nilSlice (getConfig lib.fold timeZone cfg) cfg form)) =
      b.rewrite cfg.scanIntervalSec.toInt := by
  obtain ⟨hinterval, -, -⟩ := @prop_getConfig lib cfg timeZone
  have hpos : 0 < cfg.scanIntervalSec.toInt :=
    Int64.lt_iff_toInt_lt.mp (Int64.not_le.mp h.interval)
  simp only [sentInterval, currentConfig_change, currentConfig_shownForm, hinterval, number_int]
  exact if_pos (b.rewrite_pos _ hpos)

/-- The webhook that is sent is that of its control, or one that keeps the stored one. -/
theorem sentWebhook_change :
    sentWebhook ctl.useWebhookInput
        (ctl.change (shownForm nilSlice (getConfig lib.fold timeZone cfg) cfg form)) =
      match ctl with
      | .webhook url => Js.trim (textInput url)
      | _ => if trimSpaceStr cfg.discordWebhookURL = "" then "" else "__keep__" := by
  obtain ⟨-, hconfigured, hurl⟩ := @prop_getConfig lib cfg timeZone
  simp only [sentWebhook, currentConfig_change, currentConfig_shownForm, hconfigured, hurl]
  cases ctl with
  | webhook url => rfl
  | _ =>
      by_cases hempty : trimSpaceStr cfg.discordWebhookURL = ""
      · simp [Control.useWebhookInput, hempty]
      · simp [Control.useWebhookInput, hempty]

/-- A payload whose webhook is that of a control is accepted, and its webhook is stored. -/
theorem webhook_of_control {payload : StoredConfig} (hctl : ctl.Offered lib)
    (hpayload : payload.discordWebhookURL = sentWebhook ctl.useWebhookInput
      (ctl.change (shownForm nilSlice (getConfig lib.fold timeZone cfg) cfg form))) :
    (webhookInput payload = "" ∨ webhookInput payload = discordWebhookKeepSentinel ∨
        webhookInput payload = discordWebhookClearSentinel ∨
        validateDiscordWebhookURL lib (webhookInput payload) = none) ∧
      storedWebhook cfg payload = (ctl.setting cfg).discordWebhookURL := by
  rw [sentWebhook_change] at hpayload
  cases ctl with
  | webhook url =>
      obtain ⟨hvalid, hkeep, hclear⟩ := hctl
      have hinput : webhookInput payload = Control.webhookValue url := by
        rw [webhookInput, hpayload]
        rfl
      have hne : Control.webhookValue url ≠ "" := by
        intro hempty
        rw [hempty] at hvalid
        cases hvalid
      rw [storedWebhook_eq, hinput, if_neg (not_or.mpr ⟨hne, hkeep⟩), if_neg hclear]
      exact ⟨.inr (.inr (.inr hvalid)), rfl⟩
  | _ =>
      by_cases hempty : trimSpaceStr cfg.discordWebhookURL = ""
      · have hinput : webhookInput payload = "" := by
          rw [webhookInput, hpayload]
          simp only [if_pos hempty]
          rfl
        rw [storedWebhook_eq, if_pos (.inl hinput)]
        exact ⟨.inl hinput, rfl⟩
      · have hinput : webhookInput payload = discordWebhookKeepSentinel := by
          rw [webhookInput, hpayload]
          simp only [if_neg hempty]
          decide
        rw [storedWebhook_eq, if_pos (.inr hinput)]
        exact ⟨.inr (.inl hinput), rfl⟩

/-- The payload of the form in which a control was changed. -/
def controlPayload (lib : Libraries) (b : Browser) (nilSlice : Bool) (timeZone : String)
    (ctl : Control) (cfg : StoredConfig) (form : SettingsForm) : StoredConfig :=
  sentPayload b ctl.useWebhookInput
    (ctl.change (shownForm nilSlice (getConfig lib.fold timeZone cfg) cfg form))

/-- The handler takes the payload, unless the browser has made the interval too large. -/
theorem putPayload_savedForm (h : Normal cfg) (hctl : ctl.Offered lib) (payload : StoredConfig) :
    putPayload lib (some (savedForm lib b nilSlice timeZone ctl cfg form)) = .ok payload ↔
      b.rewrite cfg.scanIntervalSec.toInt < 2 ^ 63 ∧
        controlPayload lib b nilSlice timeZone ctl cfg form = payload := by
  have hnormal : Normal { cfg with timeZone := trimSpaceStr timeZone } := { h with }
  have hform : ctl.change (refreshConfig nilSlice (getConfig lib.fold timeZone cfg) form) =
      ctl.change (shownForm nilSlice (getConfig lib.fold timeZone cfg) cfg form) :=
    congrArg ctl.change (refreshConfig_configResponse lib.fold hnormal nilSlice form)
  have hread : decodeBody (configCodec lib.fold)
      (some (savedForm lib b nilSlice timeZone ctl cfg form)) =
        if b.rewrite cfg.scanIntervalSec.toInt < 2 ^ 63 then
          some (controlPayload lib b nilSlice timeZone ctl cfg form)
        else none := by
    rw [savedForm, hform, decode_buildConfigPayload, sentInterval_change h]
    rfl
  by_cases hlt : b.rewrite cfg.scanIntervalSec.toInt < 2 ^ 63
  · rw [if_pos hlt] at hread
    rw [putPayload_of_decode hread (webhook_of_control hctl rfl).1, Except.ok.injEq]
    simp only [hlt, true_and]
  · rw [if_neg hlt] at hread
    simp only [putPayload, hread, hlt, false_and, reduceCtorEq]

/-- The policy that is stored: that of its control, or the old one if it is an option. -/
def savedPolicy (ctl : Control) (cfg : StoredConfig) : String :=
  repairPolicy
    (match ctl with
    | .globalPolicy value => value
    | _ => selectInput policyOptions cfg.globalPolicy)

/-- What no control stands for. -/
theorem setting_frame (ctl : Control) (cfg : StoredConfig) :
    (ctl.setting cfg).scanIntervalSec = cfg.scanIntervalSec ∧
      (ctl.setting cfg).schedulerEnabled = cfg.schedulerEnabled ∧
      (ctl.setting cfg).schedulerPlan = cfg.schedulerPlan ∧
      (ctl.setting cfg).timeZone = cfg.timeZone ∧
      (ctl.setting cfg).localServers = cfg.localServers ∧
      (ctl.setting cfg).remoteServers = cfg.remoteServers := by
  cases ctl <;> simp only [Control.setting, and_self]

/-- The plan it sends is one that is applied. -/
theorem planApplied_sentPlan {payload : StoredConfig} {plan : SchedulerPlan}
    (hplan : payload.schedulerPlan = shownPlan nilSlice plan) :
    shouldApplySchedulerPlan payload = true := by
  rw [shouldApplySchedulerPlan, hplan, shownPlan]
  split
  · simp
  · simp

/-- What the form sends besides the schedule, the interval and the webhook is the changed
setting, apart from the policy. -/
theorem change_shownForm (h : Normal cfg) :
    some (ctl.change (shownForm nilSlice answer cfg form)).discordEnabled =
        (ctl.setting cfg).discordNotificationsEnabled ∧
      some (ctl.change (shownForm nilSlice answer cfg form)).discordStartupNotify =
        (ctl.setting cfg).discordNotifyOnStart ∧
      some (ctl.change (shownForm nilSlice answer cfg form)).discordUpdateDetected =
        (ctl.setting cfg).discordNotifyOnUpdateDetected ∧
      some (ctl.change (shownForm nilSlice answer cfg form)).discordContainerUpdated =
        (ctl.setting cfg).discordNotifyOnContainerUpdated ∧
      (ctl.change (shownForm nilSlice answer cfg form)).updateStopped =
        (ctl.setting cfg).updateStoppedContainers ∧
      (ctl.change (shownForm nilSlice answer cfg form)).pruneDangling =
        (ctl.setting cfg).pruneDanglingImages ∧
      (ctl.change (shownForm nilSlice answer cfg form)).experimental =
        (ctl.setting cfg).experimentalFeatures ∧
      repairPolicy (ctl.change (shownForm nilSlice answer cfg form)).globalPolicy =
        savedPolicy ctl cfg := by
  obtain ⟨enabled, henabled⟩ := Option.ne_none_iff_exists'.mp h.notificationsEnabled
  obtain ⟨start, hstart⟩ := Option.ne_none_iff_exists'.mp h.notifyOnStart
  obtain ⟨detected, hdetected⟩ := Option.ne_none_iff_exists'.mp h.notifyOnUpdateDetected
  obtain ⟨updated, hupdated⟩ := Option.ne_none_iff_exists'.mp h.notifyOnContainerUpdated
  rw [shownForm]
  split
  · cases ctl <;>
      simp [Control.change, Control.setting, savedPolicy, henabled, hstart, hdetected, hupdated]
  · cases ctl <;>
      simp [Control.change, Control.setting, savedPolicy, henabled, hstart, hdetected, hupdated]

/-- **What is stored.** The changed setting, with the interval, the plan and the policy that the
form makes of the old ones. -/
theorem normalizeUpdated_controlPayload (h : Normal cfg) (hctl : ctl.Offered lib)
    (hlt : b.rewrite cfg.scanIntervalSec.toInt < 2 ^ 63) :
    normalizeUpdated
        (applyPayload cfg (controlPayload lib b nilSlice timeZone ctl cfg form) cfg) =
      { ctl.setting cfg with
        scanIntervalSec := Int64.ofInt (b.rewrite cfg.scanIntervalSec.toInt)
        schedulerPlan := shownPlan nilSlice cfg.schedulerPlan
        globalPolicy := savedPolicy ctl cfg } := by
  have hplan : (controlPayload lib b nilSlice timeZone ctl cfg form).schedulerPlan =
      shownPlan nilSlice cfg.schedulerPlan := sentPlan_change.trans sentPlan_shownForm
  have happly := planApplied_sentPlan hplan
  have hwebhook := (@webhook_of_control lib nilSlice ctl cfg timeZone form
    (controlPayload lib b nilSlice timeZone ctl cfg form) hctl rfl).2
  have hmode : repairPlan (shownPlan nilSlice cfg.schedulerPlan) =
      shownPlan nilSlice cfg.schedulerPlan := by
    refine if_neg ?_
    rw [shownPlan]
    split
    · simp
    · simp
  have hpos : 0 < b.rewrite cfg.scanIntervalSec.toInt :=
    b.rewrite_pos _ (Int64.lt_iff_toInt_lt.mp (Int64.not_le.mp h.interval))
  have hinterval : repairInterval (Int64.ofInt (b.rewrite cfg.scanIntervalSec.toInt)) =
      Int64.ofInt (b.rewrite cfg.scanIntervalSec.toInt) := by
    refine if_neg (Int64.not_le.mpr (Int64.lt_iff_toInt_lt.mpr ?_))
    rw [Int64.toInt_ofInt_of_le (by omega) hlt]
    exact hpos
  obtain ⟨henabled, hstart, hdetected, hupdated, hstopped, hprune, hexperimental, hpolicy⟩ :=
    @change_shownForm nilSlice ctl cfg (getConfig lib.fold timeZone cfg) form h
  obtain ⟨-, hscheduler, -, htimeZone, hlocals, hremotes⟩ := setting_frame ctl cfg
  rw [normalizeUpdated, applyPayload, if_pos happly, hwebhook, hplan]
  simp only [controlPayload, sentPayload, Option.some_or, repairFlag, Option.getD_some]
  simp only [hmode, schedulerEnabled_change, schedulerEnabled_shownForm, sentInterval_change h,
    hinterval, repairFeatures_eq, henabled, hstart, hdetected, hupdated, hstopped, hprune,
    hexperimental, hpolicy, hscheduler, htimeZone, hlocals, hremotes]

/-- The policy is stored as it should be exactly if it is that of the control or an option. -/
theorem savedPolicy_eq_iff (h : Normal cfg) (hctl : ctl.Offered lib) :
    savedPolicy ctl cfg = (ctl.setting cfg).globalPolicy ↔
      ctl.SetsPolicy ∨ cfg.globalPolicy ∈ policyOptions := by
  have hshown : repairPolicy (selectInput policyOptions cfg.globalPolicy) = cfg.globalPolicy ↔
      cfg.globalPolicy ∈ policyOptions := by
    rw [selectInput]
    split
    · rename_i hmem
      exact iff_of_true (if_neg h.policy) hmem
    · rename_i hmem
      refine iff_of_false (fun heq => hmem ?_) hmem
      rw [← heq]
      decide
  cases ctl with
  | globalPolicy value =>
      have hmem : value ∈ policyOptions := hctl
      have hne : value ≠ "" := ne_of_mem_of_not_mem hmem (by decide)
      exact iff_of_true (if_neg hne) (.inl trivial)
  | _ =>
      simp only [savedPolicy, Control.setting, Control.SetsPolicy, false_or]
      exact hshown

/-- What saving the form does. -/
theorem savesAs_savedForm_iff {s : Store} (h : Normal s.config) (hctl : ctl.Offered lib) :
    SavesAs lib s (savedForm lib b nilSlice timeZone ctl s.config form) cfg ↔
      b.rewrite s.config.scanIntervalSec.toInt < 2 ^ 63 ∧
        scheduleError lib s.config
          (controlPayload lib b nilSlice timeZone ctl s.config form) = none ∧
        { ctl.setting s.config with
          scanIntervalSec := Int64.ofInt (b.rewrite s.config.scanIntervalSec.toInt)
          schedulerPlan := shownPlan nilSlice s.config.schedulerPlan
          globalPolicy := savedPolicy ctl s.config } = cfg := by
  simp only [savesAs_iff, putPayload_savedForm h hctl]
  constructor
  · rintro ⟨payload, ⟨hlt, rfl⟩, hschedule, hcfg⟩
    rw [normalizeUpdated_controlPayload h hctl hlt] at hcfg
    exact ⟨hlt, hschedule, hcfg⟩
  · rintro ⟨hlt, hschedule, hcfg⟩
    rw [← normalizeUpdated_controlPayload h hctl hlt] at hcfg
    exact ⟨_, ⟨hlt, rfl⟩, hschedule, hcfg⟩

/-- **Saving the form.** For every configuration that is reached, saving the form after at most one
control was changed stores this change alone exactly if the form can show the plan of the
scheduler, the browser keeps the interval, the policy is an option or is the one changed, and an
enabled scheduler has a plan that can be built. -/
theorem saved_settings_iff {s : Store} (h : ReachableStore lib s) (hctl : ctl.Offered lib) :
    SavesAs lib s (savedForm lib b nilSlice timeZone ctl s.config form) (ctl.setting s.config) ↔
      SavedWhole lib b nilSlice ctl s.config := by
  have hnormal := normal_of_reachableStore h
  have hplan : (controlPayload lib b nilSlice timeZone ctl s.config form).schedulerPlan =
      shownPlan nilSlice s.config.schedulerPlan := sentPlan_change.trans sentPlan_shownForm
  have henabled : (controlPayload lib b nilSlice timeZone ctl s.config form).schedulerEnabled =
      s.config.schedulerEnabled := schedulerEnabled_change.trans schedulerEnabled_shownForm
  have hpos : 0 < b.rewrite s.config.scanIntervalSec.toInt :=
    b.rewrite_pos _ (Int64.lt_iff_toInt_lt.mp (Int64.not_le.mp hnormal.interval))
  obtain ⟨hscan, -, hsettingPlan, -⟩ := setting_frame ctl s.config
  rw [savesAs_savedForm_iff hnormal hctl]
  constructor
  · rintro ⟨hlt, hschedule, hcfg⟩
    have hinterval := (congrArg StoredConfig.scanIntervalSec hcfg).trans hscan
    have hshown := (congrArg StoredConfig.schedulerPlan hcfg).trans hsettingPlan
    have hpolicy := congrArg StoredConfig.globalPolicy hcfg
    refine ⟨shownPlan_eq_self_iff.mp hshown, ?_, (savedPolicy_eq_iff hnormal hctl).mp hpolicy, ?_⟩
    · rw [← Int64.toInt_ofInt_of_le (Int.le_trans (by decide) hpos.le) hlt]
      exact congrArg Int64.toInt hinterval
    · rw [← henabled]
      exact (scheduleError_eq_none_iff (planApplied_sentPlan hplan)
        (hshown.symm.trans hplan.symm)).mp hschedule
  · rintro ⟨hshown, hinterval, hpolicy, haccepted⟩
    replace hshown := shownPlan_eq_self_iff.mpr hshown
    refine ⟨?_, ?_, ?_⟩
    · rw [hinterval]
      exact s.config.scanIntervalSec.toInt_lt
    · refine (scheduleError_eq_none_iff (planApplied_sentPlan hplan)
        (hshown.symm.trans hplan.symm)).mpr ?_
      rw [henabled]
      exact haccepted
    · rw [(savedPolicy_eq_iff hnormal hctl).mpr hpolicy, hinterval, Int64.ofInt_toInt, hshown,
        ← hscan, ← hsettingPlan]

/-! ### Two forms -/

/-- A browser that keeps the numbers of the documents. -/
def exactBrowser : Browser where
  rewrite := id
  rewrite_safe _ _ := rfl
  rewrite_pos _ h := h

/-- The form of a page that was just opened. -/
def blankForm : SettingsForm where
  currentConfig := .null
  schedulerEnabled := false
  globalPolicy := policyNotifyOnly
  discordURL := ""
  discordEnabled := false
  discordStartupNotify := false
  discordUpdateDetected := false
  discordContainerUpdated := false
  updateStopped := false
  pruneDangling := false
  experimental := noFeatures
  schedulerMode := "basic"
  schedulerDays := []
  schedulerTime := ""
  schedulerCron := ""

/-- **A click that replaces a plan.** With the default configuration, which has a plan of the
legacy mode, asking for updates of stopped containers stores a basic plan. -/
theorem toggle_replaces_plan : ∃ s, ReachableStore sampleLibraries s ∧
    s.config.schedulerPlan = defaultConfig.schedulerPlan ∧
    SavesAs sampleLibraries s
      (savedForm sampleLibraries exactBrowser true "UTC" (.updateStopped true) s.config blankForm)
      { s.config with
        updateStoppedContainers := true
        schedulerPlan :=
          { mode := "basic", basic := some ⟨[1, 2, 3, 4, 5], "03:00"⟩, cron := none } } ∧
    ¬ SavesAs sampleLibraries s
      (savedForm sampleLibraries exactBrowser true "UTC" (.updateStopped true) s.config blankForm)
      { s.config with updateStoppedContainers := true } := by
  have hstarted : Started sampleLibraries.fold createdStore :=
    ⟨_, _, _, _, _, newStore_created, .inl rfl⟩
  have hreached : ReachableStore sampleLibraries createdStore :=
    ⟨createdStore, [], _, hstarted, .nil, rfl⟩
  have hnormal := normal_of_reachableStore hreached
  have hoffered : Control.Offered sampleLibraries (.updateStopped true) := trivial
  refine ⟨createdStore, hreached, rfl, ?_, ?_⟩
  · refine (savesAs_savedForm_iff hnormal hoffered).mpr ⟨?_, ?_, ?_⟩
    · decide
    · decide
    · decide
  · intro h
    obtain ⟨-, -, hcfg⟩ := (savesAs_savedForm_iff hnormal hoffered).mp h
    exact absurd hcfg (by decide)

/-- `PUT /api/config` with a cron plan. -/
def cronPayload : StoredConfig :=
  { zeroConfig with
    schedulerPlan := { mode := "cron", basic := none, cron := some ⟨"0 3 * * *"⟩ } }

/-- A configuration with a cron plan is saved with the change of one control. -/
theorem cron_plan_saved : ∃ s, ReachableStore sampleLibraries s ∧
    s.config.schedulerPlan = cronPayload.schedulerPlan ∧
    SavesAs sampleLibraries s
      (savedForm sampleLibraries exactBrowser true "UTC" (.updateStopped true) s.config blankForm)
      { s.config with updateStoppedContainers := true } := by
  have hcommits : Commits sampleLibraries
      (.putConfig (some ((configCodec sampleLibraries.fold).encode cronPayload)))
      createdStore.config (applyPayload createdStore.config cronPayload) :=
    ⟨cronPayload, by decide, by decide, rfl⟩
  have hstarted : Started sampleLibraries.fold createdStore :=
    ⟨_, _, _, _, _, newStore_created, .inl rfl⟩
  obtain ⟨es, q, hrun, hstate⟩ := run_request (C := fun _ _ => True) hcommits
    (storeSem_update _ noFaults _ _) trivial trivial trivial
  have hreached : ReachableStore sampleLibraries q.state :=
    ⟨createdStore, es, q, hstarted, hrun.mono And.left, rfl⟩
  have hconfig : q.state.config =
      normalizeUpdated (applyPayload createdStore.config cronPayload createdStore.config) := by
    rw [hstate]
    rfl
  have hoffered : Control.Offered sampleLibraries (.updateStopped true) := trivial
  have hwhole : SavedWhole sampleLibraries exactBrowser true (.updateStopped true)
      q.state.config := by
    rw [hconfig]
    refine ⟨.inl ⟨?_, ?_, "0 3 * * *", ?_, ?_⟩, rfl, .inr ?_, ?_⟩
    all_goals decide +kernel
  refine ⟨q.state, hreached, ?_, (saved_settings_iff hreached hoffered).mpr hwhole⟩
  rw [hconfig]
  decide

end

end Contiwatch
