import Contiwatch.ConfigRestart
import Contiwatch.KeptSecrets

/-!
# Policies for Agents

`syncRemotePolicy` of `internal/server/server.go` gives an agent the policy of its controller: it
gets the agent's configuration, which comes without secrets, changes the policy in it, and puts it
back. The handlers of the agent are those of the controller.

## Main results

* `decode_configResponse` — the configuration that the controller reads off the agent's answer.
* `run_sync` — a sync that is completed has changed the policy of the agent and nothing else, and
  another one makes no `PUT`.
-/

namespace Contiwatch

open GoStrings GoJson Prog

/-! ### The answer to `GET /api/config` -/

/-- `remoteServerResponse`. -/
structure RemoteServerResponse where
  name : String
  url : String
  token : String
  tokenConfigured : Bool
  publicIP : String
  maintenance : Bool

/-- The element of `sanitizeRemoteServersForResponse`. -/
def sanitizeRemoteServer (item : RemoteEntry) : RemoteServerResponse where
  name := item.name
  url := item.url
  token := ""
  tokenConfigured := trimSpaceStr item.token ≠ ""
  publicIP := item.publicIP
  maintenance := item.maintenance

/-- `sanitizeConfigForResponse`, before the servers: the webhook is left out. -/
def sanitizeConfig (cfg : StoredConfig) : StoredConfig := { cfg with discordWebhookURL := "" }

section

variable (fold : Char → Char)

/-- The JSON form of `remoteServerResponse`. -/
def remoteServerResponseCodec : Codec RemoteServerResponse :=
  structCodec fold ⟨"", "", "", false, "", false⟩
    [field "name" stringCodec (·.name) fun v t => { t with name := v },
      field "url" stringCodec (·.url) fun v t => { t with url := v },
      omitempty "token" stringCodec (·.token) (fun v t => { t with token := v }) fun _ => rfl,
      field "token_configured" boolCodec (·.tokenConfigured)
        fun v t => { t with tokenConfigured := v },
      omitempty "public_ip" stringCodec (·.publicIP) (fun v t => { t with publicIP := v })
        fun _ => rfl,
      field "maintenance" boolCodec (·.maintenance) fun v t => { t with maintenance := v }]
    (by simp) (by simp)

/-- The JSON form of `configResponse`. The list of servers hides the one of the embedded
configuration, which has the same key. -/
def configResponse (cfg : StoredConfig) : Json :=
  .obj ((objectMembers ((configCodec fold).encode (sanitizeConfig cfg))).filter
      (fun m => m.1 ≠ "remote_servers") ++
    [("remote_servers",
      (sliceCodec (remoteServerResponseCodec fold)).encode
        (cfg.remoteServers.map sanitizeRemoteServer)),
      ("discord_webhook_configured", .bool (trimSpaceStr cfg.discordWebhookURL ≠ ""))])

/-- The answer of `handleConfig` to `GET`; `timeZone` is that of the environment. -/
def getConfig (timeZone : String) (cfg : StoredConfig) : Json :=
  configResponse fold { cfg with timeZone := trimSpaceStr timeZone }

/-- What is left of a configuration that is read off the answer. -/
def redact (cfg : StoredConfig) : StoredConfig :=
  { cfg with
    discordWebhookURL := ""
    remoteServers := cfg.remoteServers.map fun srv => { srv with token := "" } }

/-- The controller reads a server of the answer as the server without its token. -/
theorem decode_remoteServerResponse (item : RemoteEntry) :
    (remoteServerCodec fold).decode
        ((remoteServerResponseCodec fold).encode (sanitizeRemoteServer item))
        (remoteServerCodec fold).zero = some { item with token := "" } := by
  have hunknown (t : RemoteEntry) (b : Bool) : readMember fold
      [field "name" stringCodec (·.name) fun v t => { t with name := v },
        field "url" stringCodec (·.url) fun v t => { t with url := v },
        field "token" stringCodec (·.token) fun v t => { t with token := v },
        omitempty "public_ip" stringCodec (·.publicIP) (fun v t => { t with publicIP := v })
          fun _ => rfl,
        field "maintenance" boolCodec (·.maintenance) fun v t => { t with maintenance := v }]
      t ("token_configured", boolCodec.encode b) = some t :=
    readMember_of_length fold (by simp) t _
  have hzero : (remoteServerCodec fold).zero =
      { name := "", url := "", token := "", maintenance := false, publicIP := "" } := rfl
  change (members _ (sanitizeRemoteServer item)).foldlM (readMember fold _) _ = _
  by_cases hip : item.publicIP = ""
  · simp only [members_field, members_omitempty, members_nil, sanitizeRemoteServer, hip,
      stringCodec_zero, if_true, List.foldlM_cons, List.foldlM_nil, hunknown]
    simp [readMember, findField, hzero]
  · simp only [members_field, members_omitempty, members_nil, sanitizeRemoteServer, hip,
      stringCodec_zero, if_true, if_false, List.foldlM_cons, List.foldlM_nil, hunknown]
    simp [readMember, findField, hzero]

/-- **What the controller reads.** The answer is read as the configuration without its secrets. -/
theorem decode_configResponse (cfg : StoredConfig) :
    (configCodec fold).decode (configResponse fold cfg) zeroConfig = some (redact cfg) := by
  have hservers := decode_sliceCodec (decode_remoteServerResponse fold) cfg.remoteServers []
  refine (decode_embedded fold (c := configCodec fold) rfl
    (f := field "remote_servers" (sliceCodec (remoteServerCodec fold)) (·.remoteServers)
      fun v t => { t with remoteServers := v }) ?_ (s := sanitizeConfig cfg)
    { sanitizeConfig cfg with remoteServers := [] } rfl ?_ ?_ _ _).trans ?_
  · simp
  · simp [zeroConfig, boolPtrCodec, schedulerPlanCodec, experimentalFeaturesCodec, structCodec,
      sanitizeConfig]
  · simp
  · simp [field, hservers, sanitizeConfig, redact]

end

/-! ### Syncing an agent -/

/-- The requests of a sync. -/
inductive AgentOp
  | getConfig
  | putConfig (body : Json)

/-- What comes of them: an error of the client, or a status. The body of an answer to `GET` may
be no JSON document. -/
def AgentOp.Res : AgentOp → Type
  | .getConfig => Except String (ℕ × Option Json)
  | .putConfig _ => Except String ℕ

/-- The status of an answer that is taken for a success. -/
def StatusOk (status : ℕ) : Prop := 200 ≤ status ∧ status < 300

instance (status : ℕ) : Decidable (StatusOk status) := inferInstanceAs (Decidable (_ ∧ _))

/-- `syncRemotePolicy`: whether the policy was changed, or an error. -/
def syncRemotePolicy (fold : Char → Char) (cfg : StoredConfig) (remote : RemoteEntry) :
    Prog AgentOp.Res (Except String Bool) :=
  if remote.url = "" then .done (.error "missing url")
  else .op .getConfig fun
    | .error err => .done (.error err)
    | .ok (status, body) =>
        if ¬ StatusOk status then .done (.error ("status " ++ toString status))
        else
          match decodeBody (configCodec fold) body with
          | none => .done (.error "invalid JSON")
          | some payload =>
              if payload.globalPolicy = cfg.globalPolicy then .done (.ok false)
              else
                let payload := { payload with globalPolicy := cfg.globalPolicy }
                .op (.putConfig ((configCodec fold).encode payload)) fun
                  | .error err => .done (.error err)
                  | .ok status =>
                      if ¬ StatusOk status then .done (.error ("status " ++ toString status))
                      else .done (.ok true)

/-- An agent, with the number of `PUT` requests that were made to it. -/
structure Agent where
  store : Store
  puts : ℕ

/-- How an agent answers. A request may be lost or refused on its way, and so may its answer; an
answer with a status of success is the answer of the agent's handler. -/
inductive AgentAnswers (lib : Libraries) (timeZone : String) :
    (o : AgentOp) → Agent → o.Res → Agent → Prop
  | getLost {a : Agent} {err : String} : AgentAnswers lib timeZone .getConfig a (.error err) a
  | getRefused {a : Agent} {status : ℕ} {body : Option Json} (hstatus : ¬ StatusOk status) :
      AgentAnswers lib timeZone .getConfig a (.ok (status, body)) a
  | getTorn {a : Agent} {status : ℕ} : AgentAnswers lib timeZone .getConfig a (.ok (status, none)) a
  | get {a : Agent} {status : ℕ} :
      AgentAnswers lib timeZone .getConfig a
        (.ok (status, some (getConfig lib.fold timeZone a.store.get))) a
  | putRefused {a : Agent} {body : Json} {r : Except String ℕ}
      (hr : ∀ status, r = .ok status → ¬ StatusOk status) :
      AgentAnswers lib timeZone (.putConfig body) a r { a with puts := a.puts + 1 }
  | put {a : Agent} {body : Json} {r : Except String ℕ} {reply : SettingsReply} {t : Store}
      (hexec : Exec (storeSem lib.fold) (handle lib (.putConfig (some body))) a.store reply t)
      (hr : ∀ status, r = .ok status → StatusOk status → ∃ cfg, reply = .ok cfg) :
      AgentAnswers lib timeZone (.putConfig body) a r ⟨t, a.puts + 1⟩

/-! ### ReachableStore configurations -/

/-- What `main` makes of the configuration of an agent that has no local server, when there is a
socket. -/
def addDefaultLocal (cfg : StoredConfig) : StoredConfig :=
  { cfg with
    localServers :=
      [{ name := "local"
         socket := "/var/run/docker.sock"
         maintenance := false
         publicIP := "" }] }

/-- The store of a controller or an agent when it begins to serve requests. -/
def Started (fold : Char → Char) (s : Store) : Prop :=
  ∃ fails faults path disk s₀, newStore fold fails faults path disk = .ok s₀ ∧
    (s = s₀ ∨ (s₀.config.localServers = [] ∧ ∃ r, storeSem fold (.update addDefaultLocal) s₀ r s))

/-- The store after some requests. -/
def ReachableStore (lib : Libraries) (s : Store) : Prop :=
  ∃ s₀ es q, Started lib.fold s₀ ∧ Run (settingsStep lib) ⟨s₀, []⟩ es q ∧ q.state = s

/-- A store that has started holds a normal configuration. -/
theorem normal_of_started {fold : Char → Char} {s : Store} (h : Started fold s) :
    Normal s.config := by
  obtain ⟨fails, faults, path, disk, s₀, hnew, hboot⟩ := h
  have hnormal : Normal s₀.config := by
    rcases newStore_cases hnew with hload | ⟨hdefault, -⟩
    · exact normal_of_load fold hload
    · exact hdefault ▸ normal_defaultConfig
  rcases hboot with rfl | ⟨-, r, hupdate⟩
  · exact hnormal
  · rw [config_of_update hupdate]
    exact normal_normalizeUpdated hnormal.notifyOnUpdateDetected hnormal.notifyOnContainerUpdated

section

variable {lib : Libraries}

/-- A configuration that is reached needs no repair. -/
theorem normal_of_reachableStore {s : Store} (h : ReachableStore lib s) : Normal s.config := by
  obtain ⟨s₀, es, q, hstart, hrun, rfl⟩ := h
  exact run_config normal_of_commits (normal_of_started hstart) hrun

/-- A configuration that needs no repair is not repaired. -/
theorem normalizeUpdated_of_normal {cfg : StoredConfig} (h : Normal cfg) :
    normalizeUpdated cfg = cfg := by
  rw [normalizeUpdated, repairInterval, if_neg h.interval, repairPlan, if_neg h.mode,
    repairPolicy, if_neg h.policy, repairFlag_of_ne h.notificationsEnabled,
    repairFlag_of_ne h.notifyOnStart, repairFeatures_eq]

/-- The payload of a sync. -/
def syncPayload (timeZone : String) (cfg : StoredConfig) (policy : String) : StoredConfig :=
  { redact { cfg with timeZone := trimSpaceStr timeZone } with globalPolicy := policy }

/-- **What the payload of a sync does.** Put back, it changes the policy alone. -/
theorem normalizeUpdated_syncPayload {cfg : StoredConfig} {timeZone policy : String}
    (h : Normal cfg) (hpolicy : policy ≠ "") :
    normalizeUpdated (applyPayload cfg (syncPayload timeZone cfg policy) cfg) =
      { cfg with globalPolicy := policy } := by
  have hempty : webhookInput (syncPayload timeZone cfg policy) = "" := rfl
  have happlied : applyPayload cfg (syncPayload timeZone cfg policy) cfg =
      { cfg with globalPolicy := policy } := by
    have hwebhook : storedWebhook cfg (syncPayload timeZone cfg policy) =
        cfg.discordWebhookURL := by
      rw [storedWebhook_eq, if_pos (Or.inl hempty)]
    have hplan : (if shouldApplySchedulerPlan (syncPayload timeZone cfg policy) then
        (syncPayload timeZone cfg policy).schedulerPlan else cfg.schedulerPlan) =
        cfg.schedulerPlan := ite_self _
    rw [applyPayload, hwebhook, hplan]
    simp only [syncPayload, redact, Option.or_self]
  rw [happlied]
  exact normalizeUpdated_of_normal { h with policy := hpolicy }

/-- A body that is refused is not answered with a configuration. -/
theorem putPayload_error {body : Option Json} {reply : SettingsReply}
    (h : putPayload lib body = .error reply) (cfg : StoredConfig) : reply ≠ .ok cfg := by
  rintro rfl
  rw [putPayload] at h
  split at h
  · cases h
  · simp only at h
    split at h
    · cases h
    · split at h
      · cases h
      · cases h

/-- A body that is accepted is read as what it was written from. -/
theorem putPayload_encode {cfg payload : StoredConfig}
    (h : putPayload lib (some ((configCodec lib.fold).encode cfg)) = .ok payload) :
    payload = cfg := by
  have hdecode : decodeBody (configCodec lib.fold) (some ((configCodec lib.fold).encode cfg)) =
      some cfg := (configCodec lib.fold).decode_encode cfg
  rw [putPayload, hdecode] at h
  simp only at h
  split at h
  · exact (Except.ok.inj h).symm
  · split at h
    · cases h
    · exact (Except.ok.inj h).symm

/-- A `PUT` that is answered with a configuration has applied its payload. -/
theorem config_of_put {payload cfg : StoredConfig} {s t : Store}
    (h : Exec (storeSem lib.fold)
      (handle lib (.putConfig (some ((configCodec lib.fold).encode payload)))) s (.ok cfg) t) :
    t.config = normalizeUpdated (applyPayload s.config payload s.config) := by
  rw [handle, handleConfig, exec_op] at h
  obtain ⟨before, u, ⟨rfl, rfl⟩, hrest⟩ := h
  rcases hput : putPayload lib (some ((configCodec lib.fold).encode payload)) with reply | read
  · rw [hput] at hrest
    exact absurd (exec_done.mp hrest).1.symm (putPayload_error hput cfg)
  obtain rfl := putPayload_encode hput
  rw [hput] at hrest
  simp only at hrest
  split at hrest
  · cases (exec_done.mp hrest).1
  · rw [commit, exec_op] at hrest
    obtain ⟨r, v, hupdate, hdone⟩ := hrest
    obtain ⟨-, rfl⟩ := exec_done.mp hdone
    exact config_of_update hupdate

variable {timeZone : String} {controller : StoredConfig} {remote : RemoteEntry}

/-- A `GET` changes nothing. -/
theorem agentAnswers_get_same {a b : Agent} {r : AgentOp.getConfig.Res}
    (h : AgentAnswers lib timeZone .getConfig a r b) : b = a := by
  cases h <;> rfl

/-- What is read off an answer is the configuration of the agent. -/
theorem agentAnswers_get_read {a b : Agent} {status : ℕ} {body : Option Json}
    {payload : StoredConfig} (h : AgentAnswers lib timeZone .getConfig a (.ok (status, body)) b)
    (hstatus : StatusOk status) (hread : decodeBody (configCodec lib.fold) body = some payload) :
    payload = syncPayload timeZone a.store.config a.store.config.globalPolicy := by
  cases h with
  | getRefused hrefused => exact absurd hstatus hrefused
  | getTorn => cases hread
  | get =>
      have hdecode := decode_configResponse lib.fold
        { a.store.config with timeZone := trimSpaceStr timeZone }
      exact (Option.some.inj (hdecode.symm.trans hread)).symm

/-- **What a sync does.** It makes no `PUT`, because of an error or because the policy is the
same; or it puts the configuration back with the policy of the controller. -/
theorem sync_cases {a b : Agent} {reply : Except String Bool}
    (h : Exec (AgentAnswers lib timeZone) (syncRemotePolicy lib.fold controller remote) a
      reply b) :
    (b = a ∧ ∀ changed, reply = .ok changed →
      a.store.config.globalPolicy = controller.globalPolicy) ∨
    (a.store.config.globalPolicy ≠ controller.globalPolicy ∧
      ∃ r, AgentAnswers lib timeZone (.putConfig ((configCodec lib.fold).encode
        (syncPayload timeZone a.store.config controller.globalPolicy))) a r b ∧
        ∀ changed, reply = .ok changed → ∃ status, r = .ok status ∧ StatusOk status) := by
  rw [syncRemotePolicy] at h
  split at h
  · obtain ⟨rfl, rfl⟩ := exec_done.mp h
    exact .inl ⟨rfl, nofun⟩
  obtain ⟨r, u, hget, hrest⟩ := exec_op.mp h
  rcases r with err | ⟨status, body⟩
  · obtain ⟨rfl, rfl⟩ := exec_done.mp hrest
    cases hget
    exact .inl ⟨rfl, nofun⟩
  simp only at hrest
  split at hrest
  · obtain ⟨rfl, rfl⟩ := exec_done.mp hrest
    exact .inl ⟨agentAnswers_get_same hget, nofun⟩
  rename_i hstatus
  rcases hread : decodeBody (configCodec lib.fold) body with _ | payload
  · rw [hread] at hrest
    obtain ⟨rfl, rfl⟩ := exec_done.mp hrest
    exact .inl ⟨agentAnswers_get_same hget, nofun⟩
  rw [hread] at hrest
  obtain rfl := agentAnswers_get_same hget
  obtain rfl := agentAnswers_get_read hget (not_not.mp hstatus) hread
  simp only at hrest
  split at hrest
  · rename_i hsame
    obtain ⟨-, rfl⟩ := exec_done.mp hrest
    exact .inl ⟨rfl, fun _ _ => hsame⟩
  · rename_i hdiffer
    obtain ⟨r, v, hput, hend⟩ := exec_op.mp hrest
    refine .inr ⟨hdiffer, r, ?_⟩
    rcases r with err | status
    · obtain ⟨rfl, rfl⟩ := exec_done.mp hend
      exact ⟨hput, nofun⟩
    simp only at hend
    split at hend
    · obtain ⟨rfl, rfl⟩ := exec_done.mp hend
      exact ⟨hput, nofun⟩
    · rename_i hok
      obtain ⟨-, rfl⟩ := exec_done.mp hend
      exact ⟨hput, fun _ _ => ⟨status, rfl, not_not.mp hok⟩⟩

/-- **A completed sync** has changed the policy of the agent and nothing else. -/
theorem config_of_sync {a b : Agent} {changed : Bool} (hnormal : Normal a.store.config)
    (hpolicy : controller.globalPolicy ≠ "")
    (h : Exec (AgentAnswers lib timeZone) (syncRemotePolicy lib.fold controller remote) a
      (.ok changed) b) :
    b.store.config = { a.store.config with globalPolicy := controller.globalPolicy } := by
  obtain ⟨rfl, hsame⟩ | ⟨-, r, hput, hok⟩ := sync_cases h
  · rw [← hsame changed rfl]
  · obtain ⟨status, rfl, hstatus⟩ := hok changed rfl
    cases hput with
    | putRefused hr => exact absurd hstatus (hr status rfl)
    | put hexec hr =>
        obtain ⟨cfg, rfl⟩ := hr status rfl hstatus
        rw [config_of_put hexec]
        exact normalizeUpdated_syncPayload hnormal hpolicy

/-- **Syncing a reachable agent.** After any requests to an agent and to its controller, a completed
sync leaves the configuration of the agent as it was, with the policy of the controller. Another
sync with this policy then makes no `PUT`. -/
theorem run_sync {s c : Store} {a b : Agent} {changed : Bool} (hagent : ReachableStore lib s)
    (hcontroller : ReachableStore lib c) (ha : a.store = s)
    (h : Exec (AgentAnswers lib timeZone) (syncRemotePolicy lib.fold c.get remote) a
      (.ok changed) b) :
    b.store.get = { a.store.get with globalPolicy := c.get.globalPolicy } ∧
      ∀ controller remote reply u, StoredConfig.globalPolicy controller = c.get.globalPolicy →
        Exec (AgentAnswers lib timeZone) (syncRemotePolicy lib.fold controller remote) b reply u →
        u.puts = b.puts ∧ u.store = b.store := by
  subst ha
  have hconfig : b.store.config = { a.store.config with globalPolicy := c.config.globalPolicy } :=
    config_of_sync (normal_of_reachableStore hagent) (normal_of_reachableStore hcontroller).policy h
  refine ⟨hconfig, fun controller remote reply u hpolicy hagain => ?_⟩
  obtain ⟨rfl, -⟩ | ⟨hdiffer, -⟩ := sync_cases hagain
  · exact ⟨rfl, rfl⟩
  · refine absurd ?_ hdiffer
    rw [hconfig, hpolicy]
    rfl

/-- A sync whose requests are answered. -/
theorem exec_sync {a : Agent} {t : Store} {cfg : StoredConfig} (hurl : remote.url ≠ "")
    (hdiffer : a.store.config.globalPolicy ≠ controller.globalPolicy)
    (hput : Exec (storeSem lib.fold) (handle lib (.putConfig (some ((configCodec lib.fold).encode
      (syncPayload timeZone a.store.config controller.globalPolicy))))) a.store (.ok cfg) t) :
    Exec (AgentAnswers lib timeZone) (syncRemotePolicy lib.fold controller remote) a (.ok true)
      ⟨t, a.puts + 1⟩ := by
  have hok : StatusOk 200 := by decide
  have hread : decodeBody (configCodec lib.fold)
      (some (getConfig lib.fold timeZone a.store.config)) =
        some (syncPayload timeZone a.store.config a.store.config.globalPolicy) :=
    decode_configResponse lib.fold { a.store.config with timeZone := trimSpaceStr timeZone }
  rw [syncRemotePolicy, if_neg hurl]
  refine .op (r := .ok (200, _)) .get ?_
  simp only [Store.get, hread, hok, not_true_eq_false, if_false]
  have hsync : ¬ (syncPayload timeZone a.store.config
      a.store.config.globalPolicy).globalPolicy = controller.globalPolicy := hdiffer
  rw [if_neg hsync]
  refine .op (r := .ok 200) (.put hput fun _ _ _ => ⟨cfg, rfl⟩) ?_
  simp only [hok, not_true_eq_false, if_false]
  exact .done

/-- `PUT /api/config` that an agent got before: a webhook, no notifications about the start, and
images and stopped containers are looked after. -/
def agentSettings : SettingsRequest :=
  .putConfig (some (.obj [("global_policy", .str "update"),
    ("discord_webhook_url", .str "https://discord.com/api/webhooks/1/abc"),
    ("discord_notifications_enabled", .bool true), ("discord_notify_on_start", .bool false),
    ("update_stopped_containers", .bool true), ("prune_dangling_images", .bool true)]))

/-- The payload of `agentSettings`. -/
def agentPayload : StoredConfig :=
  { zeroConfig with
    globalPolicy := policyUpdate
    discordWebhookURL := "https://discord.com/api/webhooks/1/abc"
    discordNotificationsEnabled := some true
    discordNotifyOnStart := some false
    updateStoppedContainers := true
    pruneDanglingImages := true }

/-- A configured agent. -/
def configuredAgent : Store :=
  (createdStore.update Char.toLower noFaults (applyPayload createdStore.config agentPayload)).2

/-- The sample agent is one that can be reached. -/
theorem reachable_configuredAgent : ReachableStore sampleLibraries configuredAgent := by
  have hcommits : Commits sampleLibraries agentSettings createdStore.config
      (applyPayload createdStore.config agentPayload) :=
    ⟨agentPayload, by decide, by decide, rfl⟩
  obtain ⟨es, q, hrun, hstate⟩ := run_request (C := fun _ _ => True) hcommits
    (storeSem_update _ noFaults _ _) trivial trivial trivial
  exact ⟨createdStore, es, q, ⟨_, _, _, _, _, newStore_created, .inl rfl⟩,
    hrun.mono And.left, hstate⟩

/-- A controller whose policy was changed gives it to an agent with settings of its own, which keeps
the others. -/
theorem run_sync_configured : ∃ c t, ReachableStore sampleLibraries c ∧
    c.get.globalPolicy = policySkip ∧ configuredAgent.get.globalPolicy = policyUpdate ∧
    configuredAgent.get.discordWebhookURL = "https://discord.com/api/webhooks/1/abc" ∧
    configuredAgent.get.pruneDanglingImages = true ∧
    Exec (AgentAnswers sampleLibraries "UTC")
      (syncRemotePolicy sampleLibraries.fold c.get agentEntry) ⟨configuredAgent, 0⟩ (.ok true)
      ⟨t, 1⟩ ∧
    t.get = { configuredAgent.get with globalPolicy := policySkip } := by
  have hcommits : Commits sampleLibraries keepWebhook createdStore.config
      (applyPayload createdStore.config keepPayload) :=
    ⟨keepPayload, by decide, by decide, rfl⟩
  have hstarted : Started sampleLibraries.fold createdStore :=
    ⟨_, _, _, _, _, newStore_created, .inl rfl⟩
  obtain ⟨es, q, hrun, hstate⟩ := run_request (C := fun _ _ => True) hcommits
    (storeSem_update _ noFaults _ _) trivial trivial trivial
  have hcontroller : ReachableStore sampleLibraries q.state :=
    ⟨createdStore, es, q, hstarted, hrun.mono And.left, rfl⟩
  have hpolicy : q.state.config.globalPolicy = policySkip := by
    rw [hstate]
    decide
  have hput : Commits sampleLibraries (.putConfig (some ((configCodec sampleLibraries.fold).encode
      (syncPayload "UTC" configuredAgent.config q.state.config.globalPolicy))))
      configuredAgent.config (applyPayload configuredAgent.config
        (syncPayload "UTC" configuredAgent.config q.state.config.globalPolicy)) := by
    rw [hpolicy]
    exact ⟨_, by decide, by decide, rfl⟩
  have hdiffer : configuredAgent.config.globalPolicy ≠ q.state.config.globalPolicy := by
    rw [hpolicy]
    decide
  have hexec : Exec (AgentAnswers sampleLibraries "UTC")
      (syncRemotePolicy sampleLibraries.fold q.state.config agentEntry) ⟨configuredAgent, 0⟩
      (.ok true) ⟨_, 1⟩ :=
    exec_sync (by decide) hdiffer
      ((comes_to_commit ⟨rfl, rfl⟩ hput).exec (.op (storeSem_update _ noFaults _ _) .done))
  obtain ⟨hconfig, -⟩ := run_sync reachable_configuredAgent hcontroller rfl hexec
  refine ⟨q.state, _, hcontroller, hpolicy, by decide, by decide,
    by decide, hexec, ?_⟩
  rw [← hpolicy]
  exact hconfig

end

end Contiwatch
