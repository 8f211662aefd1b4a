import Contiwatch.ConfigHandlers

/-!
# Kept Secrets

Clients do not see the secrets of the configuration, the Discord webhook and the tokens of the
agents; they may ask to keep what is stored. `PUT /api/config` does so with an empty webhook or
the keep sentinel, `POST /api/servers` with an empty token. Both handlers implement it by storing
the secret again that was there when they read the configuration, so that a secret another
request has replaced or cleared in between comes back.

## Main results

* `secretEffect_update` — what an update does to a secret: it stores the one that was read, it
  stores one of its own, or it leaves the secret alone.
* `run_keeps_secrets` — as long as no secret is changed while a request that keeps it is between
  its read and its update, requests that keep a secret do not change it.
* `secret_can_come_back` — a cleared webhook and a replaced token can come back.
-/

namespace Contiwatch

open GoStrings GoJson

/-- A secret of the configuration: the webhook, or the token of the agent with a name. -/
inductive Secret
  | webhook
  | token (key : List Char)
  deriving DecidableEq, Repr

/-- The stored secret; an agent that is not there has the empty token. -/
def secretOf (fold : Char → Char) (cfg : StoredConfig) : Secret → String
  | .webhook => cfg.discordWebhookURL
  | .token key => (Keyed.find (remoteKey fold) cfg.remoteServers key).elim "" (·.token)

section

variable (lib : Libraries)

/-- The request asks to keep the secret. -/
def Keeps : SettingsRequest → Secret → Prop
  | .putConfig body, .webhook => ∃ payload, putPayload lib body = .ok payload ∧
      (webhookInput payload = "" ∨ webhookInput payload = discordWebhookKeepSentinel)
  | .postServer body, .token key => ∃ payload, serverPayload lib body = .ok payload ∧
      trimSpaceStr payload.token = "" ∧ key = nameKey lib.fold payload.name
  | _, _ => False

/-- The request gives the secret a value of its own; clearing the webhook and removing the agent
give it the empty one. -/
def Sets : SettingsRequest → Secret → String → Prop
  | .putConfig body, .webhook, value => ∃ payload, putPayload lib body = .ok payload ∧
      webhookInput payload ≠ "" ∧ webhookInput payload ≠ discordWebhookKeepSentinel ∧
      value = if webhookInput payload = discordWebhookClearSentinel then ""
        else webhookInput payload
  | .postServer body, .token key, value => ∃ payload, serverPayload lib body = .ok payload ∧
      trimSpaceStr payload.token ≠ "" ∧ key = nameKey lib.fold payload.name ∧
      value = trimSpaceStr payload.token
  | .deleteServer path, .token key, value =>
      key = nameKey lib.fold (trimPrefix path "/api/servers/") ∧ value = ""
  | _, _, _ => False

/-- The request has read the configuration and is about to make its update. -/
def Waiting (p : SettingsPool) (req : SettingsRequest) : Prop :=
  ∃ f next, (req, .op (.update f) next) ∈ p.threads

/-- A request that gives a secret another value makes its update while no request that keeps
this secret is waiting. -/
def SecretsQuiet (p : SettingsPool) : SettingsEvent → Prop
  | .op req (.update _) _ => ∀ secret value, Sets lib req secret value →
      secretOf lib.fold p.state.config secret ≠ value →
      ∀ other, Keeps lib other secret → ¬ Waiting p other
  | _ => True

/-- The update of a request that keeps a secret does not change it. -/
def KeepsSecrets (s : Store) : SettingsEvent → Store → Prop
  | .op req (.update _) _, t => ∀ secret, Keeps lib req secret →
      secretOf lib.fold t.config secret = secretOf lib.fold s.config secret
  | _, _ => True

/-- What the update of a request that has read `before` may leave of a secret that was stored in
`cfg`. -/
inductive SecretEffect (req : SettingsRequest) (before cfg : StoredConfig) (secret : Secret) :
    String → Prop
  | kept (h : Keeps lib req secret) :
      SecretEffect req before cfg secret (secretOf lib.fold before secret)
  | set {value : String} (h : Sets lib req secret value) :
      SecretEffect req before cfg secret value
  | untouched (h : ¬ Keeps lib req secret) :
      SecretEffect req before cfg secret (secretOf lib.fold cfg secret)

/-- What a request has read of the secrets that it keeps is what is stored. -/
def Current (s : Store) (ph : SettingsRequest × SettingsPhase) : Prop :=
  match ph.2 with
  | .entered req => req = ph.1
  | .read req before => req = ph.1 ∧ ∀ secret, Keeps lib req secret →
      secretOf lib.fold before secret = secretOf lib.fold s.config secret
  | .finished => True

variable {lib}

/-! ### What an update does to a secret -/

/-- A secret depends on the webhook and the agents only. -/
theorem secretOf_congr {cfg cfg' : StoredConfig}
    (hwebhook : cfg'.discordWebhookURL = cfg.discordWebhookURL)
    (hservers : cfg'.remoteServers = cfg.remoteServers) (secret : Secret) :
    secretOf lib.fold cfg' secret = secretOf lib.fold cfg secret := by
  cases secret with
  | webhook => exact hwebhook
  | token key => rw [secretOf, secretOf, hservers]

/-- Storing an agent changes the token under its name. -/
theorem secretOf_upsertServer (cfg : StoredConfig) (input : RemoteEntry) (key : List Char) :
    secretOf lib.fold
        { cfg with remoteServers := upsertServer lib.fold cfg.remoteServers input } (.token key) =
      if remoteKey lib.fold input = key then input.token
      else secretOf lib.fold cfg (.token key) := by
  rw [secretOf, upsertServer, Keyed.find_upsert]
  split
  · rfl
  · rfl

/-- Removing an agent clears the token under its name. -/
theorem secretOf_removeServer (cfg : StoredConfig) (name : String) (key : List Char) :
    secretOf lib.fold
        { cfg with remoteServers := removeServer lib.fold cfg.remoteServers name } (.token key) =
      if key = nameKey lib.fold name then "" else secretOf lib.fold cfg (.token key) := by
  rw [secretOf, removeServer, Keyed.find_remove]
  split
  · rfl
  · rfl

/-- The webhook that a request stores is the one that it read, or its own. -/
theorem storedWebhook_eq (before payload : StoredConfig) :
    storedWebhook before payload =
      if webhookInput payload = "" ∨ webhookInput payload = discordWebhookKeepSentinel then
        before.discordWebhookURL
      else if webhookInput payload = discordWebhookClearSentinel then ""
      else webhookInput payload := by
  rw [storedWebhook]
  by_cases hempty : webhookInput payload = ""
  · by_cases hbefore : before.discordWebhookURL = ""
    · simp [hempty, hbefore]
    · simp [hempty, hbefore]
  · simp [hempty]

/-- The token that a request stores is the one that it read, or its own. -/
theorem token_keepToken (before : StoredConfig) (payload : RemoteEntry) :
    (keepToken lib before payload).token =
      if trimSpaceStr payload.token = "" then
        secretOf lib.fold before (.token (nameKey lib.fold payload.name))
      else trimSpaceStr payload.token := by
  rw [keepToken, secretOf, ← findRemoteEntry]
  rcases findRemoteEntry lib.fold before.remoteServers payload.name with _ | existing
  · by_cases hempty : trimSpaceStr payload.token = ""
    · simp [hempty]
    · simp [hempty]
  · simp only [Option.elim_some]

/-- The name is part of what is kept. -/
theorem remoteKey_keepToken (before : StoredConfig) (payload : RemoteEntry) :
    remoteKey lib.fold (keepToken lib before payload) = nameKey lib.fold payload.name := by
  rw [keepToken]
  split
  · rfl
  · rfl

/-- A `PUT` stores the webhook that it read, or its own. -/
theorem secretEffect_webhook {body : Option Json} {payload : StoredConfig}
    (hpayload : putPayload lib body = .ok payload) (before cfg : StoredConfig) :
    SecretEffect lib (.putConfig body) before cfg .webhook (storedWebhook before payload) := by
  rw [storedWebhook_eq]
  by_cases hkeep : webhookInput payload = "" ∨ webhookInput payload = discordWebhookKeepSentinel
  · rw [if_pos hkeep]
    exact .kept ⟨payload, hpayload, hkeep⟩
  · rw [if_neg hkeep]
    rw [not_or] at hkeep
    exact .set ⟨payload, hpayload, hkeep.1, hkeep.2, rfl⟩

/-- A `POST` for an agent stores the token that it read, or its own, under its name. -/
theorem secretEffect_token {body : Option Json} {payload : RemoteEntry}
    (hpayload : serverPayload lib body = .ok payload) (before cfg : StoredConfig)
    (key : List Char) :
    SecretEffect lib (.postServer body) before cfg (.token key)
      (if nameKey lib.fold payload.name = key then (keepToken lib before payload).token
        else secretOf lib.fold cfg (.token key)) := by
  by_cases hkey : nameKey lib.fold payload.name = key
  · subst hkey
    rw [if_pos rfl, token_keepToken]
    by_cases hempty : trimSpaceStr payload.token = ""
    · rw [if_pos hempty]
      exact .kept ⟨payload, hpayload, hempty, rfl⟩
    · rw [if_neg hempty]
      exact .set ⟨payload, hpayload, hempty, rfl, rfl⟩
  · rw [if_neg hkey]
    refine .untouched ?_
    rintro ⟨payload', hpayload', -, hkey'⟩
    obtain rfl := Except.ok.inj (hpayload.symm.trans hpayload')
    exact hkey hkey'.symm

/-- **What an update does to a secret.** A request that keeps the secret stores what it read; a
request that sets it stores its own value; any other leaves it alone. -/
theorem secretEffect_update {req : SettingsRequest} {before : StoredConfig}
    {f : StoredConfig → StoredConfig} (hcommits : Commits lib req before f) (cfg : StoredConfig)
    (secret : Secret) :
    SecretEffect lib req before cfg secret
      (secretOf lib.fold (normalizeUpdated (f cfg)) secret) := by
  have hrepaired : secretOf lib.fold (normalizeUpdated (f cfg)) secret =
      secretOf lib.fold (f cfg) secret :=
    secretOf_congr (discordWebhookURL_normalizeUpdated _) (remoteServers_normalizeUpdated _) secret
  rw [hrepaired]
  cases req with
  | putConfig body =>
      obtain ⟨payload, hpayload, -, rfl⟩ := hcommits
      cases secret with
      | webhook =>
          rw [secretOf, discordWebhookURL_applyPayload]
          exact secretEffect_webhook hpayload before cfg
      | token key =>
          rw [secretOf, remoteServers_applyPayload]
          exact .untouched id
  | postServer body =>
      obtain ⟨payload, hpayload, -, rfl⟩ := hcommits
      cases secret with
      | webhook => exact .untouched id
      | token key =>
          rw [secretOf_upsertServer, remoteKey_keepToken]
          exact secretEffect_token hpayload before cfg key
  | postLocal body =>
      obtain ⟨payload, -, -, rfl⟩ := hcommits
      rw [secretOf_congr rfl rfl]
      exact .untouched id
  | deleteServer path =>
      obtain ⟨-, rfl⟩ := hcommits
      cases secret with
      | webhook => exact .untouched id
      | token key =>
          rw [secretOf_removeServer]
          by_cases hkey : key = nameKey lib.fold (trimPrefix path "/api/servers/")
          · rw [if_pos hkey]
            exact .set ⟨hkey, rfl⟩
          · rw [if_neg hkey]
            exact .untouched id
  | deleteLocal path =>
      obtain ⟨-, rfl⟩ := hcommits
      rw [secretOf_congr rfl rfl]
      exact .untouched id

/-- No request both keeps and sets a secret. -/
theorem not_sets_of_keeps {req : SettingsRequest} {secret : Secret} (h : Keeps lib req secret)
    (value : String) : ¬ Sets lib req secret value := by
  cases req with
  | putConfig body =>
      cases secret with
      | webhook =>
          obtain ⟨payload, hpayload, hkeep⟩ := h
          rintro ⟨payload', hpayload', hempty, hsentinel, -⟩
          obtain rfl := Except.ok.inj (hpayload.symm.trans hpayload')
          exact hkeep.elim hempty hsentinel
      | token key => exact id
  | postServer body =>
      cases secret with
      | webhook => exact id
      | token key =>
          obtain ⟨payload, hpayload, hempty, -⟩ := h
          rintro ⟨payload', hpayload', hne, -⟩
          obtain rfl := Except.ok.inj (hpayload.symm.trans hpayload')
          exact hne hempty
  | postLocal body => exact absurd h id
  | deleteServer path => exact absurd h id
  | deleteLocal path => exact absurd h id

/-! ### Secrets that were read -/

/-- A request that makes an update has read what is stored. -/
theorem commits_of_current {s : Store} {req : SettingsRequest} {phase : SettingsPhase}
    {f : StoredConfig → StoredConfig} (hcurrent : Current lib s (req, phase))
    (hallowed : (settingsProtocol lib).Allowed phase (.update f)) :
    ∃ before, Commits lib req before f ∧ ∀ secret, Keeps lib req secret →
      secretOf lib.fold before secret = secretOf lib.fold s.config secret := by
  cases phase with
  | entered req' =>
      obtain rfl : req' = req := hcurrent
      cases req' with
      | deleteServer path => exact ⟨s.config, hallowed s.config, fun _ _ => rfl⟩
      | deleteLocal path => exact ⟨s.config, hallowed s.config, fun _ _ => rfl⟩
      | _ => exact absurd hallowed id
  | read req' before =>
      obtain ⟨rfl, hread⟩ := hcurrent
      exact ⟨before, hallowed, hread⟩
  | finished => exact absurd hallowed id

/-- So it does not change the secrets that it keeps. -/
theorem secretOf_of_keeps {s : Store} {req : SettingsRequest} {before : StoredConfig}
    {f : StoredConfig → StoredConfig} {secret : Secret} (hcommits : Commits lib req before f)
    (hread : ∀ secret, Keeps lib req secret →
      secretOf lib.fold before secret = secretOf lib.fold s.config secret)
    (hkeeps : Keeps lib req secret) :
    secretOf lib.fold (normalizeUpdated (f s.config)) secret =
      secretOf lib.fold s.config secret := by
  have heffect := secretEffect_update hcommits s.config secret
  generalize secretOf lib.fold (normalizeUpdated (f s.config)) secret = value at heffect ⊢
  cases heffect with
  | kept _ => exact hread secret hkeeps
  | set hsets => exact absurd hsets (not_sets_of_keeps hkeeps value)
  | untouched hnot => exact absurd hkeeps hnot

/-- A read is current when it is made. -/
theorem current_after_get {s : Store} {req : SettingsRequest} {phase : SettingsPhase}
    (hcurrent : Current lib s (req, phase))
    (hallowed : (settingsProtocol lib).Allowed phase .get) :
    Current lib s (req, (settingsProtocol lib).next phase .get s.get) := by
  cases phase with
  | entered req' =>
      obtain rfl : req' = req := hcurrent
      change Current lib s (req', phaseAfterRead lib req' s.get)
      rcases phaseAfterRead_cases lib req' s.get with hread | hfinished
      · rw [hread]
        exact ⟨rfl, fun _ _ => rfl⟩
      · rw [hfinished]
        trivial
  | read req' before => exact absurd hallowed id
  | finished => exact absurd hallowed id

/-- After its update a request has nothing left that could be out of date. -/
theorem current_after_update {s : Store} {req : SettingsRequest} (phase : SettingsPhase)
    {f : StoredConfig → StoredConfig} (r : StoredConfig × Option WriteStep) :
    Current lib s (req, (settingsProtocol lib).next phase (.update f) r) := by
  cases phase <;> trivial

/-- A request that has read and passed its checks is waiting. -/
theorem waiting_of_read {p : SettingsPool} {phases : List (SettingsRequest × SettingsPhase)}
    {req req' : SettingsRequest} {before : StoredConfig}
    (haligned : Pool.Aligned (settingsProtocol lib) (fun _ => SettingsPhase.MayEnd) p.threads
      phases)
    (hmem : (req, SettingsPhase.read req' before) ∈ phases) : Waiting p req := by
  obtain ⟨prog, hthread, hobeys⟩ := haligned.of_phase hmem
  cases hobeys with
  | done h => exact absurd h id
  | @op _ o next hallowed _ =>
      cases o with
      | get => exact absurd hallowed id
      | update f => exact ⟨f, next, hthread⟩

/-- **A quiet update** changes no secret that a waiting request keeps. -/
theorem secretOf_of_quiet {p : SettingsPool} {req other : SettingsRequest}
    {before : StoredConfig} {f : StoredConfig → StoredConfig} {secret : Secret}
    {r : StoredConfig × Option WriteStep} (hcommits : Commits lib req before f)
    (hread : ∀ secret, Keeps lib req secret →
      secretOf lib.fold before secret = secretOf lib.fold p.state.config secret)
    (hquiet : SecretsQuiet lib p (.op req (.update f) r)) (hwaiting : Waiting p other)
    (hkeeps : Keeps lib other secret) :
    secretOf lib.fold (normalizeUpdated (f p.state.config)) secret =
      secretOf lib.fold p.state.config secret := by
  have heffect := secretEffect_update hcommits p.state.config secret
  generalize secretOf lib.fold (normalizeUpdated (f p.state.config)) secret = value at heffect ⊢
  cases heffect with
  | kept hown => exact hread secret hown
  | set hsets =>
      by_contra hchanged
      exact hquiet secret value hsets (Ne.symm hchanged) other hkeeps hwaiting
  | untouched _ => rfl

/-- **Reads stay current.** In every run whose updates are quiet, what the requests under way have
read of the secrets that they keep is what is stored. -/
theorem run_current {s : Store} {es : List SettingsEvent} {q : SettingsPool}
    (hrun : Run (fun p e q => settingsStep lib p e q ∧ SecretsQuiet lib p e) ⟨s, []⟩ es q) :
    ∃ phases, Pool.Aligned (settingsProtocol lib) (fun _ => SettingsPhase.MayEnd) q.threads
      phases ∧ ∀ ph ∈ phases, Current lib q.state ph := by
  refine Pool.run_phases (I := fun s phases => ∀ ph ∈ phases, Current lib s ph)
    (obeys_handle lib) (fun ph hph => absurd hph List.not_mem_nil) ?_ ?_ ?_ hrun
  · rintro p phases i t - hcurrent - rfl ph hph
    rcases List.mem_append.mp hph with hold | hnew
    · exact hcurrent ph hold
    · rw [List.mem_singleton.mp hnew]
      exact rfl
  · rintro p phases t - - henv
    exact absurd henv id
  · intro p fs gs req phase o r t next haligned hcurrent hthread hobeys hquiet hsem
    obtain ⟨hallowed, -⟩ := Prog.obeys_op.mp hobeys
    have hown := hcurrent _ (List.mem_append_right _ (List.mem_cons_self ..))
    cases o with
    | get =>
        obtain ⟨rfl, rfl⟩ := hsem
        exact Pool.forall_changed hcurrent (fun _ _ h => h) (current_after_get hown hallowed)
    | update f =>
        obtain ⟨before, hcommits, hread⟩ := commits_of_current hown hallowed
        refine Pool.forall_changed hcurrent ?_ (current_after_update phase r)
        rintro ⟨other, _ | ⟨req', seen⟩ | _⟩ hmem h
        · exact h
        · obtain ⟨rfl, hseen⟩ := h
          refine ⟨rfl, fun secret hkeeps => (hseen secret hkeeps).trans ?_⟩
          rw [config_of_update hsem]
          exact (secretOf_of_quiet hcommits hread hquiet (waiting_of_read haligned hmem)
            hkeeps).symm
        · trivial

/-- **Kept secrets over runs.** In every run in which no secret is changed while a request that
keeps it is between its read and its update, no update of a request changes a secret that the
request keeps. -/
theorem run_keeps_secrets {s : Store} {es : List SettingsEvent} {q : SettingsPool}
    (hrun : Run (fun p e q => settingsStep lib p e q ∧ SecretsQuiet lib p e) ⟨s, []⟩ es q) :
    Run (fun p e q => settingsStep lib p e q ∧ KeepsSecrets lib p.state e q.state)
      ⟨s, []⟩ es q := by
  induction hrun with
  | nil => exact .nil
  | snoc hrun hlast ih =>
      refine ih.snoc ⟨hlast.1, ?_⟩
      obtain ⟨phases, haligned, hcurrent⟩ := run_current hrun
      cases hlast.1 with
      | start h => trivial
      | env h => exact absurd h id
      | @op front back req o next r t hthread hsem =>
          cases o with
          | get => trivial
          | update f =>
              rw [hthread] at haligned
              obtain ⟨phase, hphase, hobeys⟩ :=
                haligned.of_thread (List.mem_append_right _ (List.mem_cons_self ..))
              obtain ⟨before, hcommits, hread⟩ := commits_of_current (hcurrent _ hphase)
                (Prog.obeys_op.mp hobeys).1
              intro secret hkeeps
              rw [config_of_update hsem]
              exact secretOf_of_keeps hcommits hread hkeeps

/-! ### Secrets that come back -/

/-- A configuration with a webhook and an agent. -/
def secretsConfig : StoredConfig :=
  { defaultConfig with
    discordWebhookURL := "https://discord.com/api/webhooks/1/abc"
    remoteServers := [agentEntry] }

/-- `PUT /api/config` that says nothing about the webhook. -/
def keepWebhook : SettingsRequest :=
  .putConfig (some (.obj [("global_policy", .str "skip")]))

/-- The payload of `keepWebhook`. -/
def keepPayload : StoredConfig := { zeroConfig with globalPolicy := policySkip }

/-- `PUT /api/config` that clears the webhook. -/
def clearWebhook : SettingsRequest :=
  .putConfig (some (.obj [("discord_webhook_url", .str "__clear__")]))

/-- `POST /api/servers` for the agent `a`, without a token. -/
def editAgent : SettingsRequest :=
  .postServer (some (.obj [("name", .str "a"), ("url", .str "http://10.0.0.2:8080"),
    ("token", .str "")]))

/-- `POST /api/servers` that gives the agent `a` another token. -/
def rotateToken : SettingsRequest :=
  .postServer (some (.obj [("name", .str "A"), ("url", .str "http://10.0.0.2:8080"),
    ("token", .str "rotated")]))

/-- The first sample request keeps the webhook. -/
theorem keeps_keepWebhook : Keeps sampleLibraries keepWebhook .webhook :=
  ⟨keepPayload, by decide, .inl (by decide)⟩

/-- The edit of the agent keeps its token. -/
theorem keeps_editAgent : Keeps sampleLibraries editAgent (.token ['a']) :=
  ⟨{ agentEntry with token := "" }, by decide, by decide, by decide⟩

/-- The keeping request writes the webhook it has read. -/
theorem commits_keepWebhook :
    Commits sampleLibraries keepWebhook secretsConfig
      (applyPayload secretsConfig keepPayload) :=
  ⟨keepPayload, by decide, by decide, rfl⟩

/-- The clearing one writes none. -/
theorem commits_clearWebhook :
    Commits sampleLibraries clearWebhook secretsConfig
      (applyPayload secretsConfig { zeroConfig with discordWebhookURL := "__clear__" }) :=
  ⟨_, by decide, by decide, rfl⟩

/-- The edit writes the agent with the token it has read. -/
theorem commits_editAgent : Commits sampleLibraries editAgent secretsConfig fun cur => { cur with
    remoteServers := upsertServer sampleLibraries.fold cur.remoteServers
      (keepToken sampleLibraries secretsConfig { agentEntry with token := "" }) } :=
  ⟨{ agentEntry with token := "" }, by decide, by decide, rfl⟩

/-- The rotation writes it with the new token. -/
theorem commits_rotateToken :
    Commits sampleLibraries rotateToken secretsConfig fun cur => { cur with
      remoteServers := upsertServer sampleLibraries.fold cur.remoteServers
        (keepToken sampleLibraries secretsConfig
          { agentEntry with name := "A", token := "rotated" }) } :=
  ⟨{ agentEntry with name := "A", token := "rotated" }, by decide, by decide, rfl⟩

/-- **Secrets can come back.** A settings form that leaves the webhook alone is saved while another
client clears the webhook, and the webhook is back; an agent is edited while another client
replaces its token, and the old token is back. -/
theorem secret_can_come_back :
    (∃ es p e q, Run (settingsStep sampleLibraries) ⟨savedStore Char.toLower secretsConfig, []⟩
        es p ∧ settingsStep sampleLibraries p e q ∧
      p.state.config.discordWebhookURL = "" ∧
      q.state.config.discordWebhookURL = "https://discord.com/api/webhooks/1/abc" ∧
      ¬ KeepsSecrets sampleLibraries p.state e q.state) ∧
    ∃ es p e q, Run (settingsStep sampleLibraries) ⟨savedStore Char.toLower secretsConfig, []⟩
        es p ∧ settingsStep sampleLibraries p e q ∧
      secretOf sampleLibraries.fold p.state.config (.token ['a']) = "rotated" ∧
      secretOf sampleLibraries.fold q.state.config (.token ['a']) = "secret" ∧
      ¬ KeepsSecrets sampleLibraries p.state e q.state := by
  constructor
  · obtain ⟨es, p, q, hrun, hbefore, hstep, hafter⟩ := run_overtaken
      (s := savedStore Char.toLower secretsConfig) commits_keepWebhook commits_clearWebhook
      (storeSem_update _ noFaults _ _) (storeSem_update _ noFaults _ _)
    have hcleared : p.state.config.discordWebhookURL = "" := by
      rw [hbefore]
      decide
    have hback : q.state.config.discordWebhookURL = "https://discord.com/api/webhooks/1/abc" := by
      rw [hafter]
      decide
    refine ⟨es, p, _, q, hrun, hstep, hcleared, hback, fun h => ?_⟩
    have hsame := h .webhook keeps_keepWebhook
    rw [secretOf, secretOf, hcleared, hback] at hsame
    exact absurd hsame (by decide)
  · obtain ⟨es, p, q, hrun, hbefore, hstep, hafter⟩ := run_overtaken
      (s := savedStore Char.toLower secretsConfig) commits_editAgent commits_rotateToken
      (storeSem_update _ noFaults _ _) (storeSem_update _ noFaults _ _)
    have hrotated : secretOf sampleLibraries.fold p.state.config (.token ['a']) = "rotated" := by
      rw [hbefore]
      decide
    have hback : secretOf sampleLibraries.fold q.state.config (.token ['a']) = "secret" := by
      rw [hafter]
      decide
    refine ⟨es, p, _, q, hrun, hstep, hrotated, hback, fun h => ?_⟩
    have hsame := h (.token ['a']) keeps_editAgent
    rw [hrotated, hback] at hsame
    exact absurd hsame (by decide)

/-! ### Requests one after another -/

/-- All requests are answered. -/
def AllAnswered (p : SettingsPool) : Prop :=
  ∀ th ∈ p.threads, ∃ reply, th.2 = .done reply

/-- A request that comes when all others are answered disturbs none. -/
theorem run_quiet_request {lib : Libraries} {p : SettingsPool} {req : SettingsRequest} {t : Store}
    {f : StoredConfig → StoredConfig} {r : StoredConfig × Option WriteStep}
    (hanswered : AllAnswered p) (hcommits : Commits lib req p.state.config f)
    (hf : storeSem lib.fold (.update f) p.state r t) :
    ∃ es q, Run (fun p e q => settingsStep lib p e q ∧ SecretsQuiet lib p e) p es q ∧
      q.state = t ∧ AllAnswered q := by
  have hstart : settingsStep lib p (.start req)
      ⟨p.state, p.threads ++ [(req, handle lib req)]⟩ := .start rfl
  obtain ⟨es, hread⟩ : ∃ es, Run (fun p e q => settingsStep lib p e q ∧ SecretsQuiet lib p e)
      ⟨p.state, p.threads ++ [(req, handle lib req)]⟩ es
      ⟨p.state, p.threads ++ [(req, commit f)]⟩ := by
    have hpartial : Prog.Partial (fun o s r t => storeSem lib.fold o s r t ∧
        ∀ p, SecretsQuiet lib p (.op req o r)) (handle lib req) p.state (commit f) p.state :=
      comes_to_commit ⟨⟨rfl, rfl⟩, fun _ => trivial⟩ hcommits
    obtain ⟨es, hrun⟩ := Pool.run_partial (C := fun _ e => ∀ p, SecretsQuiet lib p e)
      hpartial p.threads []
    exact ⟨es, hrun.mono fun h => ⟨h.1, h.2 _⟩⟩
  have hlast : p.threads ++ [(req, commit f)] = p.threads ++ (req, commit f) :: [] := rfl
  refine ⟨_, _, ((Run.single ⟨hstart, trivial⟩).append hread).snoc ⟨.op hlast hf, ?_⟩, rfl, ?_⟩
  · rintro secret value hsets - other hkeeps ⟨g, next, hmem⟩
    -- the only request that waits is the one that sets the secret
    rcases List.mem_append.mp hmem with hold | hnew
    · obtain ⟨reply, hdone⟩ := hanswered _ hold
      cases hdone
    · obtain rfl := (Prod.mk.inj (List.mem_singleton.mp hnew)).1
      exact not_sets_of_keeps hkeeps value hsets
  · intro th hth
    rcases List.mem_append.mp hth with hold | hnew
    · exact hanswered th hold
    · rw [List.mem_singleton.mp hnew]
      exact ⟨_, rfl⟩

/-- The configuration with an older webhook. -/
def olderConfig : StoredConfig :=
  { secretsConfig with discordWebhookURL := "https://discord.com/api/webhooks/0/old" }

/-- `PUT /api/config` with another webhook. -/
def replaceWebhook : SettingsRequest :=
  .putConfig (some (.obj [("discord_webhook_url", .str "https://discord.com/api/webhooks/1/abc")]))

/-- The update of `replaceWebhook`. -/
def replacing : StoredConfig → StoredConfig :=
  applyPayload olderConfig
    { zeroConfig with discordWebhookURL := "https://discord.com/api/webhooks/1/abc" }

/-- The replacing request writes its own webhook. -/
theorem commits_replaceWebhook : Commits sampleLibraries replaceWebhook olderConfig replacing :=
  ⟨_, by decide, by decide, rfl⟩

/-- The keeping request after it writes the new one back. -/
theorem commits_keepWebhook_replaced :
    Commits sampleLibraries keepWebhook (normalizeUpdated (replacing olderConfig))
      (applyPayload (normalizeUpdated (replacing olderConfig)) keepPayload) :=
  ⟨keepPayload, by decide, by decide, rfl⟩

/-- The webhook is replaced before the request that keeps it reads the configuration: the new one
stays. -/
theorem webhook_kept_replaced :
    ∃ es q, Run (fun p e q => settingsStep sampleLibraries p e q ∧
        KeepsSecrets sampleLibraries p.state e q.state)
        ⟨savedStore Char.toLower olderConfig, []⟩ es q ∧
      q.state.config.globalPolicy = policySkip ∧
      q.state.config.discordWebhookURL = "https://discord.com/api/webhooks/1/abc" := by
  obtain ⟨es₁, p, hreplaced, hp, hanswered⟩ := run_quiet_request
    (p := ⟨savedStore Char.toLower olderConfig, []⟩) (fun th hth => absurd hth List.not_mem_nil)
    commits_replaceWebhook (storeSem_update _ noFaults _ _)
  have hconfig : p.state.config = normalizeUpdated (replacing olderConfig) := by
    rw [hp, config_of_update (storeSem_update _ noFaults replacing _)]
    rfl
  obtain ⟨es₂, q, hkept, hq, -⟩ := run_quiet_request hanswered
    (hconfig ▸ commits_keepWebhook_replaced) (storeSem_update _ noFaults _ _)
  refine ⟨_, q, run_keeps_secrets (hreplaced.append hkept), ?_⟩
  rw [hq, config_of_update (storeSem_update _ noFaults _ _), hconfig]
  decide

end

end Contiwatch
