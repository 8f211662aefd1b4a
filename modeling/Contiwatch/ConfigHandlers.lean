import Contiwatch.ConfigStore
import Contiwatch.Lib.Keyed
import Contiwatch.Lib.Phases
import Contiwatch.Scheduler

/-!
# Settings Requests

The handlers of `internal/server/server.go` that change the configuration: `PUT /api/config`,
and `POST` and `DELETE` on `/api/servers` and `/api/locals`. A handler is a program over the two
operations of the store, each of which holds the store's lock: `Get` and `Update`. Between them
the requests of other clients come in any order. The slices that `Get` returns share their
elements with the store; the handlers look at them right after `Get`, and this is taken as one
moment.

What a request does to the configuration is a function of what it read before; `Commits` says
which. `settingsProtocol` keeps what was read as the phase of the request.

## Main results

* `obeys_handle` — each handler reads, checks, and then makes the update that `Commits` gives,
  at most once.
* `run_config_iff` — the rule for properties of the configuration over any interleaving of
  requests.
* `run_overtaken` — a request may be overtaken by another between its read and its update.
-/

namespace Contiwatch

open GoStrings GoJson

/-! ### Libraries -/

/-- What the handlers read off a parsed URL: `Scheme`, `Hostname()` and `EscapedPath()`. -/
structure URL where
  scheme : String
  hostname : String
  escapedPath : String
  deriving DecidableEq, Repr

/-- The functions of other packages that the handlers call: simple case folding,
`unicode.ToLower`, `url.Parse`, and the parser of the cron library. -/
structure Libraries where
  fold : Char → Char
  lower : Char → Char
  parseURL : String → Option URL
  parseCron : String → Except String Unit

/-- Libraries that fold the ASCII letters and know one URL of an agent, one of a webhook and one
cron expression. -/
def sampleLibraries : Libraries where
  fold := Char.toLower
  lower := Char.toLower
  parseURL raw :=
    if raw = "http://10.0.0.2:8080" then some ⟨"http", "10.0.0.2", ""⟩
    else if raw = "https://discord.com/api/webhooks/1/abc" then
      some ⟨"https", "discord.com", "/api/webhooks/1/abc"⟩
    else none
  parseCron expr :=
    if expr = "0 3 * * *" then .ok () else .error "expected exactly 5 fields"

/-- An agent with a URL that these libraries know. -/
def agentEntry : RemoteEntry where
  name := "a"
  url := "http://10.0.0.2:8080"
  token := "secret"
  maintenance := false
  publicIP := ""

/-! ### Operations on the store -/

/-- The operations of the store. -/
inductive StoreOp
  | get
  | update (f : StoredConfig → StoredConfig)

/-- The answers of the store. -/
def StoreOp.Res : StoreOp → Type
  | .get => StoredConfig
  | .update _ => StoredConfig × Option WriteStep

/-- What the operations do. The file system is free to fail an update at any point. -/
def storeSem (fold : Char → Char) : (o : StoreOp) → Store → o.Res → Store → Prop
  | .get, s, r, t => r = s.get ∧ t = s
  | .update f, s, r, t => ∃ faults, s.update fold faults f = (r, t)

/-- A program on the store. -/
abbrev StoreProg := Prog StoreOp.Res

/-- An update of the store is one of its steps. -/
theorem storeSem_update (fold : Char → Char) (faults : WriteFaults)
    (f : StoredConfig → StoredConfig) (s : Store) :
    storeSem fold (.update f) s (s.update fold faults f).1 (s.update fold faults f).2 :=
  ⟨faults, rfl⟩

/-- What an update leaves in memory, whether or not it was written. -/
theorem config_of_update {fold : Char → Char} {f : StoredConfig → StoredConfig} {s t : Store}
    {r : StoredConfig × Option WriteStep} (h : storeSem fold (.update f) s r t) :
    t.config = normalizeUpdated (f s.config) := by
  obtain ⟨faults, hupdate⟩ := h
  rw [← (Prod.mk.inj hupdate).2]

/-! ### Named servers -/

/-- The name of a server up to case. -/
def nameKey (fold : Char → Char) (name : String) : List Char := name.toList.map fold

/-- The key of a stored agent. -/
def remoteKey (fold : Char → Char) (srv : RemoteEntry) : List Char := nameKey fold srv.name

/-- The key of a stored local server. -/
def localKey (fold : Char → Char) (srv : LocalEntry) : List Char := nameKey fold srv.name

section

variable (fold : Char → Char)

/-- `upsertServer`. -/
def upsertServer (servers : List RemoteEntry) (input : RemoteEntry) : List RemoteEntry :=
  Keyed.upsert (remoteKey fold) servers input

/-- `upsertLocal`. -/
def upsertLocal (servers : List LocalEntry) (input : LocalEntry) : List LocalEntry :=
  Keyed.upsert (localKey fold) servers input

/-- `removeServer`. -/
def removeServer (servers : List RemoteEntry) (name : String) : List RemoteEntry :=
  Keyed.remove (remoteKey fold) servers (nameKey fold name)

/-- `removeLocal`. -/
def removeLocal (servers : List LocalEntry) (name : String) : List LocalEntry :=
  Keyed.remove (localKey fold) servers (nameKey fold name)

/-- `findRemoteServer`, on the records as they are stored. -/
def findRemoteEntry (servers : List RemoteEntry) (name : String) : Option RemoteEntry :=
  Keyed.find (remoteKey fold) servers (nameKey fold name)

/-- `remoteNameExists`. -/
def remoteNameExists (servers : List RemoteEntry) (name : String) : Bool :=
  servers.any fun srv => equalFold fold srv.name name

/-- `localNameExists`. -/
def localNameExists (servers : List LocalEntry) (name : String) : Bool :=
  servers.any fun srv => equalFold fold srv.name name

end

/-! ### Checks of requests -/

/-- What a handler answers: from the updated configuration, or with an error. -/
inductive SettingsReply
  | ok (updated : StoredConfig)
  | malformed
  | badRequest (message : String)
  | internalError (step : WriteStep)
  deriving DecidableEq, Repr

/-- `discordWebhookKeepSentinel`. -/
def discordWebhookKeepSentinel : String := "__keep__"

/-- `discordWebhookClearSentinel`. -/
def discordWebhookClearSentinel : String := "__clear__"

section

variable (lib : Libraries)

/-- `validateDiscordWebhookURL`: what is wrong with the URL, if anything is. -/
def validateDiscordWebhookURL (raw : String) : Option String :=
  let value := trimSpaceStr raw
  if value = "" then some "webhook_url is required"
  else
    match lib.parseURL value with
    | none => some "webhook_url is invalid"
    | some u =>
        let host := String.ofList ((trimSpaceStr u.hostname).toList.map lib.lower)
        if ¬ equalFold lib.fold u.scheme "https" then some "webhook_url must use https"
        else if host = "" then some "webhook_url host is required"
        else if host ∉ ["discord.com", "ptb.discord.com", "canary.discord.com",
          "discordapp.com"] then some "webhook_url must point to Discord"
        else if ¬ hasPrefix u.escapedPath "/api/webhooks/" then some "webhook_url path is invalid"
        else none

/-- `validateRemoteServerURL`: what is wrong with the URL, if anything is. -/
def validateRemoteServerURL (raw : String) : Option String :=
  let value := trimSpaceStr raw
  if value = "" then some "url is required"
  else
    match lib.parseURL value with
    | none => some "url is invalid"
    | some u =>
        if ¬ equalFold lib.fold u.scheme "http" ∧ ¬ equalFold lib.fold u.scheme "https" then
          some "url must use http or https"
        else if trimSpaceStr u.hostname = "" then some "url host is required"
        else none

/-- Decode the body of a request; `none` is a body that is no JSON document. -/
def decodeBody {α : Type} (c : Codec α) (body : Option Json) : Option α :=
  body.bind fun doc => c.decode doc c.zero

/-- The webhook of a payload, without blanks around it. -/
def webhookInput (payload : StoredConfig) : String := trimSpaceStr payload.discordWebhookURL

/-- The body of `PUT /api/config`, if its webhook is none, a sentinel or a valid URL. -/
def putPayload (body : Option Json) : Except SettingsReply StoredConfig :=
  match decodeBody (configCodec lib.fold) body with
  | none => .error .malformed
  | some payload =>
      let input := webhookInput payload
      if input = "" ∨ input = discordWebhookKeepSentinel ∨ input = discordWebhookClearSentinel then
        .ok payload
      else
        match validateDiscordWebhookURL lib input with
        | some err => .error (.badRequest err)
        | none => .ok payload

/-- `validateCfg`: the configuration whose plan is checked. -/
def validateCfg (before payload : StoredConfig) : StoredConfig :=
  { before with
    schedulerEnabled := payload.schedulerEnabled
    schedulerPlan :=
      if shouldApplySchedulerPlan payload then payload.schedulerPlan else before.schedulerPlan
    scanIntervalSec :=
      if payload.scanIntervalSec > 0 then payload.scanIntervalSec else before.scanIntervalSec }

/-- The check of the plan in `PUT /api/config`: it counts only if the scheduler is enabled. -/
def scheduleError (before payload : StoredConfig) : Option String :=
  if payload.schedulerEnabled || shouldApplySchedulerPlan payload then
    match buildSchedulerPlan lib.parseCron (validateCfg before payload) with
    | .error err => if payload.schedulerEnabled then some err else none
    | .ok _ => none
  else none

/-- The webhook that `PUT /api/config` stores. -/
def storedWebhook (before payload : StoredConfig) : String :=
  let input := webhookInput payload
  if input = "" then
    if before.discordWebhookURL ≠ "" then before.discordWebhookURL else ""
  else if input = discordWebhookKeepSentinel then before.discordWebhookURL
  else if input = discordWebhookClearSentinel then ""
  else input

/-- The update of `PUT /api/config`. -/
def applyPayload (before payload cfg : StoredConfig) : StoredConfig :=
  { cfg with
    scanIntervalSec := payload.scanIntervalSec
    schedulerEnabled := payload.schedulerEnabled
    schedulerPlan :=
      if shouldApplySchedulerPlan payload then payload.schedulerPlan else cfg.schedulerPlan
    globalPolicy := payload.globalPolicy
    discordWebhookURL := storedWebhook before payload
    discordNotificationsEnabled :=
      payload.discordNotificationsEnabled.or cfg.discordNotificationsEnabled
    discordNotifyOnStart := payload.discordNotifyOnStart.or cfg.discordNotifyOnStart
    discordNotifyOnUpdateDetected :=
      payload.discordNotifyOnUpdateDetected.or cfg.discordNotifyOnUpdateDetected
    discordNotifyOnContainerUpdated :=
      payload.discordNotifyOnContainerUpdated.or cfg.discordNotifyOnContainerUpdated
    updateStoppedContainers := payload.updateStoppedContainers
    pruneDanglingImages := payload.pruneDanglingImages
    experimentalFeatures := payload.experimentalFeatures }

/-- The payload sets the scheduler's switch. -/
@[simp] theorem schedulerEnabled_applyPayload (before payload cfg : StoredConfig) :
    (applyPayload before payload cfg).schedulerEnabled = payload.schedulerEnabled := by
  simp only [applyPayload]

/-- It sets the plan when it brings one. -/
@[simp] theorem schedulerPlan_applyPayload (before payload cfg : StoredConfig) :
    (applyPayload before payload cfg).schedulerPlan =
      if shouldApplySchedulerPlan payload then payload.schedulerPlan else cfg.schedulerPlan := by
  simp only [applyPayload]

/-- It sets the webhook, read against the configuration before. -/
@[simp] theorem discordWebhookURL_applyPayload (before payload cfg : StoredConfig) :
    (applyPayload before payload cfg).discordWebhookURL = storedWebhook before payload := by
  simp only [applyPayload]

/-- It leaves the local servers alone. -/
@[simp] theorem localServers_applyPayload (before payload cfg : StoredConfig) :
    (applyPayload before payload cfg).localServers = cfg.localServers := by
  simp only [applyPayload]

/-- It leaves the agents alone. -/
@[simp] theorem remoteServers_applyPayload (before payload cfg : StoredConfig) :
    (applyPayload before payload cfg).remoteServers = cfg.remoteServers := by
  simp only [applyPayload]

/-- The body of `POST /api/servers`, trimmed and checked. The token is trimmed later. -/
def serverPayload (body : Option Json) : Except SettingsReply RemoteEntry :=
  match decodeBody (remoteServerCodec lib.fold) body with
  | none => .error .malformed
  | some payload =>
      let payload := { payload with
        name := trimSpaceStr payload.name
        url := trimSpaceStr payload.url
        publicIP := trimSpaceStr payload.publicIP }
      if payload.name = "" ∨ payload.url = "" then .error (.badRequest "name and url required")
      else
        match validateRemoteServerURL lib payload.url with
        | some err => .error (.badRequest err)
        | none => .ok payload

/-- The server that `POST /api/servers` stores: an empty token is replaced by that of the server
with this name, if there was one. -/
def keepToken (before : StoredConfig) (payload : RemoteEntry) : RemoteEntry :=
  let token := trimSpaceStr payload.token
  match findRemoteEntry lib.fold before.remoteServers payload.name with
  | some existing => { payload with token := if token = "" then existing.token else token }
  | none => { payload with token := token }

/-- The body of `POST /api/locals`, checked. -/
def localPayload (body : Option Json) : Except SettingsReply LocalEntry :=
  match decodeBody (localServerCodec lib.fold) body with
  | none => .error .malformed
  | some payload =>
      if payload.name = "" ∨ payload.socket = "" then
        .error (.badRequest "name and socket required")
      else .ok payload

/-! ### Handlers -/

/-- What a handler answers to an update. -/
def replyOf : StoredConfig × Option WriteStep → SettingsReply
  | (updated, none) => .ok updated
  | (_, some step) => .internalError step

/-- The end of a handler: `Store.Update`. -/
def commit (f : StoredConfig → StoredConfig) : StoreProg SettingsReply :=
  .op (.update f) fun answer => .done (replyOf answer)

/-- `handleConfig` for `PUT`. -/
def handleConfig (body : Option Json) : StoreProg SettingsReply :=
  .op .get fun before =>
    match putPayload lib body with
    | .error reply => .done reply
    | .ok payload =>
        match scheduleError lib before payload with
        | some err => .done (.badRequest err)
        | none => commit (applyPayload before payload)

/-- `handleServers` for `POST`. -/
def handleServers (body : Option Json) : StoreProg SettingsReply :=
  match serverPayload lib body with
  | .error reply => .done reply
  | .ok payload =>
      .op .get fun cfg =>
        if localNameExists lib.fold (StoredConfig.localServers cfg) payload.name then
          .done (.badRequest "name already used by local server")
        else commit fun cur => { cur with
          remoteServers := upsertServer lib.fold cur.remoteServers (keepToken lib cfg payload) }

/-- `handleLocals` for `POST`. -/
def handleLocals (body : Option Json) : StoreProg SettingsReply :=
  match localPayload lib body with
  | .error reply => .done reply
  | .ok payload =>
      .op .get fun cfg =>
        if remoteNameExists lib.fold (StoredConfig.remoteServers cfg) payload.name then
          .done (.badRequest "name already used by remote server")
        else commit fun cur =>
          { cur with localServers := upsertLocal lib.fold cur.localServers payload }

/-- `handleServerByName`. -/
def handleServerByName (path : String) : StoreProg SettingsReply :=
  let name := trimPrefix path "/api/servers/"
  if name = "" then .done (.badRequest "server name required")
  else commit fun cur =>
    { cur with remoteServers := removeServer lib.fold cur.remoteServers name }

/-- `handleLocalByName`. -/
def handleLocalByName (path : String) : StoreProg SettingsReply :=
  let name := trimPrefix path "/api/locals/"
  if name = "" then .done (.badRequest "server name required")
  else commit fun cur => { cur with localServers := removeLocal lib.fold cur.localServers name }

/-- A request that changes the configuration. -/
inductive SettingsRequest
  | putConfig (body : Option Json)
  | postServer (body : Option Json)
  | postLocal (body : Option Json)
  | deleteServer (path : String)
  | deleteLocal (path : String)

/-- The handler of a request. -/
def handle : SettingsRequest → StoreProg SettingsReply
  | .putConfig body => handleConfig lib body
  | .postServer body => handleServers lib body
  | .postLocal body => handleLocals lib body
  | .deleteServer path => handleServerByName lib path
  | .deleteLocal path => handleLocalByName lib path

/-! ### What requests do -/

/-- `Commits lib req before f`: having read the configuration `before`, the request `req` makes
the update `f`. A `DELETE` does not read. -/
def Commits : SettingsRequest → StoredConfig → (StoredConfig → StoredConfig) → Prop
  | .putConfig body, before, f => ∃ payload, putPayload lib body = .ok payload ∧
      scheduleError lib before payload = none ∧ f = applyPayload before payload
  | .postServer body, before, f => ∃ payload, serverPayload lib body = .ok payload ∧
      localNameExists lib.fold before.localServers payload.name = false ∧
      f = fun cur => { cur with
        remoteServers := upsertServer lib.fold cur.remoteServers (keepToken lib before payload) }
  | .postLocal body, before, f => ∃ payload, localPayload lib body = .ok payload ∧
      remoteNameExists lib.fold before.remoteServers payload.name = false ∧
      f = fun cur => { cur with localServers := upsertLocal lib.fold cur.localServers payload }
  | .deleteServer path, _, f => trimPrefix path "/api/servers/" ≠ "" ∧
      f = fun cur => { cur with
        remoteServers :=
          removeServer lib.fold cur.remoteServers (trimPrefix path "/api/servers/") }
  | .deleteLocal path, _, f => trimPrefix path "/api/locals/" ≠ "" ∧
      f = fun cur => { cur with
        localServers := removeLocal lib.fold cur.localServers (trimPrefix path "/api/locals/") }

/-- A property of the payload of a request is a property of the one payload that it has. -/
theorem forall_payload_iff {α : Type} {x : Except SettingsReply α} {payload : α}
    (h : x = .ok payload) {P : α → Prop} :
    (∀ payload', x = .ok payload' → P payload') ↔ P payload := by
  constructor
  · exact fun hall => hall payload h
  · intro hone payload' h'
    obtain rfl := Except.ok.inj (h.symm.trans h')
    exact hone

/-- **The two kinds of updates.** `PUT /api/config` applies its payload; the others change the
lists of servers only. -/
theorem commits_cases {req : SettingsRequest} {before : StoredConfig}
    {f : StoredConfig → StoredConfig} (h : Commits lib req before f) :
    (∃ body payload, req = .putConfig body ∧ putPayload lib body = .ok payload ∧
      scheduleError lib before payload = none ∧ f = applyPayload before payload) ∨
    ((∀ body, req ≠ .putConfig body) ∧ ∀ cfg, ∃ locals remotes,
      f cfg = { cfg with localServers := locals, remoteServers := remotes }) := by
  cases req with
  | putConfig body =>
      obtain ⟨payload, hpayload, hschedule, rfl⟩ := h
      exact .inl ⟨body, payload, rfl, hpayload, hschedule, rfl⟩
  | postServer body =>
      obtain ⟨payload, -, -, rfl⟩ := h
      exact .inr ⟨nofun, fun cfg => ⟨_, _, rfl⟩⟩
  | postLocal body =>
      obtain ⟨payload, -, -, rfl⟩ := h
      exact .inr ⟨nofun, fun cfg => ⟨_, _, rfl⟩⟩
  | deleteServer path =>
      obtain ⟨-, rfl⟩ := h
      exact .inr ⟨nofun, fun cfg => ⟨_, _, rfl⟩⟩
  | deleteLocal path =>
      obtain ⟨-, rfl⟩ := h
      exact .inr ⟨nofun, fun cfg => ⟨_, _, rfl⟩⟩

/-- Where a request stands: it has read nothing yet, it has read a configuration and is to make
its update, or neither is left to do. -/
inductive SettingsPhase
  | entered (req : SettingsRequest)
  | read (req : SettingsRequest) (before : StoredConfig)
  | finished

/-- The request may end in this phase. -/
def SettingsPhase.MayEnd : SettingsPhase → Prop
  | .read _ _ => False
  | _ => True

open Classical in
/-- The phase after reading: a request that is refused for what it read makes no update. -/
noncomputable def phaseAfterRead (req : SettingsRequest) (before : StoredConfig) :
    SettingsPhase :=
  if ∃ f, Commits lib req before f then .read req before else .finished

/-- After the read a request has its snapshot, or it is over. -/
theorem phaseAfterRead_cases (req : SettingsRequest) (before : StoredConfig) :
    phaseAfterRead lib req before = .read req before ∨
      phaseAfterRead lib req before = .finished := by
  rw [phaseAfterRead]
  split
  · exact .inl rfl
  · exact .inr rfl

/-- The operations that a phase allows, and the phase after them. -/
noncomputable def settingsProtocol : Protocol StoreOp.Res SettingsPhase where
  Allowed
    | .entered _, .get => True
    | .entered (.deleteServer path), .update f =>
        ∀ before, Commits lib (.deleteServer path) before f
    | .entered (.deleteLocal path), .update f =>
        ∀ before, Commits lib (.deleteLocal path) before f
    | .read req before, .update f => Commits lib req before f
    | _, _ => False
  next
    | .entered req, .get, before => phaseAfterRead lib req before
    | phase, .get, _ => phase
    | _, .update _, _ => .finished

/-- A handler obeys the protocol from a phase on. -/
def FollowsProtocol (phase : SettingsPhase) (p : StoreProg SettingsReply) : Prop :=
  Prog.Obeys (settingsProtocol lib) (fun _ => SettingsPhase.MayEnd) phase p

/-- An update ends a request. -/
theorem obeys_commit {phase : SettingsPhase} {f : StoredConfig → StoredConfig}
    (h : (settingsProtocol lib).Allowed phase (.update f)) :
    FollowsProtocol lib phase (commit f) := by
  refine .op h fun _ => .done ?_
  cases phase <;> trivial

/-- After reading, a request that passes its checks makes the update that belongs to them. -/
theorem obeys_afterRead {req : SettingsRequest} {before : StoredConfig}
    {f : StoredConfig → StoredConfig} (h : Commits lib req before f) :
    FollowsProtocol lib (phaseAfterRead lib req before) (commit f) := by
  rw [phaseAfterRead, if_pos ⟨f, h⟩]
  exact obeys_commit lib h

/-- After reading, a request that fails its checks answers. -/
theorem obeys_refused {req : SettingsRequest} {before : StoredConfig} {reply : SettingsReply}
    (h : ∀ f, ¬ Commits lib req before f) :
    FollowsProtocol lib (phaseAfterRead lib req before) (.done reply) := by
  rw [phaseAfterRead, if_neg (not_exists.mpr h)]
  exact .done trivial

/-- **Handlers obey the protocol**: they read first, and make at most one update, the one that
`Commits` gives for what they read. -/
theorem obeys_handle (req : SettingsRequest) :
    FollowsProtocol lib (.entered req) (handle lib req) := by
  cases req with
  | putConfig body =>
      refine .op trivial fun before => ?_
      rcases hpayload : putPayload lib body with reply | payload
      · refine obeys_refused lib ?_
        rintro f ⟨payload, hok, -⟩
        cases hpayload.symm.trans hok
      rcases hschedule : scheduleError lib before payload with _ | err
      · simp only [hschedule]
        exact obeys_afterRead lib ⟨payload, hpayload, hschedule, rfl⟩
      · simp only [hschedule]
        refine obeys_refused lib ?_
        rintro f ⟨payload', hok, hnone, -⟩
        obtain rfl := Except.ok.inj (hpayload.symm.trans hok)
        cases hschedule.symm.trans hnone
  | postServer body =>
      simp only [handle, handleServers]
      rcases hpayload : serverPayload lib body with reply | payload
      · exact .done trivial
      refine .op trivial fun before => .ite (fun hname => ?_) fun hname => ?_
      · refine obeys_refused lib ?_
        rintro f ⟨payload', hok, hfree, -⟩
        obtain rfl := Except.ok.inj (hpayload.symm.trans hok)
        exact Bool.false_ne_true (hfree.symm.trans hname)
      · exact obeys_afterRead lib ⟨payload, hpayload, Bool.not_eq_true _ ▸ hname, rfl⟩
  | postLocal body =>
      simp only [handle, handleLocals]
      rcases hpayload : localPayload lib body with reply | payload
      · exact .done trivial
      refine .op trivial fun before => .ite (fun hname => ?_) fun hname => ?_
      · refine obeys_refused lib ?_
        rintro f ⟨payload', hok, hfree, -⟩
        obtain rfl := Except.ok.inj (hpayload.symm.trans hok)
        exact Bool.false_ne_true (hfree.symm.trans hname)
      · exact obeys_afterRead lib ⟨payload, hpayload, Bool.not_eq_true _ ▸ hname, rfl⟩
  | deleteServer path =>
      exact .ite (fun _ => .done trivial) fun hname => obeys_commit lib fun _ => ⟨hname, rfl⟩
  | deleteLocal path =>
      exact .ite (fun _ => .done trivial) fun hname => obeys_commit lib fun _ => ⟨hname, rfl⟩

/-- The operations that a request makes at all. -/
def SettingsOp (req : SettingsRequest) : StoreOp → Prop
  | .get => True
  | .update f => ∃ before, Commits lib req before f

/-- A handler uses no operation but its own. -/
theorem ops_handle (req : SettingsRequest) : (handle lib req).Ops (SettingsOp lib req) := by
  refine (obeys_handle lib req).ops
    (J := fun phase => phase = .entered req ∨ (∃ before, phase = .read req before) ∨
      phase = .finished) (.inl rfl) ?_
  rintro phase o (rfl | ⟨before, rfl⟩ | rfl) hallowed
  · cases o with
    | get =>
        refine ⟨trivial, fun before => ?_⟩
        rcases phaseAfterRead_cases lib req before with hread | hfinished
        · exact .inr (.inl ⟨before, hread⟩)
        · exact .inr (.inr hfinished)
    | update f =>
        refine ⟨?_, fun _ => .inr (.inr rfl)⟩
        cases req with
        | deleteServer path => exact ⟨defaultConfig, hallowed defaultConfig⟩
        | deleteLocal path => exact ⟨defaultConfig, hallowed defaultConfig⟩
        | _ => exact absurd hallowed id
  · cases o with
    | get => exact absurd hallowed id
    | update f => exact ⟨⟨before, hallowed⟩, fun _ => .inr (.inr rfl)⟩
  · cases o with
    | get => exact absurd hallowed id
    | update f => exact absurd hallowed id

/-! ### Requests together -/

/-- The store and the requests under way. -/
abbrev SettingsPool := Pool Store SettingsRequest StoreOp.Res SettingsReply

/-- What happens: requests come in, and operate on the store. -/
abbrev SettingsEvent := PoolEvent SettingsRequest StoreOp.Res

/-- The steps of the process. Requests come at any time; nothing else changes the store. -/
def settingsStep : SettingsPool → SettingsEvent → SettingsPool → Prop :=
  Pool.Step (storeSem lib.fold) (handle lib) (fun _ s t => t = s) fun _ _ => False

variable {lib}

/-- **Properties of the configuration over runs.** Let the updates that keep a property of the
configuration be exactly those that meet a condition, which says nothing about other events. Then
the runs in which the configuration has the property all the time are exactly those whose updates
meet the condition. -/
theorem run_config_iff {I : StoredConfig → Prop} {C : Store → SettingsEvent → Prop} {s : Store}
    {es : List SettingsEvent} {q : SettingsPool} (hstart : ∀ s req, C s (.start req))
    (hget : ∀ s req r, C s (.op req .get r))
    (hupdate : ∀ {req before f s r}, Commits lib req before f → I s.config →
      (I (normalizeUpdated (f s.config)) ↔ C s (.op req (.update f) r)))
    (h0 : I s.config) :
    Run (fun p e q => settingsStep lib p e q ∧ I q.state.config) ⟨s, []⟩ es q ↔
      Run (fun p e q => settingsStep lib p e q ∧ C p.state e) ⟨s, []⟩ es q := by
  refine Pool.run_condition_iff (I := fun s : Store => I s.config) (ops_handle lib) ?_ ?_ ?_ h0
  · rintro req s t h rfl
    exact iff_of_true h (hstart _ req)
  · rintro s t - henv
    exact absurd henv id
  · intro req o r s t h hop hsem
    cases o with
    | get =>
        obtain ⟨-, rfl⟩ := hsem
        exact iff_of_true h (hget _ req r)
    | update f =>
        obtain ⟨before, hcommits⟩ := hop
        rw [config_of_update hsem]
        exact hupdate hcommits h

/-- What every update keeps, every run keeps. -/
theorem run_config {I : StoredConfig → Prop} {s : Store} {es : List SettingsEvent}
    {q : SettingsPool}
    (hupdate : ∀ {req before f cfg}, Commits lib req before f → I cfg →
      I (normalizeUpdated (f cfg)))
    (h0 : I s.config) (hrun : Run (settingsStep lib) ⟨s, []⟩ es q) : I q.state.config := by
  have hrun : Run (fun p e q => settingsStep lib p e q ∧ True) ⟨s, []⟩ es q :=
    hrun.mono fun h => ⟨h, trivial⟩
  refine Pool.run_invariant (I := fun s : Store => I s.config) (C := fun _ _ => True)
    (ops_handle lib) ?_ ?_ ?_ h0 hrun
  · rintro req s t h rfl
    exact h
  · exact fun _ henv => absurd henv id
  · rintro req o r s t h hop - hsem
    cases o with
    | get =>
        obtain ⟨-, rfl⟩ := hsem
        exact h
    | update f =>
        obtain ⟨before, hcommits⟩ := hop
        rw [config_of_update hsem]
        exact hupdate hcommits h

/-- A request whose checks are passed by what is stored comes to its update, under any semantics
in which `Get` reads what is stored. -/
theorem comes_to_commit {sem : (o : StoreOp) → Store → o.Res → Store → Prop} {s : Store}
    {req : SettingsRequest} {f : StoredConfig → StoredConfig} (hget : sem .get s s.config s)
    (h : Commits lib req s.config f) : Prog.Partial sem (handle lib req) s (commit f) s := by
  cases req with
  | putConfig body =>
      obtain ⟨payload, hpayload, hschedule, rfl⟩ := h
      refine .op hget ?_
      simp only [hpayload, hschedule]
      exact .refl
  | postServer body =>
      obtain ⟨payload, hpayload, hname, rfl⟩ := h
      simp only [handle, handleServers, hpayload]
      refine .op hget ?_
      simp only [hname, Bool.false_eq_true, if_false]
      exact .refl
  | postLocal body =>
      obtain ⟨payload, hpayload, hname, rfl⟩ := h
      simp only [handle, handleLocals, hpayload]
      refine .op hget ?_
      simp only [hname, Bool.false_eq_true, if_false]
      exact .refl
  | deleteServer path =>
      obtain ⟨hname, rfl⟩ := h
      simp only [handle, handleServerByName, if_neg hname]
      exact .refl
  | deleteLocal path =>
      obtain ⟨hname, rfl⟩ := h
      simp only [handle, handleLocalByName, if_neg hname]
      exact .refl

/-- A request alone: it reads, and makes its update, under a condition `C` on steps. -/
theorem run_request {C : Store → SettingsEvent → Prop} {req : SettingsRequest} {s t : Store}
    {f : StoredConfig → StoredConfig} {r : StoredConfig × Option WriteStep}
    (h : Commits lib req s.config f) (hf : storeSem lib.fold (.update f) s r t)
    (hstart : C s (.start req)) (hget : C s (.op req .get s.config))
    (hupdate : C s (.op req (.update f) r)) :
    ∃ es q, Run (fun p e q => settingsStep lib p e q ∧ C p.state e) ⟨s, []⟩ es q ∧
      q.state = t := by
  have hread : Prog.Partial (fun o s r t => storeSem lib.fold o s r t ∧ C s (.op req o r))
      (handle lib req) s (commit f) s := comes_to_commit ⟨⟨rfl, rfl⟩, hget⟩ h
  obtain ⟨es, threads, hrun⟩ : ∃ es threads, Run (fun p e q => settingsStep lib p e q ∧
      C p.state e) ⟨s, []⟩ es ⟨t, threads⟩ :=
    Pool.run_reaches rfl hstart ⟨_, hread.trans (.op ⟨hf, hupdate⟩ .refl)⟩
  exact ⟨es, _, hrun, rfl⟩

/-- **A request may be overtaken.** While the request `a`, which has read the store, is about to
make its update, another request may come and go. -/
theorem run_overtaken {a b : SettingsRequest} {s t u : Store} {f g : StoredConfig → StoredConfig}
    {r r' : StoredConfig × Option WriteStep} (ha : Commits lib a s.config f)
    (hb : Commits lib b s.config g) (hg : storeSem lib.fold (.update g) s r t)
    (hf : storeSem lib.fold (.update f) t r' u) :
    ∃ es p q, Run (settingsStep lib) ⟨s, []⟩ es p ∧ p.state = t ∧
      settingsStep lib p (.op a (.update f) r') q ∧ q.state = u := by
  have hstartA : settingsStep lib ⟨s, []⟩ (.start a) ⟨s, [(a, handle lib a)]⟩ := .start rfl
  obtain ⟨es₁, hreadA⟩ : ∃ es, Run (settingsStep lib) ⟨s, [(a, handle lib a)]⟩ es
      ⟨s, [(a, commit f)]⟩ :=
    Pool.run_alone (comes_to_commit ⟨rfl, rfl⟩ ha) [] []
  have hstartB : settingsStep lib ⟨s, [(a, commit f)]⟩ (.start b)
      ⟨s, [(a, commit f), (b, handle lib b)]⟩ := .start rfl
  obtain ⟨es₂, hreadB⟩ : ∃ es, Run (settingsStep lib) ⟨s, [(a, commit f), (b, handle lib b)]⟩ es
      ⟨s, [(a, commit f), (b, commit g)]⟩ :=
    Pool.run_alone (comes_to_commit ⟨rfl, rfl⟩ hb) [(a, commit f)] []
  obtain ⟨es₃, hupdateB⟩ : ∃ es, Run (settingsStep lib) ⟨s, [(a, commit f), (b, commit g)]⟩ es
      ⟨t, [(a, commit f), (b, .done (replyOf r))]⟩ :=
    Pool.run_alone (.op hg .refl) [(a, commit f)] []
  have hfirst : [(a, commit f), (b, .done (replyOf r))] =
      [] ++ (a, commit f) :: [(b, .done (replyOf r))] := rfl
  have hread := (((Run.single hstartA).append hreadA).snoc hstartB).append hreadB
  exact ⟨_, _, _, hread.append hupdateB, rfl, .op hfirst hf, rfl⟩

end

end Contiwatch
