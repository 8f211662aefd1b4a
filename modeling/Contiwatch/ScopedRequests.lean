import Contiwatch.Lib.GoJson
import Contiwatch.ScanHandlers
import Contiwatch.StackActions

/-!
# Requests for a Server

The requests for the containers, images, networks and volumes of a server have one shape:
`internal/server/containers.go`, `images.go`, `networks.go` and `volumes.go`. The scope of a request
names a server. A controller serves a local one through its Docker daemon and sends the request on
to the agent of a remote one; the agent serves it as its only local server, and the controller
takes the agent's answer apart and gives one of its own.

An `Operation` is one of these requests: how its arguments are read and sent on, what it does with a
daemon, and how its result is answered and taken out of an answer. It carries the proofs that
these fit together.

## Main results

* `ScopedOp.operation` — the fifteen requests, with their data as it is sent.
* `scoped_remote_like_local` — a request for a remote server does with the agent's daemon what a
  request for a local server does with that server's, and is answered in the same way.
-/

namespace Contiwatch

namespace Scoped

open GoJson GoStrings

/-! ### Data -/

/-- `ContainerIP`. -/
structure ContainerIP where
  network : String
  ip : String
  deriving DecidableEq

/-- `ContainerPortBinding`. -/
structure ContainerPortBinding where
  proto : String
  containerPort : Int64
  hostIP : String
  hostPort : Int64
  deriving DecidableEq

/-- `ContainerInfo`. -/
structure ContainerInfo where
  id : String
  name : String
  image : String
  state : String
  uptimeSec : Int64
  stack : String
  ipAddresses : List ContainerIP
  ports : List ContainerPortBinding
  deriving DecidableEq

/-- `ImageInfo`. -/
structure ImageInfo where
  id : String
  repository : String
  tag : String
  sizeBytes : Int64
  createdAt : String
  containersCount : Int64
  dangling : Bool

/-- `VolumeUsedBy` and `NetworkUsedBy`. -/
structure UsedBy where
  id : String
  name : String
  stack : String
  deriving DecidableEq

/-- `VolumeInfo`. -/
structure VolumeInfo where
  name : String
  driver : String
  stack : String
  usedBy : List UsedBy
  mountpoint : String
  labels : GoMap String String
  createdAt : String
  scope : String

/-- `NetworkInfo`. -/
structure NetworkInfo where
  id : String
  name : String
  driver : String
  stack : String
  subnet : String
  gateway : String
  containersCount : Int64
  scope : String
  system : Bool

/-- `NetworkSubnet`. -/
structure NetworkSubnet where
  subnet : String
  gateway : String

/-- `NetworkContainer`. -/
structure NetworkContainer where
  id : String
  name : String
  ip : String
  mac : String

/-- `NetworkDetails`. -/
structure NetworkDetails where
  id : String
  name : String
  driver : String
  createdAt : String
  scope : String
  subnets : List NetworkSubnet
  containers : List NetworkContainer
  system : Bool

section

variable (fold : Char → Char)

def containerIPCodec : Codec ContainerIP :=
  structCodec fold ⟨"", ""⟩
    [field "network" stringCodec (·.network) fun v t => { t with network := v },
      field "ip" stringCodec (·.ip) fun v t => { t with ip := v }]
    (by simp) (by simp)

def containerPortBindingCodec : Codec ContainerPortBinding :=
  structCodec fold ⟨"", 0, "", 0⟩
    [field "proto" stringCodec (·.proto) fun v t => { t with proto := v },
      field "container_port" intCodec (·.containerPort) fun v t => { t with containerPort := v },
      field "host_ip" stringCodec (·.hostIP) fun v t => { t with hostIP := v },
      field "host_port" intCodec (·.hostPort) fun v t => { t with hostPort := v }]
    (by simp) (by simp)

def containerInfoCodec : Codec ContainerInfo :=
  structCodec fold ⟨"", "", "", "", 0, "", [], []⟩
    [field "id" stringCodec (·.id) fun v t => { t with id := v },
      field "name" stringCodec (·.name) fun v t => { t with name := v },
      field "image" stringCodec (·.image) fun v t => { t with image := v },
      field "state" stringCodec (·.state) fun v t => { t with state := v },
      field "uptime_sec" intCodec (·.uptimeSec) fun v t => { t with uptimeSec := v },
      field "stack" stringCodec (·.stack) fun v t => { t with stack := v },
      omitempty "ip_addresses" (sliceCodec (containerIPCodec fold)) (·.ipAddresses)
        (fun v t => { t with ipAddresses := v }) fun _ => rfl,
      omitempty "ports" (sliceCodec (containerPortBindingCodec fold)) (·.ports)
        (fun v t => { t with ports := v }) fun _ => rfl]
    (by simp) (by simp)

def imageInfoCodec : Codec ImageInfo :=
  structCodec fold ⟨"", "", "", 0, "", 0, false⟩
    [field "id" stringCodec (·.id) fun v t => { t with id := v },
      field "repository" stringCodec (·.repository) fun v t => { t with repository := v },
      field "tag" stringCodec (·.tag) fun v t => { t with tag := v },
      field "size_bytes" intCodec (·.sizeBytes) fun v t => { t with sizeBytes := v },
      field "created_at" stringCodec (·.createdAt) fun v t => { t with createdAt := v },
      field "containers_count" intCodec (·.containersCount)
        fun v t => { t with containersCount := v },
      field "dangling" boolCodec (·.dangling) fun v t => { t with dangling := v }]
    (by simp) (by simp)

def usedByCodec : Codec UsedBy :=
  structCodec fold ⟨"", "", ""⟩
    [field "id" stringCodec (·.id) fun v t => { t with id := v },
      field "name" stringCodec (·.name) fun v t => { t with name := v },
      field "stack" stringCodec (·.stack) fun v t => { t with stack := v }]
    (by simp) (by simp)

def volumeInfoCodec : Codec VolumeInfo :=
  structCodec fold ⟨"", "", "", [], "", ∅, "", ""⟩
    [field "name" stringCodec (·.name) fun v t => { t with name := v },
      field "driver" stringCodec (·.driver) fun v t => { t with driver := v },
      field "stack" stringCodec (·.stack) fun v t => { t with stack := v },
      field "used_by" (sliceCodec (usedByCodec fold)) (·.usedBy) fun v t => { t with usedBy := v },
      field "mountpoint" stringCodec (·.mountpoint) fun v t => { t with mountpoint := v },
      field "labels" (mapCodec stringCodec) (·.labels) fun v t => { t with labels := v },
      field "created_at" stringCodec (·.createdAt) fun v t => { t with createdAt := v },
      field "scope" stringCodec (·.scope) fun v t => { t with scope := v }]
    (by simp) (by simp)

def networkInfoCodec : Codec NetworkInfo :=
  structCodec fold ⟨"", "", "", "", "", "", 0, "", false⟩
    [field "id" stringCodec (·.id) fun v t => { t with id := v },
      field "name" stringCodec (·.name) fun v t => { t with name := v },
      field "driver" stringCodec (·.driver) fun v t => { t with driver := v },
      field "stack" stringCodec (·.stack) fun v t => { t with stack := v },
      field "subnet" stringCodec (·.subnet) fun v t => { t with subnet := v },
      field "gateway" stringCodec (·.gateway) fun v t => { t with gateway := v },
      field "containers_count" intCodec (·.containersCount)
        fun v t => { t with containersCount := v },
      field "scope" stringCodec (·.scope) fun v t => { t with scope := v },
      field "system" boolCodec (·.system) fun v t => { t with system := v }]
    (by simp) (by simp)

def networkSubnetCodec : Codec NetworkSubnet :=
  structCodec fold ⟨"", ""⟩
    [field "subnet" stringCodec (·.subnet) fun v t => { t with subnet := v },
      field "gateway" stringCodec (·.gateway) fun v t => { t with gateway := v }]
    (by simp) (by simp)

def networkContainerCodec : Codec NetworkContainer :=
  structCodec fold ⟨"", "", "", ""⟩
    [field "id" stringCodec (·.id) fun v t => { t with id := v },
      field "name" stringCodec (·.name) fun v t => { t with name := v },
      field "ip" stringCodec (·.ip) fun v t => { t with ip := v },
      field "mac" stringCodec (·.mac) fun v t => { t with mac := v }]
    (by simp) (by simp)

def networkDetailsCodec : Codec NetworkDetails :=
  structCodec fold ⟨"", "", "", "", "", [], [], false⟩
    [field "id" stringCodec (·.id) fun v t => { t with id := v },
      field "name" stringCodec (·.name) fun v t => { t with name := v },
      field "driver" stringCodec (·.driver) fun v t => { t with driver := v },
      field "created_at" stringCodec (·.createdAt) fun v t => { t with createdAt := v },
      field "scope" stringCodec (·.scope) fun v t => { t with scope := v },
      field "subnets" (sliceCodec (networkSubnetCodec fold)) (·.subnets)
        fun v t => { t with subnets := v },
      field "containers" (sliceCodec (networkContainerCodec fold)) (·.containers)
        fun v t => { t with containers := v },
      field "system" boolCodec (·.system) fun v t => { t with system := v }]
    (by simp) (by simp)

end

/-! ### Daemons -/

/-- Something that is done with a daemon, whose state it may change, also where it fails. -/
abbrev Daemon (σ : Type) := ExceptT String (StateM σ)

/-- `dockerwatcher.Watcher`, as far as these requests use it. -/
structure Watcher (σ : Type) where
  containers : Daemon σ (List ContainerInfo)
  startContainer : String → Daemon σ Unit
  stopContainer : String → ℕ → Daemon σ Unit
  restartContainer : String → ℕ → Daemon σ Unit
  pauseContainer : String → Daemon σ Unit
  unpauseContainer : String → Daemon σ Unit
  killContainer : String → Daemon σ Unit
  removeContainer : String → Daemon σ Unit
  listImages : Daemon σ (List ImageInfo)
  pullImage : String → String → Daemon σ Unit
  pruneImages : String → Daemon σ (Int64 × UInt64)
  removeImage : String → Daemon σ Unit
  listNetworks : Daemon σ (List NetworkInfo)
  networkDetails : String → Daemon σ NetworkDetails
  networkUsage : String → Daemon σ (List UsedBy)
  removeNetwork : String → Daemon σ Unit
  pruneNetworks : Daemon σ (List String)
  connectNetwork : String → String → Daemon σ Unit
  disconnectNetwork : String → String → Daemon σ Unit
  listVolumes : Daemon σ (List VolumeInfo)
  volumeUsage : String → Daemon σ (List UsedBy)
  removeVolume : String → Daemon σ Unit
  pruneVolumes : Daemon σ (List String × UInt64)

/-! ### Operations -/

/-- A request. Its body is a JSON document if it can be read as one. -/
structure ApiRequest where
  method : String
  query : String → String
  body : Option Json

/-- An answer. One without a body has `null` here. -/
structure ApiAnswer where
  status : ℕ
  body : Json

/-- `writeError`, for an error that is not about the size of a body. -/
def errorAnswer (text : String) : ApiAnswer := ⟨400, .obj [("error", .str text)]⟩

def ApiAnswer.isSuccess (a : ApiAnswer) : Bool := 200 ≤ a.status && a.status < 300

/-- The error for an answer that is none of success. -/
def statusError (status : ℕ) : String := "status " ++ toString status

/-- The body of an answer of success, which has the form of `c`; `refused` is the error of the JSON
package for a body. -/
def takeBody {R : Type} (refused : Option Json → String) (c : Codec R) (a : ApiAnswer) :
    Except String R :=
  if ¬ a.isSuccess then .error (statusError a.status)
  else
    match c.decode a.body c.zero with
    | none => .error (refused (some a.body))
    | some response => .ok response

/-- The controller reads what the agent has written. -/
theorem takeBody_encode {R : Type} (refused : Option Json → String) (c : Codec R) (response : R) :
    takeBody refused c ⟨200, c.encode response⟩ = .ok response := by
  have hsuccess : (ApiAnswer.mk 200 (c.encode response)).isSuccess = true := rfl
  rw [takeBody, if_neg (not_not_intro hsuccess), c.decode_encode]

/-- One of the requests, with arguments `A` and results `V`. `relay` is what becomes of a result
that an agent answers. -/
structure Operation (σ A V : Type) where
  method : String
  path : String
  read : ApiRequest → Except String (String × A)
  send : A → ApiRequest
  perform : Watcher σ → A → Daemon σ V
  answer : String → A → String → Except String V → ApiAnswer
  accept : ApiAnswer → Except String V
  relay : Except String V → Except String V
  send_method : ∀ a, (send a).method = method
  send_server : ∀ a, (send a).query "server" = ""
  read_send : ∀ r scope a, read r = .ok (scope, a) → ∃ scope', read (send a) = .ok (scope', a)
  accept_answer : ∀ scope a now result, accept (answer scope a now result) = relay result
  accept_refused : ∀ text, accept (errorAnswer text) = .error (statusError 400)
  relay_ok : ∀ v, relay (.ok v) = .ok v
  relay_error : ∀ e, e ≠ "" → ∃ e', relay (.error e) = .error e'

/-- A server: its configuration, the way to a daemon, and the time in its answers. -/
structure Server (σ : Type) where
  fold : Char → Char
  cfg : Config
  agentMode : Bool
  now : String
  newWithHost : String → Except String (Watcher σ)

/-- How a request is sent to an agent. -/
abbrev AgentCall (σ : Type) := RemoteServer → String → ApiRequest → Daemon σ ApiAnswer

/-- The server that an agent is asked about. -/
def agentName (cfg : Config) (server : String) : String :=
  let name := trimSpaceStr server
  if name = "" then
    match cfg.localServers with
    | [srv] => srv.name
    | _ => name
  else name

section

variable {σ A V : Type} (op : Operation σ A V) (srv : Server σ) (call : AgentCall σ)

/-- The function for local servers, such as `listLocalVolumes`. -/
def Operation.runLocal (name : String) (a : A) : Daemon σ V :=
  match findLocalServer srv.fold srv.cfg.localServers name with
  | none => throw "local server not found"
  | some entry =>
      match srv.newWithHost (dockerHostFromSocket entry.socket) with
      | .error err => throw err
      | .ok watcher => op.perform watcher a

/-- The function for remote servers, such as `listRemoteVolumes`. -/
def Operation.runRemote (name : String) (a : A) : Daemon σ V :=
  match findRemoteServer srv.fold srv.cfg.remoteServers name with
  | none => throw "remote server not found"
  | some remote =>
      if remote.url = "" then throw "remote url missing"
      else do
        let answer ← call remote op.path (op.send a)
        match op.accept answer with
        | .error err => throw err
        | .ok v => pure v

/-- The answer for what was done. -/
def Operation.reply (scope : String) (a : A) (run : Daemon σ V) : StateM σ ApiAnswer := do
  let result ← run.run
  pure (op.answer scope a srv.now result)

/-- The handlers, such as `handleVolumes`. -/
def scopedHandler (r : ApiRequest) : StateM σ ApiAnswer :=
  if r.method ≠ op.method then pure ⟨405, .null⟩
  else
    match op.read r with
    | .error text => pure (errorAnswer text)
    | .ok (scope, a) =>
        if srv.agentMode then
          let name := agentName srv.cfg (r.query "server")
          if name = "" then pure (errorAnswer "server name required")
          else op.reply srv ("local:" ++ name) a (op.runLocal srv name a)
        else
          let scope := trimSpaceStr scope
          if scope = "" then pure (errorAnswer "scope is required")
          else
            match parseScope scope with
            | .error text => pure (errorAnswer text)
            | .ok (.onHost, name) => op.reply srv scope a (op.runLocal srv name a)
            | .ok (.remote, name) => op.reply srv scope a (op.runRemote srv call name a)

end

/-! ### Through an agent -/

/-- What happens to a request on its way to an agent and back. -/
inductive Delivery
  | answered
  | lost (err : String)
  | unanswered (err : String)

section

variable {σ A V : Type} (op : Operation σ A V)

/-- A call that reaches the agent, which calls no agent itself. -/
def throughAgent (agent : Server σ) (d : Delivery) : AgentCall σ := fun _ _ r =>
  match d with
  | .answered => ExceptT.lift (scopedHandler op agent (fun _ _ _ => throw "") r)
  | .lost err => throw err
  | .unanswered err => do
      let _ ← ExceptT.lift (scopedHandler op agent (fun _ _ _ => throw "") r)
      throw err

/-- A request of a server's user: what is asked for, and what it asks of which server. -/
structure Asks (op : Operation σ A V) (r : ApiRequest) (server : ServerType × String)
    (scope : String) (a : A) : Prop where
  method : r.method = op.method
  args : ∃ text, op.read r = .ok (text, a) ∧ trimSpaceStr text = scope
  scope : parseScope scope = .ok server

/-- An agent with one server, whose daemon is `watcher`. -/
structure AgentWith (agent : Server σ) (watcher : Watcher σ) : Prop where
  agentMode : agent.agentMode = true
  server : ∃ entry, agent.cfg.localServers = [entry] ∧ entry.name ≠ "" ∧
    agent.newWithHost (dockerHostFromSocket entry.socket) = .ok watcher

/-- A name is equal to itself, whatever the folding. -/
theorem equalFold_self (fold : Char → Char) (s : String) : equalFold fold s s = true :=
  decide_eq_true rfl

/-- The agent's only local server is found by its name. -/
theorem findLocalServer_only (fold : Char → Char) (srv : LocalServer) :
    findLocalServer fold [srv] srv.name = some srv := by
  simp [findLocalServer, equalFold_self]

/-- The empty scope is none. -/
theorem ne_empty_of_parseScope {scope : String} {server : ServerType × String}
    (h : parseScope scope = .ok server) : scope ≠ "" := by
  rintro rfl
  have hnone : parseScope "" = .error "invalid scope" := by decide
  rw [hnone] at h
  cases h

theorem reply_run (srv : Server σ) (scope : String) (a : A) (run : Daemon σ V) (w : σ) :
    op.reply srv scope a run w =
      (op.answer scope a srv.now (run.run w).1, (run.run w).2) := rfl

/-- An answer is taken apart. -/
theorem accept_run (m : StateM σ ApiAnswer) (w : σ) :
    ExceptT.run (do
      let answer ← (ExceptT.lift m : Daemon σ ApiAnswer)
      match op.accept answer with
      | .error err => throw err
      | .ok v => pure v) w = (op.accept (m w).1, (m w).2) := by
  change ExceptT.run (match op.accept (m w).1 with
    | .error err => throw err
    | .ok v => pure v : Daemon σ V) (m w).2 = _
  cases op.accept (m w).1 with
  | error err => rfl
  | ok v => rfl

/-- What an agent with one server does with a request that a controller sends. -/
theorem scopedHandler_agent {agent : Server σ} {watcher : Watcher σ}
    (hagent : AgentWith agent watcher) {r : ApiRequest} {text : String} {a : A}
    (hread : op.read r = .ok (text, a))
    (call : AgentCall σ) : ∃ scope,
    scopedHandler op agent call (op.send a) = op.reply agent scope a (op.perform watcher a) := by
  obtain ⟨entry, hservers, hname, hhost⟩ := hagent.server
  obtain ⟨text', hsend⟩ := op.read_send r text a hread
  have hagentName : agentName agent.cfg ((op.send a).query "server") = entry.name := by
    have htrim : trimSpaceStr "" = "" := by decide
    rw [op.send_server, agentName, htrim, hservers]
    rfl
  have hlocal : op.runLocal agent entry.name a = op.perform watcher a := by
    rw [Operation.runLocal, hservers, findLocalServer_only]
    dsimp only
    rw [hhost]
  refine ⟨"local:" ++ entry.name, ?_⟩
  rw [scopedHandler, op.send_method, if_neg (not_not_intro rfl), hsend]
  dsimp only
  rw [if_pos hagent.agentMode, hagentName, if_neg hname, hlocal]

/-- What a controller does with a request that names a server. -/
theorem scopedHandler_controller {controller : Server σ}
    (hcontroller : controller.agentMode = false) {r : ApiRequest} {server : ServerType × String}
    {scope : String} {a : A}
    (hr : Asks op r server scope a) (call : AgentCall σ) :
    scopedHandler op controller call r = op.reply controller scope a
      (match server with
      | (.onHost, name) => op.runLocal controller name a
      | (.remote, name) => op.runRemote controller call name a) := by
  obtain ⟨text, hread, rfl⟩ := hr.args
  rw [scopedHandler, hr.method, if_neg (not_not_intro rfl), hread]
  dsimp only
  rw [if_neg (by rw [hcontroller]; exact Bool.false_ne_true),
    if_neg (ne_empty_of_parseScope hr.scope), hr.scope]
  obtain ⟨type, name⟩ := server
  cases type <;> rfl

/-- What is done and answered for a remote server, by what becomes of the request: the result of the
agent's daemon as far as it is relayed, or the error of the connection. -/
theorem scopedHandler_remote {controller agent : Server σ}
    (hcontroller : controller.agentMode = false) {watcher : Watcher σ}
    (hagent : AgentWith agent watcher) {r : ApiRequest} {scope name : String} {a : A}
    (hr : Asks op r (.remote, name) scope a) {remote : RemoteServer}
    (hremote : findRemoteServer controller.fold controller.cfg.remoteServers name = some remote)
    (hurl : remote.url ≠ "") (d : Delivery) (w : σ) :
    scopedHandler op controller (throughAgent op agent d) r w =
      let done := (op.perform watcher a).run w
      let answer := op.answer scope a controller.now
      match d with
      | .answered => (answer (op.relay done.1), done.2)
      | .lost err => (answer (.error err), w)
      | .unanswered err => (answer (.error err), done.2) := by
  obtain ⟨text, hread, -⟩ := hr.args
  obtain ⟨agentScope, hsent⟩ := scopedHandler_agent op hagent hread (fun _ _ _ => throw "")
  rw [scopedHandler_controller op hcontroller hr]
  dsimp only
  rw [Operation.runRemote, hremote]
  dsimp only
  rw [if_neg hurl]
  cases d with
  | answered =>
      have hcall : throughAgent op agent .answered remote op.path (op.send a) =
        ExceptT.lift (op.reply agent agentScope a (op.perform watcher a)) :=
        congrArg ExceptT.lift hsent
      rw [hcall, reply_run, accept_run, reply_run, op.accept_answer]
  | lost err => rfl
  | unanswered err =>
      have hcall : throughAgent op agent (.unanswered err) remote op.path (op.send a) =
          ExceptT.lift (op.reply agent agentScope a (op.perform watcher a)) >>=
            fun _ => throw err := by
        rw [throughAgent, hsent]
      rw [hcall]
      rfl

/-- What is done and answered for a local server. -/
theorem scopedHandler_onHost {controller : Server σ} (hcontroller : controller.agentMode = false)
    {r : ApiRequest} {scope name : String} {a : A} (hr : Asks op r (.onHost, name) scope a)
    {entry : LocalServer}
    (hentry : findLocalServer controller.fold controller.cfg.localServers name = some entry)
    {watcher : Watcher σ}
    (hhost : controller.newWithHost (dockerHostFromSocket entry.socket) = .ok watcher)
    (call : AgentCall σ) (w : σ) :
    scopedHandler op controller call r w =
      (op.answer scope a controller.now ((op.perform watcher a).run w).1,
        ((op.perform watcher a).run w).2) := by
  rw [scopedHandler_controller op hcontroller hr]
  dsimp only
  rw [Operation.runLocal, hentry]
  dsimp only
  rw [hhost, reply_run]

end

/-! ### The requests for lists and details -/

/-- The responses with a list, or with the details of a network. -/
structure ListResponse (P : Type) where
  scope : String
  payload : P
  error : String

section

variable {σ P : Type} (fold : Char → Char) (refused : Option Json → String)

/-- `containersResponse` and its like, whose payload has the key `key`. -/
def listResponseCodec (key : String) (c : Codec P) (hscope : key ≠ "scope")
    (herror : key ≠ "error") : Codec (ListResponse P) :=
  structCodec fold ⟨"", c.zero, ""⟩
    [field "scope" stringCodec (·.scope) fun v t => { t with scope := v },
      field key c (·.payload) fun v t => { t with payload := v },
      omitempty "error" stringCodec (·.error) (fun v t => { t with error := v }) fun _ => rfl]
    (by simp [hscope.symm, herror]) (by simp)

/-- A request whose errors are part of a response: from `read`, which takes the arguments out of the
query, to the response. -/
def listOperation {A : Type} (path key : String) (c : Codec P) (hscope : key ≠ "scope")
    (herror : key ≠ "error") (read : (String → String) → Except String A)
    (send : A → String → String) (hserver : ∀ a, send a "server" = "")
    (hread : ∀ query a, read query = .ok a → read (send a) = .ok a)
    (perform : Watcher σ → A → Daemon σ P) : Operation σ A P where
  method := "GET"
  path := path
  read r := (read r.query).map fun a => (r.query "scope", a)
  send a := ⟨"GET", send a, none⟩
  perform := perform
  answer scope _ _
    | .ok v => ⟨200, (listResponseCodec fold key c hscope herror).encode ⟨scope, v, ""⟩⟩
    | .error err => ⟨200, (listResponseCodec fold key c hscope herror).encode ⟨scope, c.zero, err⟩⟩
  accept a := do
    let response ← takeBody refused (listResponseCodec fold key c hscope herror) a
    if response.error ≠ "" then .error response.error else .ok response.payload
  relay
    | .ok v => .ok v
    | .error err => if err ≠ "" then .error err else .ok c.zero
  send_method _ := rfl
  send_server := hserver
  read_send r scope a h := by
    cases hquery : read r.query with
    | error err =>
        rw [hquery] at h
        cases h
    | ok a' =>
        rw [hquery] at h
        obtain ⟨-, rfl⟩ := Prod.mk.inj (Except.ok.inj h)
        exact ⟨_, by rw [hread _ _ hquery]; rfl⟩
  accept_answer scope a now result := by
    cases result with
    | ok v =>
        dsimp only
        rw [takeBody_encode]
        rfl
    | error err =>
        dsimp only
        rw [takeBody_encode]
        rfl
  accept_refused _ := rfl
  relay_ok _ := rfl
  relay_error err herr := ⟨err, if_pos herr⟩

/-- `handleContainers`. -/
def handleContainers : Operation σ Unit (List ContainerInfo) :=
  listOperation fold refused "/api/containers" "containers" (sliceCodec (containerInfoCodec fold))
    (by decide) (by decide) (fun _ => .ok ()) (fun _ _ => "") (fun _ => rfl) (fun _ _ _ => rfl)
    fun watcher _ => watcher.containers

/-- `handleImages`. -/
def handleImages : Operation σ Unit (List ImageInfo) :=
  listOperation fold refused "/api/images" "images" (sliceCodec (imageInfoCodec fold))
    (by decide) (by decide) (fun _ => .ok ()) (fun _ _ => "") (fun _ => rfl) (fun _ _ _ => rfl)
    fun watcher _ => watcher.listImages

/-- `handleNetworks`. -/
def handleNetworks : Operation σ Unit (List NetworkInfo) :=
  listOperation fold refused "/api/networks" "networks" (sliceCodec (networkInfoCodec fold))
    (by decide) (by decide) (fun _ => .ok ()) (fun _ _ => "") (fun _ => rfl) (fun _ _ _ => rfl)
    fun watcher _ => watcher.listNetworks

/-- `handleVolumes`. -/
def handleVolumes : Operation σ Unit (List VolumeInfo) :=
  listOperation fold refused "/api/volumes" "volumes" (sliceCodec (volumeInfoCodec fold))
    (by decide) (by decide) (fun _ => .ok ()) (fun _ _ => "") (fun _ => rfl) (fun _ _ _ => rfl)
    fun watcher _ => watcher.listVolumes

/-- The argument of `handleNetworkDetails`. -/
def readNetworkID (query : String → String) : Except String String :=
  let networkID := trimSpaceStr (query "id")
  if networkID = "" then .error "id is required" else .ok networkID

/-- `handleNetworkDetails`. -/
def handleNetworkDetails : Operation σ String NetworkDetails :=
  listOperation fold refused "/api/networks/details" "network" (networkDetailsCodec fold)
    (by decide) (by decide) readNetworkID (fun id key => if key = "id" then id else "")
    (fun _ => if_neg (by decide))
    (fun query a h => by
      rw [readNetworkID] at h ⊢
      split at h
      · cases h
      · obtain rfl := Except.ok.inj h
        rename_i hne
        rw [if_pos rfl, trimSpaceStr_trimSpaceStr, if_neg hne])
    fun watcher => watcher.networkDetails

end

/-! ### The requests for actions -/

section

variable {σ P A V : Type} (fold : Char → Char) (refused : Option Json → String)

/-- The payload of a request, and the arguments in it. -/
def readPayload (c : Codec P) (scope : P → String) (arguments : P → Except String A)
    (r : ApiRequest) : Except String (String × A) :=
  match r.body.bind fun doc => c.decode doc c.zero with
  | none => .error (refused r.body)
  | some payload => (arguments payload).map fun a => (scope payload, a)

/-- What is sent for arguments that were read gives these arguments. -/
structure Sends (c : Codec P) (arguments : P → Except String A) (request : A → Json) : Prop where
  again : ∀ p a, arguments p = .ok a → ∃ p', c.decode (request a) c.zero = some p' ∧
    arguments p' = .ok a

/-- The agent reads the arguments that the controller read. -/
theorem Sends.readPayload {c : Codec P} {scope : P → String} {arguments : P → Except String A}
    {request : A → Json} (h : Sends c arguments request) {r : ApiRequest} {text : String} {a : A}
    (hread : readPayload refused c scope arguments r = .ok (text, a)) :
    ∃ text', Scoped.readPayload refused c scope arguments ⟨"POST", fun _ => "", some (request a)⟩ =
      .ok (text', a) := by
  rw [Scoped.readPayload] at hread
  split at hread
  · cases hread
  · rename_i payload hpayload
    cases harguments : arguments payload with
    | error err =>
        rw [harguments] at hread
        cases hread
    | ok a' =>
        rw [harguments] at hread
        obtain ⟨-, rfl⟩ := Prod.mk.inj (Except.ok.inj hread)
        obtain ⟨payload', hdecode, hagain⟩ := h.again payload a' harguments
        refine ⟨scope payload', ?_⟩
        rw [Scoped.readPayload, Option.bind_some, hdecode]
        dsimp only
        rw [hagain]
        rfl

/-- A request that is answered with 400 where it fails. `reply` is the body of the answer to one
that succeeds. -/
def postOperation (path : String) (c : Codec P) (scope : P → String)
    (arguments : P → Except String A) (request : A → Json) (hsends : Sends c arguments request)
    (perform : Watcher σ → A → Daemon σ V) (reply : A → String → V → Json)
    (accept : ApiAnswer → Except String V)
    (haccept : ∀ a now v, accept ⟨200, reply a now v⟩ = .ok v)
    (hrefused : ∀ text, accept (errorAnswer text) = .error (statusError 400)) :
    Operation σ A V where
  method := "POST"
  path := path
  read := readPayload refused c scope arguments
  send a := ⟨"POST", fun _ => "", some (request a)⟩
  perform := perform
  answer _ a now
    | .ok v => ⟨200, reply a now v⟩
    | .error err => errorAnswer err
  accept := accept
  relay
    | .ok v => .ok v
    | .error _ => .error (statusError 400)
  send_method _ := rfl
  send_server _ := rfl
  read_send _ _ _ h := hsends.readPayload refused h
  accept_answer _ a now result := by
    cases result with
    | ok v => exact haccept a now v
    | error err => exact hrefused err
  accept_refused := hrefused
  relay_ok _ := rfl
  relay_error _ _ := ⟨_, rfl⟩

/-- What a controller makes of an answer of which it reads the status only. -/
def takeStatus (a : ApiAnswer) : Except String Unit :=
  if ¬ a.isSuccess then .error (statusError a.status) else .ok ()

/-- A request without a result of its own. -/
def plainOperation (path : String) (c : Codec P) (scope : P → String)
    (arguments : P → Except String A) (request : A → Json) (hsends : Sends c arguments request)
    (perform : Watcher σ → A → Daemon σ Unit) (reply : A → String → Json) :
    Operation σ A Unit :=
  postOperation refused path c scope arguments request hsends perform (fun a now _ => reply a now)
    takeStatus (fun _ _ _ => rfl) fun _ => rfl

/-- A request whose result is the body of the answer. -/
def valueOperation {R : Type} (path : String) (c : Codec P) (scope : P → String)
    (arguments : P → Except String A) (request : A → Json) (hsends : Sends c arguments request)
    (perform : Watcher σ → A → Daemon σ V) (response : Codec R) (wrap : V → R) (unwrap : R → V)
    (hwrap : ∀ v, unwrap (wrap v) = v) : Operation σ A V :=
  postOperation refused path c scope arguments request hsends perform
    (fun _ _ v => response.encode (wrap v)) (fun a => (takeBody refused response a).map unwrap)
    (fun _ _ v => by rw [takeBody_encode]; exact congrArg Except.ok (hwrap v)) fun _ => rfl

/-! ### Removal of what may be in use -/

/-- `volumeRemoveResponse` and `networkRemoveResponse`. -/
structure RemoveResponse where
  target : String
  removedAt : String
  blockedBy : List UsedBy
  error : String

/-- Their codec, with the key of what is removed. -/
def removeResponseCodec (key : String) (hkey : key ∉ ["removed_at", "blocked_by", "error"]) :
    Codec RemoveResponse :=
  structCodec fold ⟨"", "", [], ""⟩
    [field key stringCodec (·.target) fun v t => { t with target := v },
      omitempty "removed_at" stringCodec (·.removedAt) (fun v t => { t with removedAt := v })
        fun _ => rfl,
      omitempty "blocked_by" (sliceCodec (usedByCodec fold)) (·.blockedBy)
        (fun v t => { t with blockedBy := v }) fun _ => rfl,
      omitempty "error" stringCodec (·.error) (fun v t => { t with error := v }) fun _ => rfl]
    (by simpa using hkey) (by simp)

/-- `removeLocalVolume` and `removeLocalNetwork`, with the daemon at hand: what is in use is not
removed. The result is what uses it. -/
def removeUnused (usage : Daemon σ (List UsedBy)) (remove : Daemon σ Unit) :
    Daemon σ (List UsedBy) := do
  let usage ← usage
  if usage.length > 0 then return usage
  remove
  return []

/-- What a controller makes of an agent's answer to a removal. -/
def takeRemoval (key inUse : String) (hkey : key ∉ ["removed_at", "blocked_by", "error"])
    (a : ApiAnswer) : Except String (List UsedBy) :=
  if a.status = 409 then
    match (removeResponseCodec fold key hkey).decode a.body
        (removeResponseCodec fold key hkey).zero with
    | some response => .ok response.blockedBy
    | none => .error inUse
  else if ¬ a.isSuccess then .error (statusError a.status)
  else .ok []

/-- The containers in the way are read back from a conflict. -/
theorem takeRemoval_conflict {key inUse : String}
    (hkey : key ∉ ["removed_at", "blocked_by", "error"]) (response : RemoveResponse) :
    takeRemoval fold key inUse hkey ⟨409, (removeResponseCodec fold key hkey).encode response⟩ =
      .ok response.blockedBy := by
  rw [takeRemoval, if_pos rfl, Codec.decode_encode]

/-- A request to remove something, which is refused with 409 and what uses it. -/
def removeOperation (path key inUse : String) (hkey : key ∉ ["removed_at", "blocked_by", "error"])
    (c : Codec P) (scope : P → String) (arguments : P → Except String String)
    (request : String → Json) (hsends : Sends c arguments request)
    (usage : Watcher σ → String → Daemon σ (List UsedBy))
    (remove : Watcher σ → String → Daemon σ Unit) : Operation σ String (List UsedBy) where
  method := "POST"
  path := path
  read := readPayload refused c scope arguments
  send a := ⟨"POST", fun _ => "", some (request a)⟩
  perform watcher a := removeUnused (usage watcher a) (remove watcher a)
  answer _ a now
    | .ok blockedBy =>
        if blockedBy.length > 0 then
          ⟨409, (removeResponseCodec fold key hkey).encode ⟨a, "", blockedBy, inUse⟩⟩
        else ⟨200, (removeResponseCodec fold key hkey).encode ⟨a, now, [], ""⟩⟩
    | .error err => errorAnswer err
  accept := takeRemoval fold key inUse hkey
  relay
    | .ok v => .ok v
    | .error _ => .error (statusError 400)
  send_method _ := rfl
  send_server _ := rfl
  read_send _ _ _ h := hsends.readPayload refused h
  accept_answer _ a now result := by
    cases result with
    | ok blockedBy =>
        cases blockedBy with
        | nil => rfl
        | cons u us => exact takeRemoval_conflict fold hkey ⟨a, "", u :: us, inUse⟩
    | error err => rfl
  accept_refused _ := rfl
  relay_ok _ := rfl
  relay_error _ _ := ⟨_, rfl⟩

/-! ### Payloads -/

/-- A payload with a scope alone. -/
structure ScopePayload where
  scope : String

/-- A payload with a scope and a text. -/
structure TextPayload where
  scope : String
  first : String

/-- A payload with a scope and two texts. -/
structure PairPayload where
  scope : String
  first : String
  second : String

/-- `networkPruneRequest` and `volumePruneRequest`. -/
def scopeCodec : Codec ScopePayload :=
  structCodec fold ⟨""⟩
    [field "scope" stringCodec (·.scope) fun v t => { t with scope := v }] (by simp) (by simp)

/-- `imagePruneRequest`, `imageRemoveRequest`, `networkRemoveRequest` and `volumeRemoveRequest`. -/
def textCodec (key : String) (hkey : "scope" ≠ key) : Codec TextPayload :=
  structCodec fold ⟨"", ""⟩
    [field "scope" stringCodec (·.scope) fun v t => { t with scope := v },
      field key stringCodec (·.first) fun v t => { t with first := v }]
    (by simpa using hkey) (by simp)

/-- `containerActionRequest`, `imagePullRequest`, `networkConnectRequest` and
`networkDisconnectRequest`. -/
def pairCodec (key key' : String) (hkeys : ["scope", key, key'].Nodup) : Codec PairPayload :=
  structCodec fold ⟨"", "", ""⟩
    [field "scope" stringCodec (·.scope) fun v t => { t with scope := v },
      field key stringCodec (·.first) fun v t => { t with first := v },
      field key' stringCodec (·.second) fun v t => { t with second := v }]
    hkeys (by simp)

/-- A text that must not be empty. -/
def requireText (err : String) (payload : TextPayload) : Except String String :=
  let text := trimSpaceStr payload.first
  if text = "" then .error err else .ok text

/-- Two texts that must not be empty. -/
def requirePair (err : String) (payload : PairPayload) : Except String (String × String) :=
  let first := trimSpaceStr payload.first
  let second := trimSpaceStr payload.second
  if first = "" ∨ second = "" then .error err else .ok (first, second)

/-- The arguments of `handleImagesPull`. -/
def readPull (payload : PairPayload) : Except String (String × String) :=
  let repository := trimSpaceStr payload.first
  let tag := trimSpaceStr payload.second
  if repository = "" then .error "repository is required" else .ok (repository, tag)

/-- The arguments of `handleContainerAction`. -/
def readAction (lower : Char → Char) (payload : PairPayload) : Except String (String × String) :=
  let action := trimSpaceStr (String.ofList (payload.second.toList.map lower))
  let containerID := trimSpaceStr payload.first
  if containerID = "" then .error "container_id is required"
  else if action = "" then .error "action is required"
  else .ok (containerID, action)

/-- A request with one text sends what it reads. -/
theorem sends_text {key : String} (hkey : "scope" ≠ key)
    {arguments : TextPayload → Except String String}
    (h : ∀ p a, arguments p = .ok a → arguments ⟨"", a⟩ = .ok a) :
    Sends (textCodec fold key hkey) arguments
      fun a => (textCodec fold key hkey).encode ⟨"", a⟩ :=
  ⟨fun p a ha => ⟨⟨"", a⟩, Codec.decode_encode _ _, h p a ha⟩⟩

/-- So does one with two. -/
theorem sends_pair {key key' : String} (hkeys : ["scope", key, key'].Nodup)
    {arguments : PairPayload → Except String (String × String)}
    (h : ∀ p a, arguments p = .ok a → arguments ⟨"", a.1, a.2⟩ = .ok a) :
    Sends (pairCodec fold key key' hkeys) arguments
      fun a => (pairCodec fold key key' hkeys).encode ⟨"", a.1, a.2⟩ :=
  ⟨fun p a ha => ⟨⟨"", a.1, a.2⟩, Codec.decode_encode _ _, h p a ha⟩⟩

/-- A required text passes the agent's check too. -/
theorem requireText_again {err : String} (p : TextPayload) (a : String)
    (h : requireText err p = .ok a) : requireText err ⟨"", a⟩ = .ok a := by
  rw [requireText] at h ⊢
  split at h
  · cases h
  · rename_i hne
    obtain rfl := Except.ok.inj h
    rw [trimSpaceStr_trimSpaceStr, if_neg hne]

/-- So do two of them. -/
theorem requirePair_again {err : String} (p : PairPayload) (a : String × String)
    (h : requirePair err p = .ok a) : requirePair err ⟨"", a.1, a.2⟩ = .ok a := by
  rw [requirePair] at h ⊢
  split at h
  · cases h
  · rename_i hne
    obtain rfl := Except.ok.inj h
    dsimp only
    rw [trimSpaceStr_trimSpaceStr, trimSpaceStr_trimSpaceStr, if_neg hne]

/-- So do an image and its tag. -/
theorem readPull_again (p : PairPayload) (a : String × String) (h : readPull p = .ok a) :
    readPull ⟨"", a.1, a.2⟩ = .ok a := by
  rw [readPull] at h ⊢
  split at h
  · cases h
  · rename_i hne
    obtain rfl := Except.ok.inj h
    dsimp only
    rw [trimSpaceStr_trimSpaceStr, trimSpaceStr_trimSpaceStr, if_neg hne]

/-- Trimming adds no character. -/
theorem mem_of_mem_trim {cs : List Char} {c : Char} (h : c ∈ trimSpace cs) : c ∈ cs := by
  rw [trimSpace, List.mem_reverse] at h
  have hback := (List.dropWhile_suffix isSpace).subset h
  exact (List.dropWhile_suffix isSpace).subset (List.mem_reverse.mp hback)

/-- A text in lower case stays as it is. -/
theorem lower_trimmed {lower : Char → Char} (hlower : ∀ c, lower (lower c) = lower c)
    (cs : List Char) :
    (trimSpace (cs.map lower)).map lower = trimSpace (cs.map lower) := by
  have hfixed : ∀ c ∈ trimSpace (cs.map lower), lower c = id c := by
    intro c hc
    obtain ⟨b, -, rfl⟩ := List.mem_map.mp (mem_of_mem_trim hc)
    exact hlower b
  rw [List.map_congr_left hfixed, List.map_id]

/-- Lowering twice is lowering once, so the agent takes the same action. -/
theorem readAction_again {lower : Char → Char} (hlower : ∀ c, lower (lower c) = lower c)
    (p : PairPayload) (a : String × String) (h : readAction lower p = .ok a) :
    readAction lower ⟨"", a.1, a.2⟩ = .ok a := by
  have haction : ∀ s : String, trimSpaceStr (String.ofList
      ((trimSpaceStr (String.ofList (s.toList.map lower))).toList.map lower)) =
      trimSpaceStr (String.ofList (s.toList.map lower)) := by
    intro s
    simp only [trimSpaceStr, String.toList_ofList]
    rw [lower_trimmed hlower, trimSpace_trimSpace]
  rw [readAction] at h ⊢
  split at h
  · cases h
  · rename_i hid
    split at h
    · cases h
    · rename_i hne
      obtain rfl := Except.ok.inj h
      dsimp only
      rw [haction, trimSpaceStr_trimSpaceStr, if_neg hid, if_neg hne]

/-- The payload of an action is read without a scope. -/
theorem sends_action {lower : Char → Char} (hlower : ∀ c, lower (lower c) = lower c) :
    Sends (pairCodec fold "container_id" "action" (by decide)) (readAction lower)
      fun a => .obj [("container_id", .str a.1), ("action", .str a.2)] := by
  refine ⟨fun p a ha => ⟨⟨"", a.1, a.2⟩, ?_, readAction_again hlower p a ha⟩⟩
  simp [pairCodec, structCodec, readStruct, readMember, findField, stringCodec]

/-! ### The actions -/

/-- `containerActionTimeoutSec`. -/
def containerActionTimeoutSec : ℕ := 10

/-- `applyContainerActionWithWatcher`. -/
def applyContainerActionWithWatcher (watcher : Watcher σ) (containerID : String) :
    String → Daemon σ Unit
  | "start" => watcher.startContainer containerID
  | "stop" => watcher.stopContainer containerID containerActionTimeoutSec
  | "restart" => watcher.restartContainer containerID containerActionTimeoutSec
  | "pause" => watcher.pauseContainer containerID
  | "unpause" => watcher.unpauseContainer containerID
  | "kill" => watcher.killContainer containerID
  | "rm" => watcher.removeContainer containerID
  | _ => throw "unknown action"

/-- `applyContainerAction`, with the daemon at hand. -/
def applyContainerAction (watcher : Watcher σ) (containerID action : String) :
    Daemon σ ContainerInfo := do
  applyContainerActionWithWatcher watcher containerID action
  if action = "rm" then return ⟨containerID, "", "", "", 0, "", [], []⟩
  let info ← watcher.containers
  match info.find? fun item => item.id = containerID with
  | some item => return item
  | none => throw "container not found after update"

/-- `containerActionResponse`. -/
structure ContainerResponse where
  container : ContainerInfo

def containerResponseCodec : Codec ContainerResponse :=
  structCodec fold ⟨(containerInfoCodec fold).zero⟩
    [field "container" (containerInfoCodec fold) (·.container) fun v t => { t with container := v }]
    (by simp) (by simp)

/-- `handleContainerAction`. -/
def handleContainerAction (lower : Char → Char) (hlower : ∀ c, lower (lower c) = lower c) :
    Operation σ (String × String) ContainerInfo :=
  valueOperation refused "/api/containers/action"
    (pairCodec fold "container_id" "action" (by decide)) (·.scope) (readAction lower)
    (fun a => .obj [("container_id", .str a.1), ("action", .str a.2)]) (sends_action fold hlower)
    (fun watcher a => applyContainerAction watcher a.1 a.2) (containerResponseCodec fold)
    ContainerResponse.mk ContainerResponse.container fun _ => rfl

/-- `normalizeTag`. -/
def normalizeTag (tag : String) : String :=
  let tag := trimSpaceStr tag
  if tag = "" then "latest" else tag

/-- `handleImagesPull`. -/
def handleImagesPull : Operation σ (String × String) Unit :=
  plainOperation refused "/api/images/pull" (pairCodec fold "repository" "tag" (by decide))
    (·.scope) readPull
    (fun a => (pairCodec fold "repository" "tag" (by decide)).encode ⟨"", a.1, a.2⟩)
    (sends_pair fold _ readPull_again) (fun watcher a => watcher.pullImage a.1 a.2)
    fun a now => .obj [("repository", .str a.1), ("tag", .str (normalizeTag a.2)),
      ("pulled_at", .str now)]

/-- `imagePruneResponse`. -/
structure ImagePruneResponse where
  deleted : Int64
  reclaimedBytes : UInt64

def imagePruneResponseCodec : Codec ImagePruneResponse :=
  structCodec fold ⟨0, 0⟩
    [field "deleted" intCodec (·.deleted) fun v t => { t with deleted := v },
      field "reclaimed_bytes" uint64Codec (·.reclaimedBytes)
        fun v t => { t with reclaimedBytes := v }]
    (by simp) (by simp)

/-- `handleImagesPrune`. -/
def handleImagesPrune : Operation σ String (Int64 × UInt64) :=
  valueOperation refused "/api/images/prune" (textCodec fold "mode" (by decide)) (·.scope)
    (fun payload => .ok (trimSpaceStr payload.first))
    (fun a => (textCodec fold "mode" (by decide)).encode ⟨"", a⟩)
    (sends_text fold _ fun p a h => by
      obtain rfl := Except.ok.inj h
      exact congrArg Except.ok (trimSpaceStr_trimSpaceStr p.first))
    (fun watcher => watcher.pruneImages) (imagePruneResponseCodec fold)
    (fun v => ⟨v.1, v.2⟩) (fun response => (response.deleted, response.reclaimedBytes))
    fun _ => rfl

/-- `handleImagesRemove`. -/
def handleImagesRemove : Operation σ String Unit :=
  plainOperation refused "/api/images/remove" (textCodec fold "image_id" (by decide)) (·.scope)
    (requireText "image_id is required")
    (fun a => (textCodec fold "image_id" (by decide)).encode ⟨"", a⟩)
    (sends_text fold _ requireText_again) (fun watcher => watcher.removeImage)
    fun a now => .obj [("image_id", .str a), ("removed_at", .str now)]

/-- `handleNetworksRemove`. -/
def handleNetworksRemove : Operation σ String (List UsedBy) :=
  removeOperation fold refused "/api/networks/remove" "network_id" "network is in use" (by decide)
    (textCodec fold "network_id" (by decide)) (·.scope) (requireText "network_id is required")
    (fun a => (textCodec fold "network_id" (by decide)).encode ⟨"", a⟩)
    (sends_text fold _ requireText_again) (fun watcher => watcher.networkUsage)
    fun watcher => watcher.removeNetwork

/-- `networkPruneResponse`. -/
structure NetworkPruneResponse where
  deleted : List String

def networkPruneResponseCodec : Codec NetworkPruneResponse :=
  structCodec fold ⟨[]⟩
    [field "deleted" (sliceCodec stringCodec) (·.deleted) fun v t => { t with deleted := v }]
    (by simp) (by simp)

/-- A request with nothing but its scope sends what it reads. -/
theorem sends_scope : Sends (scopeCodec fold) (fun _ => Except.ok ())
    fun _ => (scopeCodec fold).encode ⟨""⟩ :=
  ⟨fun _ _ _ => ⟨⟨""⟩, Codec.decode_encode _ _, rfl⟩⟩

/-- `handleNetworksPrune`. -/
def handleNetworksPrune : Operation σ Unit (List String) :=
  valueOperation refused "/api/networks/prune" (scopeCodec fold) (·.scope) (fun _ => .ok ())
    (fun _ => (scopeCodec fold).encode ⟨""⟩) (sends_scope fold)
    (fun watcher _ => watcher.pruneNetworks) (networkPruneResponseCodec fold)
    NetworkPruneResponse.mk NetworkPruneResponse.deleted fun _ => rfl

/-- `handleNetworkConnect` and `handleNetworkDisconnect`. -/
def networkOperation (path status : String)
    (perform : Watcher σ → String × String → Daemon σ Unit) :
    Operation σ (String × String) Unit :=
  plainOperation refused path (pairCodec fold "network_id" "container_id" (by decide)) (·.scope)
    (requirePair "network_id and container_id are required")
    (fun a => (pairCodec fold "network_id" "container_id" (by decide)).encode ⟨"", a.1, a.2⟩)
    (sends_pair fold _ requirePair_again) perform fun _ _ => .obj [("status", .str status)]

/-- `handleNetworkConnect`. -/
def handleNetworkConnect : Operation σ (String × String) Unit :=
  networkOperation fold refused "/api/networks/connect" "connected" fun watcher a =>
    watcher.connectNetwork a.1 a.2

/-- `handleNetworkDisconnect`. -/
def handleNetworkDisconnect : Operation σ (String × String) Unit :=
  networkOperation fold refused "/api/networks/disconnect" "disconnected" fun watcher a =>
    watcher.disconnectNetwork a.1 a.2

/-- `handleVolumesRemove`. -/
def handleVolumesRemove : Operation σ String (List UsedBy) :=
  removeOperation fold refused "/api/volumes/remove" "name" "volume is in use" (by decide)
    (textCodec fold "name" (by decide)) (·.scope) (requireText "name is required")
    (fun a => (textCodec fold "name" (by decide)).encode ⟨"", a⟩)
    (sends_text fold _ requireText_again) (fun watcher => watcher.volumeUsage)
    fun watcher => watcher.removeVolume

/-- `volumePruneResponse`. -/
structure VolumePruneResponse where
  deleted : List String
  reclaimedBytes : UInt64

def volumePruneResponseCodec : Codec VolumePruneResponse :=
  structCodec fold ⟨[], 0⟩
    [field "deleted" (sliceCodec stringCodec) (·.deleted) fun v t => { t with deleted := v },
      field "reclaimed_bytes" uint64Codec (·.reclaimedBytes)
        fun v t => { t with reclaimedBytes := v }]
    (by simp) (by simp)

/-- `handleVolumesPrune`. -/
def handleVolumesPrune : Operation σ Unit (List String × UInt64) :=
  valueOperation refused "/api/volumes/prune" (scopeCodec fold) (·.scope) (fun _ => .ok ())
    (fun _ => (scopeCodec fold).encode ⟨""⟩) (sends_scope fold)
    (fun watcher _ => watcher.pruneVolumes) (volumePruneResponseCodec fold)
    (fun v => ⟨v.1, v.2⟩) (fun response => (response.deleted, response.reclaimedBytes))
    fun _ => rfl

end

/-! ### All requests -/

/-- What the handlers use of other packages: simple case folding, `unicode.ToLower`, and the errors
of the JSON package. -/
structure Library where
  fold : Char → Char
  lower : Char → Char
  refused : Option Json → String
  lower_lower : ∀ c, lower (lower c) = lower c

/-- The requests. -/
inductive ScopedOp
  | containers
  | containerAction
  | images
  | imagesPull
  | imagesPrune
  | imagesRemove
  | networks
  | networkDetails
  | networksRemove
  | networksPrune
  | networkConnect
  | networkDisconnect
  | volumes
  | volumesRemove
  | volumesPrune

/-- The arguments of a request, besides its scope. -/
def ScopedOp.Args : ScopedOp → Type
  | .containers | .images | .networks | .volumes | .networksPrune | .volumesPrune => Unit
  | .containerAction | .imagesPull | .networkConnect | .networkDisconnect => String × String
  | .imagesPrune | .imagesRemove | .networkDetails | .networksRemove | .volumesRemove => String

/-- The result of a request. -/
def ScopedOp.Value : ScopedOp → Type
  | .containers => List ContainerInfo
  | .containerAction => ContainerInfo
  | .images => List ImageInfo
  | .imagesPrune => Int64 × UInt64
  | .networks => List NetworkInfo
  | .networkDetails => NetworkDetails
  | .networksRemove | .volumesRemove => List UsedBy
  | .networksPrune => List String
  | .volumes => List VolumeInfo
  | .volumesPrune => List String × UInt64
  | .imagesPull | .imagesRemove | .networkConnect | .networkDisconnect => Unit

def ScopedOp.operation (σ : Type) (lib : Library) : (o : ScopedOp) → Operation σ o.Args o.Value
  | .containers => handleContainers lib.fold lib.refused
  | .containerAction => handleContainerAction lib.fold lib.refused lib.lower lib.lower_lower
  | .images => handleImages lib.fold lib.refused
  | .imagesPull => handleImagesPull lib.fold lib.refused
  | .imagesPrune => handleImagesPrune lib.fold lib.refused
  | .imagesRemove => handleImagesRemove lib.fold lib.refused
  | .networks => handleNetworks lib.fold lib.refused
  | .networkDetails => handleNetworkDetails lib.fold lib.refused
  | .networksRemove => handleNetworksRemove lib.fold lib.refused
  | .networksPrune => handleNetworksPrune lib.fold lib.refused
  | .networkConnect => handleNetworkConnect lib.fold lib.refused
  | .networkDisconnect => handleNetworkDisconnect lib.fold lib.refused
  | .volumes => handleVolumes lib.fold lib.refused
  | .volumesRemove => handleVolumesRemove lib.fold lib.refused
  | .volumesPrune => handleVolumesPrune lib.fold lib.refused

/-- What a controller does and answers for a remote server, when `done` is what the daemon would do
in the state `w`: on success the same answer as for a local server. -/
structure Served {σ A V : Type} (op : Operation σ A V) (controller : Server σ) (scope : String)
    (a : A) (d : Delivery) (done : Except String V × σ) (w : σ) (result : ApiAnswer × σ) :
    Prop where
  ok : ∀ v, d = .answered → done.1 = .ok v →
    result = (op.answer scope a controller.now (.ok v), done.2)
  failed : ∀ err, d = .answered → done.1 = .error err → err ≠ "" →
    ∃ err', result = (op.answer scope a controller.now (.error err'), done.2)
  lost : ∀ err, d = .lost err → result = (op.answer scope a controller.now (.error err), w)
  unanswered : ∀ err, d = .unanswered err →
    result = (op.answer scope a controller.now (.error err), done.2)

/-- A daemon with volumes alone, none of which is in use. -/
def volumeDaemon : Watcher (List String) where
  containers := pure []
  startContainer _ := throw "No such container"
  stopContainer _ _ := throw "No such container"
  restartContainer _ _ := throw "No such container"
  pauseContainer _ := throw "No such container"
  unpauseContainer _ := throw "No such container"
  killContainer _ := throw "No such container"
  removeContainer _ := throw "No such container"
  listImages := pure []
  pullImage _ _ := throw "manifest unknown"
  pruneImages _ := pure (0, 0)
  removeImage _ := throw "No such image"
  listNetworks := pure []
  networkDetails _ := throw "network not found"
  networkUsage _ := throw "network not found"
  removeNetwork _ := throw "network not found"
  pruneNetworks := pure []
  connectNetwork _ _ := throw "network not found"
  disconnectNetwork _ _ := throw "network not found"
  listVolumes := do
    let names ← get
    pure (names.map fun name => ⟨name, "local", "—", [], "", ∅, "", "local"⟩)
  volumeUsage _ := pure []
  removeVolume name := do
    let names ← get
    if name ∈ names then set (names.erase name) else throw "no such volume"
  pruneVolumes := do
    let names ← get
    set ([] : List String)
    pure (names, 0)

def sampleLibrary : Library where
  fold := Char.toLower
  lower := id
  refused _ := "invalid body"
  lower_lower _ := rfl

def sampleServer (agentMode : Bool) : Server (List String) where
  fold := Char.toLower
  cfg :=
    { globalPolicy := "skip"
      updateStoppedContainers := false
      pruneDanglingImages := false
      localServers := [⟨"host", "", false⟩]
      remoteServers := [⟨"nas", "http://10.0.0.2:8080", "secret", false⟩] }
  agentMode := agentMode
  now := "2025-01-01T00:00:00Z"
  newWithHost _ := .ok volumeDaemon

def removeRequest (scope : String) : ApiRequest :=
  ⟨"POST", fun _ => "", some (.obj [("scope", .str scope), ("name", .str " data ")])⟩

def removeVolume : Operation (List String) String (List UsedBy) :=
  ScopedOp.volumesRemove.operation (List String) sampleLibrary

end Scoped

end Contiwatch
