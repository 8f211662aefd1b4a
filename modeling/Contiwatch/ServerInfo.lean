import Contiwatch.Config
import Contiwatch.Lib.GoMap
import Contiwatch.Lib.GoStrings
import Contiwatch.Lib.Runs

/-!
# The Cache of Server States

The controller keeps an entry for every configured server (`internal/server/server_info.go`).
`refreshServerInfoCache` copies the cache, makes the new entries from the copy, and replaces the
cache. Ten workers check whether remote servers can be reached; `ensureRemoteCheck` puts a server
into their queue unless it is pending, and `triggerServerInfoRefresh` does so for all servers. Each
critical section and each operation on the queue is a step of its own here, and the steps of all
calls and workers interleave. Broadcasts do not change the cache and are left out, and the workers
do not stop.

## Main results

* `InfoMonitor.Step` — the steps of calls and workers.
-/

namespace Contiwatch

open GoStrings

/-! ### Entries -/

/-- The values of the field `Type`: none yet, `local` and `remote`. -/
inductive InfoType
  | unset
  | onHost
  | remote
  deriving DecidableEq, Repr

/-- The text of a type. -/
def InfoType.text : InfoType → String
  | .unset => ""
  | .onHost => "local"
  | .remote => "remote"

/-- The values of the field `Status`; a new entry has none. -/
inductive InfoStatus
  | unset
  | unknown
  | online
  | offline
  | maintenance
  deriving DecidableEq, Repr

/-- `serverInfoSnapshot`; the zero time is 0. -/
structure ServerInfoSnapshot where
  type : InfoType
  name : String
  address : String
  version : String
  status : InfoStatus
  checkedAt : ℕ
  checking : Bool
  deriving DecidableEq, Repr

/-- The entry that is read where there is none. -/
def ServerInfoSnapshot.zero : ServerInfoSnapshot where
  type := .unset
  name := ""
  address := ""
  version := ""
  status := .unset
  checkedAt := 0
  checking := false

/-- The cache. -/
abbrev InfoMap := GoMap String ServerInfoSnapshot

/-- `m[key]`. -/
def InfoMap.get (m : InfoMap) (key : String) : ServerInfoSnapshot := (m.lookup key).getD .zero

/-- `serverInfoKey`. -/
def serverInfoKey (serverType : InfoType) (name : String) : String :=
  let name := if trimSpaceStr name = "" then "unknown" else name
  serverType.text ++ ":" ++ name

/-- The key of a remote server. -/
def RemoteServer.infoKey (remote : RemoteServer) : String := serverInfoKey .remote remote.name

/-- `localSocketStatus`; `isSocket` says whether there is a socket at a path. -/
def localSocketStatus (isSocket : String → Bool) (socket : String) : InfoStatus :=
  let socket := trimSpaceStr socket
  if socket = "" then .offline else if isSocket socket then .online else .offline

/-- `fetchRemoteReachability`; `answer` is the version in the answer of the agent, if it gives a
valid one. -/
def fetchRemoteReachability (remote : RemoteServer) (answer : Option String) : String × Bool :=
  if remote.url = "" then ("unknown", false)
  else
    match answer with
    | none => ("unknown", false)
    | some version =>
        let version := trimSpaceStr version
        (if version = "" then "unknown" else version, true)

/-! ### What the calls make of entries -/

/-- `refreshServerInfoCache` on the local servers. -/
def refreshLocals (version : String) (isSocket : String → Bool) (now : ℕ) (prev : InfoMap)
    (locals : List LocalServer) : InfoMap :=
  locals.foldl
    (fun next l =>
      let key := serverInfoKey .onHost l.name
      next.insert key
        { prev.get key with
          type := .onHost
          name := l.name
          address := l.socket
          version := version
          checking := false
          checkedAt := now
          status := if l.maintenance then .maintenance else localSocketStatus isSocket l.socket })
    ∅

/-- `refreshServerInfoCache` on a remote server: the new entry, and whether a check is asked for,
whose result is then the field `Checking`. -/
def refreshRemote (now : ℕ) (prevEntry : ServerInfoSnapshot) (remote : RemoteServer) :
    ServerInfoSnapshot × Bool :=
  let entry := { prevEntry with type := .remote, name := remote.name, address := remote.url }
  if remote.maintenance then
    ({ entry with
       status := .maintenance
       checking := false
       checkedAt := if entry.checkedAt = 0 then now else entry.checkedAt }, false)
  else if remote.url = "" then
    ({ entry with status := .offline, checking := false, checkedAt := now }, false)
  else if entry.status = .unset ∨ entry.status = .maintenance ∨ prevEntry.address ≠ remote.url then
    ({ entry with status := .unknown, checkedAt := 0 }, true)
  else (entry, false)

/-- The first loop of `triggerServerInfoRefresh` on a remote server. -/
def resetEntry (now : ℕ) (info : InfoMap) (remote : RemoteServer) : InfoMap :=
  let entry := { info.get remote.infoKey with
    type := .remote, name := remote.name, address := remote.url }
  info.insert remote.infoKey <|
    if remote.maintenance then
      { entry with
        status := .maintenance
        checking := false
        checkedAt := if entry.checkedAt = 0 then now else entry.checkedAt }
    else if remote.url = "" then
      { entry with status := .offline, checking := false, checkedAt := now }
    else { entry with checking := false }

/-- The servers that `triggerServerInfoRefresh` checks. -/
def toCheck (remotes : List RemoteServer) : List RemoteServer :=
  remotes.filter fun remote => !remote.maintenance && remote.url ≠ ""

/-- The entry that a worker writes before it fetches. -/
def startedEntry (info : InfoMap) (remote : RemoteServer) : ServerInfoSnapshot :=
  let entry := info.get remote.infoKey
  let entry :=
    if entry.name = "" then
      { ServerInfoSnapshot.zero with type := .remote, name := remote.name, address := remote.url }
    else entry
  { entry with checking := true }

/-- The entry that a worker stores after it has fetched. -/
def checkedEntry (entry : ServerInfoSnapshot) (remote : RemoteServer) (answer : Option String)
    (checkedAt : ℕ) : ServerInfoSnapshot :=
  let (version, online) := fetchRemoteReachability remote answer
  { entry with
    address := remote.url
    version := version
    status :=
      if remote.maintenance then .maintenance else if online then .online else .offline
    checkedAt := checkedAt
    checking := false }

/-! ### Calls and workers -/

/-- A call of `refreshServerInfoCache` after it has copied the cache: `rest` are the remote servers
it has still to visit. `seen` counts the checks that were completed before the copy; no step reads
it. -/
structure Refreshing where
  cfg : Config
  /-- Whether `triggerServerInfoRefresh` made the call. -/
  trigger : Bool
  now : ℕ
  prev : InfoMap
  next : InfoMap
  rest : List RemoteServer
  seen : String → ℕ

/-- The two loops that call `ensureRemoteCheck`, with what they have still to visit. -/
inductive Caller
  | refresh (r : Refreshing)
  | trigger (rest : List RemoteServer)

/-- Where a call is. -/
inductive InfoCall
  /-- The cache is not copied yet. -/
  | called (cfg : Config) (trigger : Bool)
  | looping (c : Caller)
  /-- `ensureRemoteCheck` has set the server pending. -/
  | sending (c : Caller)
  /-- `ensureRemoteCheck` has found the queue full. -/
  | givingUp (c : Caller)
  /-- `triggerServerInfoRefresh` has called `refreshServerInfoCache`. -/
  | replaced (cfg : Config)
  /-- `triggerServerInfoRefresh` was told that a check is queued. -/
  | marking (remote : RemoteServer) (rest : List RemoteServer)
  | returned

/-- The server that the next call of `ensureRemoteCheck` is for. -/
def Caller.asks : Caller → Option RemoteServer
  | .refresh r =>
      match r.rest with
      | [] => none
      | remote :: _ =>
          if (refreshRemote r.now (r.prev.get remote.infoKey) remote).2 then some remote else none
  | .trigger [] => none
  | .trigger (remote :: _) => some remote

/-- A remote server is done. -/
def Refreshing.visit (r : Refreshing) (remote : RemoteServer) (rest : List RemoteServer)
    (entry : ServerInfoSnapshot) : Refreshing :=
  { r with next := r.next.insert remote.infoKey entry, rest := rest }

/-- How the call goes on after `ensureRemoteCheck` has returned `queued`. -/
def Caller.told (queued : Bool) : Caller → InfoCall
  | .refresh r =>
      match r.rest with
      | [] => .looping (.refresh r)
      | remote :: rest =>
          let entry := (refreshRemote r.now (r.prev.get remote.infoKey) remote).1
          .looping (.refresh (r.visit remote rest { entry with checking := queued }))
  | .trigger [] => .looping (.trigger [])
  | .trigger (remote :: rest) => if queued then .marking remote rest else .looping (.trigger rest)

/-- Where a worker is. -/
inductive InfoWorker
  | idle
  | dequeued (remote : RemoteServer)
  | fetching (remote : RemoteServer) (entry : ServerInfoSnapshot)

/-- The server whose check a worker has taken. -/
def InfoWorker.remote? : InfoWorker → Option RemoteServer
  | .idle => none
  | .dequeued remote => some remote
  | .fetching remote _ => some remote

/-- `serverInfoMaxConcurrency`. -/
def serverInfoMaxConcurrency : ℕ := 10

/-- `serverInfoQueueBufferSize`. -/
def serverInfoQueueBufferSize : ℕ := 128

/-- The cache and all that works on it. `completed` counts the completed checks for each key; no
step reads it. -/
structure InfoMonitor where
  config : Config
  info : InfoMap
  pending : Finset String
  queue : List RemoteServer
  workers : List InfoWorker
  calls : List InfoCall
  completed : String → ℕ

namespace InfoMonitor

/-- After the workers were started. -/
def new (cfg : Config) : InfoMonitor where
  config := cfg
  info := ∅
  pending := ∅
  queue := []
  workers := List.replicate serverInfoMaxConcurrency .idle
  calls := []
  completed := fun _ => 0

/-- What happens to the cache. -/
inductive Event
  /-- A handler stores a configuration and calls `refreshServerInfoCache`. -/
  | save (cfg : Config)
  /-- `refreshServerInfoCache`, or `triggerServerInfoRefresh`, is called. -/
  | call (trigger : Bool)
  | copy (i : ℕ) (now : ℕ) (isSocket : String → Bool)
  | keep (i : ℕ)
  | ask (i : ℕ)
  | send (i : ℕ)
  | giveUp (i : ℕ)
  | replace (i : ℕ)
  | reset (i : ℕ) (now : ℕ)
  | mark (i : ℕ)
  | dequeue (w : ℕ)
  | start (w : ℕ)
  | store (w : ℕ) (answer : Option String) (now : ℕ)

variable (version : String)

/-- The steps of calls and workers, in any order. -/
inductive Step : InfoMonitor → Event → InfoMonitor → Prop
  | save {s : InfoMonitor} {cfg : Config} :
      Step s (.save cfg) { s with config := cfg, calls := s.calls ++ [.called cfg false] }
  | call {s : InfoMonitor} {trigger : Bool} :
      Step s (.call trigger) { s with calls := s.calls ++ [.called s.config trigger] }
  | copy {s : InfoMonitor} {i now : ℕ} {isSocket : String → Bool} {cfg : Config} {trigger : Bool}
      (hi : s.calls[i]? = some (.called cfg trigger)) :
      Step s (.copy i now isSocket)
        { s with
          calls := s.calls.set i (.looping (.refresh
            { cfg := cfg, trigger := trigger, now := now, prev := s.info
              next := refreshLocals version isSocket now s.info cfg.localServers
              rest := cfg.remoteServers, seen := s.completed })) }
  | keep {s : InfoMonitor} {i : ℕ} {r : Refreshing} {remote : RemoteServer}
      {rest : List RemoteServer} (hi : s.calls[i]? = some (.looping (.refresh r)))
      (hrest : r.rest = remote :: rest)
      (hkeep : (refreshRemote r.now (r.prev.get remote.infoKey) remote).2 = false) :
      Step s (.keep i)
        { s with
          calls := s.calls.set i (.looping (.refresh (r.visit remote rest
            (refreshRemote r.now (r.prev.get remote.infoKey) remote).1))) }
  | askMaintenance {s : InfoMonitor} {i : ℕ} {c : Caller} {remote : RemoteServer}
      (hi : s.calls[i]? = some (.looping c)) (hasks : c.asks = some remote)
      (hmaintenance : remote.maintenance = true) :
      Step s (.ask i) { s with calls := s.calls.set i (c.told false) }
  | askPending {s : InfoMonitor} {i : ℕ} {c : Caller} {remote : RemoteServer}
      (hi : s.calls[i]? = some (.looping c)) (hasks : c.asks = some remote)
      (hmaintenance : remote.maintenance = false) (hpending : remote.infoKey ∈ s.pending) :
      Step s (.ask i) { s with calls := s.calls.set i (c.told true) }
  | ask {s : InfoMonitor} {i : ℕ} {c : Caller} {remote : RemoteServer}
      (hi : s.calls[i]? = some (.looping c)) (hasks : c.asks = some remote)
      (hmaintenance : remote.maintenance = false) (hpending : remote.infoKey ∉ s.pending) :
      Step s (.ask i)
        { s with
          pending := insert remote.infoKey s.pending
          calls := s.calls.set i (.sending c) }
  | send {s : InfoMonitor} {i : ℕ} {c : Caller} {remote : RemoteServer}
      (hi : s.calls[i]? = some (.sending c)) (hasks : c.asks = some remote)
      (hroom : s.queue.length < serverInfoQueueBufferSize) :
      Step s (.send i)
        { s with queue := s.queue ++ [remote], calls := s.calls.set i (c.told true) }
  | sendFull {s : InfoMonitor} {i : ℕ} {c : Caller}
      (hi : s.calls[i]? = some (.sending c))
      (hfull : ¬ s.queue.length < serverInfoQueueBufferSize) :
      Step s (.send i) { s with calls := s.calls.set i (.givingUp c) }
  | giveUp {s : InfoMonitor} {i : ℕ} {c : Caller} {remote : RemoteServer}
      (hi : s.calls[i]? = some (.givingUp c)) (hasks : c.asks = some remote) :
      Step s (.giveUp i)
        { s with
          pending := s.pending.erase remote.infoKey
          calls := s.calls.set i (c.told false) }
  | replace {s : InfoMonitor} {i : ℕ} {r : Refreshing}
      (hi : s.calls[i]? = some (.looping (.refresh r))) (hrest : r.rest = []) :
      Step s (.replace i)
        { s with
          info := r.next
          calls := s.calls.set i (if r.trigger then .replaced r.cfg else .returned) }
  | reset {s : InfoMonitor} {i now : ℕ} {cfg : Config}
      (hi : s.calls[i]? = some (.replaced cfg)) :
      Step s (.reset i now)
        { s with
          info := cfg.remoteServers.foldl (resetEntry now) s.info
          calls := s.calls.set i (.looping (.trigger (toCheck cfg.remoteServers))) }
  | mark {s : InfoMonitor} {i : ℕ} {remote : RemoteServer} {rest : List RemoteServer}
      (hi : s.calls[i]? = some (.marking remote rest)) :
      Step s (.mark i)
        { s with
          info := s.info.insert remote.infoKey { s.info.get remote.infoKey with checking := true }
          calls := s.calls.set i (.looping (.trigger rest)) }
  | dequeue {s : InfoMonitor} {w : ℕ} {remote : RemoteServer} {queue : List RemoteServer}
      (hw : s.workers[w]? = some .idle) (hqueue : s.queue = remote :: queue) :
      Step s (.dequeue w) { s with queue := queue, workers := s.workers.set w (.dequeued remote) }
  | start {s : InfoMonitor} {w : ℕ} {remote : RemoteServer}
      (hw : s.workers[w]? = some (.dequeued remote)) :
      Step s (.start w)
        { s with
          info := s.info.insert remote.infoKey (startedEntry s.info remote)
          workers := s.workers.set w (.fetching remote (startedEntry s.info remote)) }
  | store {s : InfoMonitor} {w now : ℕ} {remote : RemoteServer} {entry : ServerInfoSnapshot}
      {answer : Option String} (hw : s.workers[w]? = some (.fetching remote entry)) :
      Step s (.store w answer now)
        { s with
          info := s.info.insert remote.infoKey (checkedEntry entry remote answer now)
          pending := s.pending.erase remote.infoKey
          workers := s.workers.set w .idle
          completed := Function.update s.completed remote.infoKey
            (s.completed remote.infoKey + 1) }

end InfoMonitor

end Contiwatch
