import Contiwatch.Lib.Prog
import Contiwatch.ScanResults
import Contiwatch.SelfUpdate

/-!
# The Server and its Atomic Operations

The part of the `Server` of `internal/server/server.go` that scans and updates share, and the
atomic operations that its handlers and background loops are made of: each section under a
mutex, each reading of the clock and each call to a Docker daemon or to an agent. What a
daemon reports to a scan and what an agent answers is left open. The clock is strictly
monotonic: a reading is later than every earlier one.
-/

namespace Contiwatch

open GoStrings

/-! ### The state -/

/-- What stays fixed while a process runs. Daemons are numbered: `newWithHost` is the one
behind a host, `watcher` the one of the server's own watcher, and `docker` how each behaves. -/
structure Process where
  agentMode : Bool
  selfContainerCandidates : List String
  fold : Char → Char
  lower : Lowering
  newWithHost : String → Except String ℕ
  watcher : ℕ
  docker : ℕ → Docker

/-- A context: of a request to scan, or of a run of the scheduler. -/
inductive ScanContext where
  | request (n : ℕ)
  | scheduler (n : ℕ)
  deriving DecidableEq, Repr

/-- The state of the server. A `context.CancelFunc` is the context it cancels; `contexts` counts
those of requests; `serverInfo` is the status of each server; `remoteScans` are the goroutines
that `handleScan` has started and that have not run yet. No scan state has a time later than
the clock. -/
structure Server where
  config : Config
  serverInfo : GoMap String String
  clock : ℕ
  scanStates : GoMap String ScanState
  recorded : ∀ k state, scanStates.lookup k = some state → state.Before clock
  lastScan : ScanResult
  lastScans : List ScanResult
  scanRunning : Bool
  updateRunning : Bool
  remoteScanRunning : ℤ
  scanCancel : Option ScanContext
  contexts : ℕ
  cancelled : List ScanContext
  hosts : ℕ → Client
  remoteScans : List (ScanContext × List RemoteServer)

namespace Server

/-- The clock reads `now`. -/
def tick (s : Server) (now : ℕ) : Server :=
  { s with
    clock := max s.clock now
    recorded := fun k state h =>
      ⟨(s.recorded k state h).1.trans (le_max_left ..),
        (s.recorded k state h).2.trans (le_max_left ..)⟩ }

/-- `resetScanStates`. -/
def resetScanStates (cfg : Config) (s : Server) : Server :=
  { s with
    scanStates := Contiwatch.resetScanStates cfg s.scanStates
    recorded := by
      intro k state h
      rw [lookup_resetScanStates] at h
      split_ifs at h
      · obtain rfl := Option.some.inj h
        exact ScanState.idle_before _
      · exact s.recorded k state h }

/-- `setScanStateKey`, at the time `now`. -/
def setScanStateKey (key : String) (state : ScanPhase) (now : ℕ) (s : Server) : Server :=
  { s with
    clock := max s.clock now
    scanStates := Contiwatch.setScanStateKey key state now s.scanStates
    recorded := by
      intro k state' h
      by_cases hk : k = key
      · rw [hk, lookup_setScanStateKey_self] at h
        obtain rfl := Option.some.inj h
        refine ScanState.Before.enter ?_ state
        rcases hlookup : s.scanStates.lookup key with _ | current
        · exact ScanState.idle_before _
        · exact s.recorded key current hlookup
      · rw [lookup_setScanStateKey_of_ne hk] at h
        exact (s.tick now).recorded k state' h }

/-- `cancelActiveScanStates`, at the time `now`. -/
def cancelActiveScanStates (now : ℕ) (s : Server) : Server :=
  { s with
    clock := max s.clock now
    scanStates := Contiwatch.cancelActiveScanStates now s.scanStates
    recorded := by
      intro k state h
      rw [Contiwatch.cancelActiveScanStates, GoMap.lookup_mapValues] at h
      obtain ⟨current, hcurrent, rfl⟩ := Option.map_eq_some_iff.mp h
      split_ifs
      · exact (s.recorded k current hcurrent).enter .cancelled
      · exact (s.tick now).recorded k current hcurrent }

/-- `getServerInfoStatus`. The states that the checks store are in ASCII. -/
def getServerInfoStatus (name : String) (s : Server) : String :=
  let name := if trimSpaceStr name = "" then "unknown" else name
  toLower Char.toLower ((s.serverInfo.lookup ("remote:" ++ name)).getD "")

/-- `applyScanState`. -/
def applyScanState (result : ScanResult) (isLocal : Bool) (name : String) (s : Server) :
    ScanResult :=
  match s.scanStates.lookup (scanKey isLocal name) with
  | none => result
  | some state =>
      if state.state = .idle then result
      else
        { result with
          scanState := state.state.text
          scanStartedAt :=
            if state.startedAt = 0 then result.scanStartedAt else some state.startedAt
          scanFinishedAt :=
            if state.finishedAt = 0 then result.scanFinishedAt else some state.finishedAt }

/-- Replace the first result of the same server, or append the result. -/
def replaceScan (result : ScanResult) : List ScanResult → List ScanResult
  | [] => [result]
  | scan :: scans =>
      if scan.serverName = result.serverName ∧ scan.isLocal = result.isLocal then
        result :: scans
      else scan :: replaceScan result scans

/-- `updateLastScans`. -/
def updateLastScans (result : ScanResult) (s : Server) : Server :=
  let result := s.applyScanState result result.isLocal result.serverName
  { s with
    lastScans := replaceScan result s.lastScans
    lastScan :=
      if s.lastScan.serverName = "" ∨ s.lastScan.serverName = result.serverName then result
      else s.lastScan }

/-- The results of a scan of all local servers. -/
def setLastScans (results : List ScanResult) (s : Server) : Server :=
  { s with lastScan := results.headD .zero, lastScans := results }

/-- Change the first result of the server `serverName`. -/
def patchScans (f : ScanResult → ScanResult) (serverName : String) (isRemote : Bool) :
    List ScanResult → List ScanResult
  | [] => []
  | scan :: scans =>
      if scan.serverName ≠ serverName ∨ scan.isLocal = isRemote then
        scan :: patchScans f serverName isRemote scans
      else f scan :: scans

/-- What `handleUpdateContainer` records of an update that reported `updated`. -/
def recordUpdate (serverName : String) (isRemote : Bool) (containerID : String)
    (updated : Bool) (now : ℕ) (s : Server) : Server :=
  { s with
    lastScan := updateScanResultContainer s.lastScan containerID updated now
    lastScans := patchScans (fun scan => updateScanResultContainer scan containerID updated now)
      serverName isRemote s.lastScans }

/-- Daemon `host` as a client left it. -/
def setHost (host : ℕ) (client : Client) (s : Server) : Server :=
  { s with hosts := Function.update s.hosts host client }

@[simp] theorem setHost_hosts (host : ℕ) (client : Client) (s : Server) :
    (s.setHost host client).hosts = Function.update s.hosts host client := rfl

end Server

/-! ### The operations -/

/-- An error of a request to an agent, and whether it is a cancelled context, a missed deadline
or the end of the connection. -/
structure RemoteError where
  message : String
  ended : Bool
  deriving DecidableEq, Repr

/-- The `UpdateResult` in the answer of an agent. -/
structure UpdateReply where
  id : String
  name : String
  updated : Bool
  message : String
  deriving DecidableEq, Repr

/-- The atomic operations of the server. -/
inductive ServerOp where
  /-- `store.Get`. -/
  | storeGet
  /-- `time.Now`. -/
  | timeNow
  /-- `resetScanStates`. -/
  | resetScanStates (cfg : Config)
  /-- The locked section of `setScanStateKey`. -/
  | setScanStateKey (key : String) (state : ScanPhase) (now : ℕ)
  /-- The locked section of `cancelActiveScanStates`. -/
  | cancelActiveScanStates (now : ℕ)
  /-- `getServerInfoStatus("remote", name)`. -/
  | getServerInfoStatus (name : String)
  /-- `context.WithCancel`. -/
  | newContext
  /-- A call of a context's cancel function. -/
  | cancel (ctx : ScanContext)
  /-- `ctx.Err() != nil`. -/
  | ctxErr (ctx : ScanContext)
  /-- Setting `scanCancel`. -/
  | setScanCancel (ctx : Option ScanContext)
  /-- The section of `handleScanStop` that reads `scanCancel` and whether a scan is active. -/
  | scanActive
  /-- The section that refuses a scan, or sets `scanRunning`. -/
  | beginScan
  /-- The deferred section that unsets `scanRunning`. -/
  | endScan
  /-- The section that refuses an update, or sets `updateRunning`. -/
  | beginUpdate
  /-- The deferred section that unsets `updateRunning`. -/
  | endUpdate
  /-- `remoteScanRunning.Add`. -/
  | addRemoteScanRunning (n : ℤ)
  /-- The section of `runScan` that looks up the previous result of a server. -/
  | findLocalScan (name : String)
  /-- The section of `runScan` that stores the results. -/
  | setLastScans (results : List ScanResult)
  /-- `updateLastScans`. -/
  | updateLastScans (result : ScanResult)
  /-- The section of `handleUpdateContainer` that records the update. -/
  | recordUpdate (serverName : String) (isRemote : Bool) (containerID : String)
      (updated : Bool) (now : ℕ)
  /-- The `go` statement of `handleScan`. -/
  | goRemoteScans (ctx : ScanContext) (remotes : List RemoteServer)
  /-- `ScanNoUpdate`. -/
  | scanNoUpdate (host : ℕ) (cfg : Config)
  /-- `UpdateContainer`. -/
  | updateContainer (host : ℕ) (containerID : String) (cfg : Config)
  /-- `TriggerSelfUpdateWithLogs` of the server's watcher. -/
  | triggerSelfUpdate (containerID : String)
  /-- `syncRemotePolicy`. -/
  | syncRemotePolicy (cfg : Config) (remote : RemoteServer)
  /-- The request of `scanRemoteServer`. -/
  | scanRemoteServer (remote : RemoteServer)
  /-- `updateRemoteContainer`. -/
  | updateRemoteContainer (remote : RemoteServer) (containerID : String) (prune : Bool)
  /-- `updateRemoteSelfUpdate`. -/
  | updateRemoteSelfUpdate (remote : RemoteServer) (containerID : String)
  /-- `waitForRemoteUpdateConfirmation`. -/
  | waitForRemoteUpdateConfirmation (remote : RemoteServer) (target : ContainerStatus)

/-- The answers of an operation. -/
@[reducible] def ServerOp.Res : ServerOp → Type
  | .storeGet => Config
  | .timeNow => ℕ
  | .getServerInfoStatus _ => String
  | .newContext => ScanContext
  | .ctxErr _ => Bool
  | .scanActive => Option ScanContext × Bool
  | .beginScan => Bool
  | .beginUpdate => Bool
  | .findLocalScan _ => Option ScanResult
  | .scanNoUpdate .. => Except String ScanResult
  | .updateContainer .. => Except UpdateError UpdateResult
  | .triggerSelfUpdate _ => Except String Unit
  | .syncRemotePolicy .. => Except String Bool
  | .scanRemoteServer _ => Except String ScanResult
  | .updateRemoteContainer .. => Except RemoteError UpdateReply
  | .updateRemoteSelfUpdate .. => Except RemoteError UpdateReply
  | .waitForRemoteUpdateConfirmation .. => Except String ScanResult
  | _ => Unit

/-- What confirms an update in the status of an agent: a container with the name or the ID of
the target is updated and has no update left. -/
def Confirms (target : ContainerStatus) (refreshed : ScanResult) : Prop :=
  ∃ c ∈ refreshed.containers, (c.name = target.name ∨ c.id = target.id) ∧ c.updated = true ∧
    c.updateAvailable = false

/-- The semantics of the operations: `serverSem p o s r t` if `o` may answer `r` in the state
`s` and leave the state `t`. -/
def serverSem (p : Process) : (o : ServerOp) → Server → o.Res → Server → Prop
  | .storeGet, s, r, t => r = s.config ∧ t = s
  | .timeNow, s, r, t => s.clock < r ∧ t = s.tick r
  | .resetScanStates cfg, s, _, t => t = s.resetScanStates cfg
  | .setScanStateKey key state now, s, _, t => t = s.setScanStateKey key state now
  | .cancelActiveScanStates now, s, _, t => t = s.cancelActiveScanStates now
  | .getServerInfoStatus name, s, r, t => r = s.getServerInfoStatus name ∧ t = s
  | .newContext, s, r, t =>
      r = .request s.contexts ∧ t = { s with contexts := s.contexts + 1 }
  | .cancel ctx, s, _, t => t = { s with cancelled := ctx :: s.cancelled }
  | .ctxErr ctx, s, r, t => r = decide (ctx ∈ s.cancelled) ∧ t = s
  | .setScanCancel ctx, s, _, t => t = { s with scanCancel := ctx }
  | .scanActive, s, r, t =>
      r = (s.scanCancel, s.scanRunning || decide (0 < s.remoteScanRunning)) ∧ t = s
  | .beginScan, s, r, t =>
      if s.scanRunning || s.updateRunning then r = false ∧ t = s
      else r = true ∧ t = { s with scanRunning := true }
  | .endScan, s, _, t => t = { s with scanRunning := false }
  | .beginUpdate, s, r, t =>
      if s.scanRunning || s.updateRunning then r = false ∧ t = s
      else r = true ∧ t = { s with updateRunning := true }
  | .endUpdate, s, _, t => t = { s with updateRunning := false }
  | .addRemoteScanRunning n, s, _, t =>
      t = { s with remoteScanRunning := s.remoteScanRunning + n }
  | .findLocalScan name, s, r, t => r = findLocalScan p.fold s.lastScans name ∧ t = s
  | .setLastScans results, s, _, t => t = s.setLastScans results
  | .updateLastScans result, s, _, t => t = s.updateLastScans result
  | .recordUpdate serverName isRemote containerID updated now, s, _, t =>
      t = s.recordUpdate serverName isRemote containerID updated now
  | .goRemoteScans ctx remotes, s, _, t =>
      t = { s with remoteScans := s.remoteScans ++ [(ctx, remotes)] }
  | .scanNoUpdate _ _, s, _, t => t = s
  | .updateContainer host containerID cfg, s, r, t =>
      let result := updateContainerKeepState (p.docker host) containerID cfg (s.hosts host)
      r = result.1 ∧ t = s.setHost host result.2
  | .triggerSelfUpdate containerID, s, r, t =>
      let result := triggerSelfUpdate (p.docker p.watcher) containerID (s.hosts p.watcher)
      r = result.1 ∧ t = s.setHost p.watcher result.2
  | .syncRemotePolicy _ _, s, _, t => t = s
  | .scanRemoteServer _, s, _, t => t = s
  | .updateRemoteContainer _ _ _, s, _, t => t = s
  | .updateRemoteSelfUpdate _ _, s, _, t => t = s
  | .waitForRemoteUpdateConfirmation _ target, s, r, t =>
      t = s ∧ ∀ refreshed, r = Except.ok refreshed → Confirms target refreshed

/-- Only the two calls that change containers change the daemons. -/
theorem hosts_of_serverSem {p : Process} {o : ServerOp} {s t : Server} {r : o.Res}
    (hupdate : ∀ host containerID cfg, o ≠ .updateContainer host containerID cfg)
    (htrigger : ∀ containerID, o ≠ .triggerSelfUpdate containerID)
    (h : serverSem p o s r t) : t.hosts = s.hosts := by
  cases o with
  | updateContainer host containerID cfg => exact absurd rfl (hupdate host containerID cfg)
  | triggerSelfUpdate containerID => exact absurd rfl (htrigger containerID)
  | beginScan =>
      rw [serverSem.eq_def] at h
      dsimp only at h
      split_ifs at h
      · rw [h.2]
      · rw [h.2]
  | beginUpdate =>
      rw [serverSem.eq_def] at h
      dsimp only at h
      split_ifs at h
      · rw [h.2]
      · rw [h.2]
  | storeGet => rw [h.2]
  | timeNow => rw [h.2, Server.tick]
  | getServerInfoStatus => rw [h.2]
  | newContext => rw [h.2]
  | ctxErr => rw [h.2]
  | scanActive => rw [h.2]
  | findLocalScan => rw [h.2]
  | waitForRemoteUpdateConfirmation => rw [h.1]
  | _ =>
      obtain rfl : t = _ := h
      rfl

/-- What the scans in progress share is the same. -/
structure Server.SameScans (s t : Server) : Prop where
  scanStates : t.scanStates = s.scanStates
  scanCancel : t.scanCancel = s.scanCancel
  scanRunning : t.scanRunning = s.scanRunning
  remoteScanRunning : t.remoteScanRunning = s.remoteScanRunning
  remoteScans : t.remoteScans = s.remoteScans

/-- The operations on what scans share. -/
def ServerOp.OfScans : ServerOp → Prop
  | .resetScanStates _ | .setScanStateKey .. | .cancelActiveScanStates _ => True
  | .setScanCancel _ | .beginScan | .endScan => True
  | .addRemoteScanRunning _ | .goRemoteScans .. => True
  | _ => False

/-- The other operations leave what scans share. -/
theorem sameScans_of_serverSem {p : Process} {o : ServerOp} {s t : Server} {r : o.Res}
    (ho : ¬ o.OfScans) (h : serverSem p o s r t) : s.SameScans t := by
  cases o with
  | beginUpdate =>
      rw [serverSem.eq_def] at h
      dsimp only at h
      split_ifs at h
      · rw [h.2]
        exact ⟨rfl, rfl, rfl, rfl, rfl⟩
      · rw [h.2]
        exact ⟨rfl, rfl, rfl, rfl, rfl⟩
  | endUpdate =>
      obtain rfl : t = _ := h
      exact ⟨rfl, rfl, rfl, rfl, rfl⟩
  | cancel ctx =>
      obtain rfl : t = _ := h
      exact ⟨rfl, rfl, rfl, rfl, rfl⟩
  | setLastScans results =>
      obtain rfl : t = _ := h
      exact ⟨rfl, rfl, rfl, rfl, rfl⟩
  | updateLastScans result =>
      obtain rfl : t = _ := h
      exact ⟨rfl, rfl, rfl, rfl, rfl⟩
  | recordUpdate =>
      obtain rfl : t = _ := h
      exact ⟨rfl, rfl, rfl, rfl, rfl⟩
  | waitForRemoteUpdateConfirmation =>
      rw [h.1]
      exact ⟨rfl, rfl, rfl, rfl, rfl⟩
  | _ =>
      first
        | exact absurd trivial ho
        | (obtain rfl : t = s := h; exact ⟨rfl, rfl, rfl, rfl, rfl⟩)
        | (rw [h.2]; exact ⟨rfl, rfl, rfl, rfl, rfl⟩)

end Contiwatch
