import Contiwatch.ScanServer

/-!
# Scans and Updates

The handlers and background loops of `internal/server/server.go` and
`internal/server/scheduler.go` that scan servers and update containers, as programs of the
atomic operations of `ScanServer`. Deferred functions are written out where they run, and log
lines, notifications and the file of the scan results are left out.
-/

namespace Contiwatch

open GoStrings

/-- A program of the server. -/
abbrev ServerProg (α : Type) := Prog ServerOp.Res α

/-! ### Operations -/

/-- The program that makes one operation. -/
def perform (o : ServerOp) : ServerProg o.Res := Prog.call o

/-- A program of one operation runs as the operation. -/
theorem exec_perform {σ : Type} {sem : (o : ServerOp) → σ → o.Res → σ → Prop} {o : ServerOp}
    {r : o.Res} {s t : σ} : Prog.Exec sem (perform o) s r t ↔ sem o s r t :=
  Prog.exec_call

/-- `store.Get`. -/
def storeGet : ServerProg Config := perform .storeGet

/-- `time.Now`. -/
def timeNow : ServerProg ℕ := perform .timeNow

/-- `ctx.Err() != nil`. -/
def ctxErr (ctx : ScanContext) : ServerProg Bool := perform (.ctxErr ctx)

/-- The section that refuses a scan, or sets `scanRunning`. -/
def beginScan : ServerProg Bool := perform .beginScan

/-- The section that refuses an update, or sets `updateRunning`. -/
def beginUpdate : ServerProg Bool := perform .beginUpdate

/-- `setScanState`. -/
def setScanState (isLocal : Bool) (name : String) (state : ScanPhase) : ServerProg Unit := do
  let now ← timeNow
  perform (.setScanStateKey (scanKey isLocal name) state now)

/-- The state after an error: cancelled if the context is, else failed. -/
def setFailedState (ctx : ScanContext) (isLocal : Bool) (name : String) : ServerProg Unit := do
  if ← ctxErr ctx then setScanState isLocal name .cancelled
  else setScanState isLocal name .error

/-- Set the state of the local servers that are not in maintenance. -/
def setLocalStates (state : ScanPhase) : List LocalServer → ServerProg Unit
  | [] => pure ()
  | srv :: servers =>
      if srv.maintenance then setLocalStates state servers
      else do
        setScanState true srv.name state
        setLocalStates state servers

/-- Set the state of the remote servers that are online and not in maintenance. -/
def setRemoteStates (state : ScanPhase) : List RemoteServer → ServerProg Unit
  | [] => pure ()
  | remote :: remotes =>
      if remote.maintenance then setRemoteStates state remotes
      else do
        let status : String ← perform (.getServerInfoStatus remote.name)
        if status ≠ "online" then setRemoteStates state remotes
        else do
          setScanState false remote.name state
          setRemoteStates state remotes

/-- `setAllScanStates`. -/
def setAllScanStates (cfg : Config) (state : ScanPhase) : ServerProg Unit :=
  if state = .idle then perform (.resetScanStates cfg)
  else do
    setLocalStates state cfg.localServers
    setRemoteStates state cfg.remoteServers

/-! ### Looking up servers -/

/-- `findLocalServer`. -/
def findLocalServer (fold : Char → Char) (servers : List LocalServer) (name : String) :
    Option LocalServer :=
  servers.find? fun srv => equalFold fold srv.name name

/-- `findRemoteServer`. -/
def findRemoteServer (fold : Char → Char) (servers : List RemoteServer) (name : String) :
    Option RemoteServer :=
  servers.find? fun srv => equalFold fold srv.name name

/-- `dockerHostFromSocket`. -/
def dockerHostFromSocket (socket : String) : String :=
  let socket := trimSpaceStr socket
  if socket = "" then ""
  else if hasPrefix socket "unix://" then socket
  else "unix://" ++ socket

/-! ### Local servers -/

section

variable (p : Process)

/-- `scanLocalServer`. All callers ask for a scan without updates. -/
def scanLocalServer (cfg : Config) (srv : LocalServer) :
    ServerProg (Except String ScanResult) :=
  match p.newWithHost (dockerHostFromSocket srv.socket) with
  | .error err => pure (.error err)
  | .ok host => do
      let result : Except String ScanResult ← perform (.scanNoUpdate host cfg)
      match result with
      | .error err => pure (.error err)
      | .ok result =>
          pure (.ok { result with
            serverName := srv.name, serverURL := srv.socket, isLocal := true })

/-- The loop of `autoUpdateLocal`. -/
def autoUpdateLoop (ctx : ScanContext) (cfg : Config) (host : ℕ) :
    List ContainerStatus → ScanResult → ℕ → ServerProg (ScanResult × ℕ × Option String)
  | [], result, updatedCount => pure (result, updatedCount, none)
  | target :: targets, result, updatedCount => do
      if ← ctxErr ctx then pure (result, updatedCount, some "context canceled")
      else do
        let updateResult : Except UpdateError UpdateResult ←
          perform (.updateContainer host target.id cfg)
        match updateResult with
        | .error _ => autoUpdateLoop ctx cfg host targets result updatedCount
        | .ok updateResult => do
            let now ← timeNow
            autoUpdateLoop ctx cfg host targets
              (updateScanResultContainer result target.id updateResult.updated now)
              (if updateResult.updated then updatedCount + 1 else updatedCount)

/-- `autoUpdateLocal`: the result with the updates in it, their number, and an error. -/
def autoUpdateLocal (ctx : ScanContext) (cfg : Config) (srv : LocalServer) (result : ScanResult) :
    ServerProg (ScanResult × ℕ × Option String) :=
  let targets := updateTargets result.containers
  if targets.isEmpty then pure (result, 0, none)
  else
    match p.newWithHost (dockerHostFromSocket srv.socket) with
    | .error err => pure (result, 0, some err)
    | .ok host => do
        setScanState true srv.name .updating
        autoUpdateLoop ctx cfg host targets result 0

/-- The scan of one local server in `runScan`. -/
def scanLocal (ctx : ScanContext) (cfg : Config) (srv : LocalServer) : ServerProg ScanResult := do
  setScanState true srv.name .scanning
  match ← scanLocalServer p cfg srv with
  | .error err => do
      setFailedState ctx true srv.name
      let now ← timeNow
      pure (.bare srv.name srv.socket true now err)
  | .ok result =>
      if result.error ≠ "" then do
        setScanState true srv.name .error
        pure result
      else if p.agentMode then do
        setScanState true srv.name .done
        pure result
      else do
        match ← autoUpdateLocal p ctx cfg srv result with
        | (_, _, some err) => do
            setFailedState ctx true srv.name
            let now ← timeNow
            pure (.bare srv.name srv.socket true now err)
        | (result, _, none) => do
            setScanState true srv.name .done
            pure result

/-- The servers that a cancelled `runScan` does not come to. -/
def cancelLocals : List LocalServer → List ScanResult → ServerProg (List ScanResult)
  | [], results => pure results
  | srv :: servers, results => do
      setScanState true srv.name .cancelled
      let now ← timeNow
      cancelLocals servers (results ++
        [.bare srv.name srv.socket true now "scan cancelled manually (not started)"])

/-- The loop of `runScan`. -/
def scanLocals (ctx : ScanContext) (cfg : Config) :
    List LocalServer → List ScanResult → ServerProg (List ScanResult)
  | [], results => pure results
  | srv :: servers, results => do
      if ← ctxErr ctx then cancelLocals (srv :: servers) results
      else if srv.maintenance then do
        let previous : Option ScanResult ← perform (.findLocalScan srv.name)
        scanLocals ctx cfg servers
          (results ++ [previous.getD (.bare srv.name srv.socket true 0 "")])
      else do
        let result ← scanLocal p ctx cfg srv
        scanLocals ctx cfg servers (results ++ [result])

/-- `runScan`. Its only error is that a scan or an update is running. -/
def runScan (ctx : ScanContext) : ServerProg (Option ScanResult) := do
  if ← beginScan then do
    let cfg ← storeGet
    let results ← scanLocals p ctx cfg cfg.localServers []
    perform (.setLastScans results)
    perform .endScan
    pure (some (results.headD .zero))
  else pure none

/-! ### Remote servers -/

variable (lower : Lowering)

/-- `isContiwatchImage`. -/
def isContiwatchImage (image : String) : Bool := contains (toLower lower.map image) "contiwatch"

/-- `isRemoteAgentUpdateTarget`. -/
def isRemoteAgentUpdateTarget (c : ContainerStatus) : Bool :=
  let name := toLower lower.map (trimSpaceStr c.name)
  c.self ||
    (contains name "agent" && (contains name "contiwatch" || isContiwatchImage lower c.image))

/-- `isAgentRestartUpdate`. -/
def isAgentRestartUpdate (r : UpdateReply) : Bool :=
  let message := toLower lower.map r.message
  !r.updated && (contains message "agent restarting" || contains message "self update scheduled")

/-- `isRemoteUpdateDisconnect`. -/
def isRemoteUpdateDisconnect (err : RemoteError) : Bool :=
  let message := toLower lower.map err.message
  err.ended || contains message "eof" || contains message "connection reset" ||
    contains message "broken pipe"

/-- The targets with the agent itself last; the sort is stable. -/
def agentLast (targets : List ContainerStatus) : List ContainerStatus :=
  targets.filter (fun c => !isRemoteAgentUpdateTarget lower c) ++
    targets.filter (isRemoteAgentUpdateTarget lower)

/-- Ask an agent to update a container, or itself. -/
def askUpdate (remote : RemoteServer) (containerID : String) (selfUpdate prune : Bool) :
    ServerProg (Except RemoteError UpdateReply) :=
  if selfUpdate then perform (.updateRemoteSelfUpdate remote containerID)
  else perform (.updateRemoteContainer remote containerID prune)

/-- An agent that may have closed the connection because it restarts counts as having
answered. -/
def orRestarting (mayRestart : Bool) (containerID message : String) :
    Except RemoteError UpdateReply → Except RemoteError UpdateReply
  | .ok reply => .ok reply
  | .error err =>
      if isRemoteUpdateDisconnect lower err && mayRestart then
        .ok ⟨containerID, shortID containerID, false, message⟩
      else .error err

/-- The loop of `autoUpdateRemote`. -/
def autoUpdateRemoteLoop (ctx : ScanContext) (cfg : Config) (remote : RemoteServer) :
    List ContainerStatus → ScanResult → ℕ → ServerProg (ScanResult × ℕ × Option String)
  | [], result, updatedCount => pure (result, updatedCount, none)
  | target :: targets, result, updatedCount => do
      if ← ctxErr ctx then pure (result, updatedCount, some "context canceled")
      else do
        let isAgentTarget := isRemoteAgentUpdateTarget lower target
        let reply ← askUpdate remote target.id isAgentTarget cfg.pruneDanglingImages
        match orRestarting lower isAgentTarget target.id
            "self update scheduled; agent restarting" reply with
        | .error err => do
            let now ← timeNow
            autoUpdateRemoteLoop ctx cfg remote targets
              (markScanResultUpdateError result target.id err.message now) updatedCount
        | .ok reply =>
            if isAgentRestartUpdate lower reply then do
              let refreshed : Except String ScanResult ←
                perform (.waitForRemoteUpdateConfirmation remote target)
              match refreshed with
              | .error err => pure (result, updatedCount, some err)
              | .ok refreshed =>
                  autoUpdateRemoteLoop ctx cfg remote targets refreshed (updatedCount + 1)
            else do
              let now ← timeNow
              autoUpdateRemoteLoop ctx cfg remote targets
                (updateScanResultContainer result target.id reply.updated now)
                (if reply.updated then updatedCount + 1 else updatedCount)

/-- `autoUpdateRemote`. -/
def autoUpdateRemote (ctx : ScanContext) (cfg : Config) (remote : RemoteServer)
    (result : ScanResult) : ServerProg (ScanResult × ℕ × Option String) :=
  let targets := agentLast lower (updateTargets result.containers)
  if targets.isEmpty then pure (result, 0, none)
  else do
    setScanState false remote.name .updating
    autoUpdateRemoteLoop lower ctx cfg remote targets result 0

/-- `scanRemoteServer`. -/
def scanRemoteServer (remote : RemoteServer) : ServerProg (Except String ScanResult) :=
  if remote.url = "" then pure (.error "missing url")
  else do
    let result : Except String ScanResult ← perform (.scanRemoteServer remote)
    match result with
    | .error err => pure (.error err)
    | .ok result =>
        pure (.ok { result with
          serverName := remote.name, serverURL := remote.url, isLocal := false })

/-- The scan of one remote server in `triggerRemoteScans`. -/
def scanRemote (ctx : ScanContext) (remote : RemoteServer) : ServerProg Unit := do
  let cfg ← storeGet
  let _ ← perform (.syncRemotePolicy cfg remote)
  setScanState false remote.name .scanning
  match ← scanRemoteServer remote with
  | .error err => do
      setFailedState ctx false remote.name
      let now ← timeNow
      perform (.updateLastScans (.bare remote.name remote.url false now err))
  | .ok result => do
      match ← autoUpdateRemote lower ctx cfg remote result with
      | (result, _, some err) => do
          setFailedState ctx false remote.name
          perform (.updateLastScans { result with error := err })
      | (result, _, none) => do
          setScanState false remote.name .done
          perform (.updateLastScans result)

/-- The servers that a cancelled `triggerRemoteScans` does not come to. -/
def cancelRemotes : List RemoteServer → ServerProg Unit
  | [] => pure ()
  | remote :: remotes => do
      setScanState false remote.name .cancelled
      cancelRemotes remotes

/-- The loop of `triggerRemoteScans`. -/
def scanRemotes (ctx : ScanContext) : List RemoteServer → ServerProg Unit
  | [] => pure ()
  | remote :: remotes => do
      if ← ctxErr ctx then cancelRemotes (remote :: remotes)
      else if remote.maintenance then scanRemotes ctx remotes
      else do
        let status : String ← perform (.getServerInfoStatus remote.name)
        if status ≠ "online" then do
          setScanState false remote.name .idle
          scanRemotes ctx remotes
        else do
          scanRemote lower ctx remote
          scanRemotes ctx remotes

/-- `triggerRemoteScans`. -/
def triggerRemoteScans (ctx : ScanContext) (remotes : List RemoteServer) : ServerProg Unit := do
  perform (.addRemoteScanRunning 1)
  scanRemotes lower ctx remotes
  perform (.addRemoteScanRunning (-1))

/-! ### Requests -/

/-- What a handler answers, where `updateError` is an error with the code 500; a goroutine
just ends. -/
inductive Response where
  | scan (result : ScanResult)
  | update (result : UpdateResult)
  | reply (result : UpdateReply)
  | status (text : String)
  | error (code : ℕ) (message : String)
  | updateError (err : UpdateError)
  | ended

/-- The scope `all` of `handleScan`, and whether it is to clean up. -/
def handleScanAll (cfg : Config) (ctx : ScanContext) : ServerProg (Response × Bool) := do
  setAllScanStates cfg .pending
  match ← runScan p ctx with
  | none => pure (.error 409 "scan already in progress", true)
  | some result => do
      perform (.goRemoteScans ctx cfg.remoteServers)
      pure (.scan result, false)

/-- The scope of a local server, once `scanRunning` is set. -/
def handleScanLocalRunning (cfg : Config) (ctx : ScanContext) (srv : LocalServer) :
    ServerProg Response := do
  match ← scanLocalServer p cfg srv with
  | .error err => do
      if ← ctxErr ctx then do
        setScanState true srv.name .cancelled
        let result := { ScanResult.zero with error := "scan cancelled manually" }
        perform (.updateLastScans result)
        pure (.scan result)
      else do
        setScanState true srv.name .error
        pure (.error 500 err)
  | .ok result =>
      if result.error ≠ "" then do
        setScanState true srv.name .error
        perform (.updateLastScans result)
        pure (.scan result)
      else if p.agentMode then do
        setScanState true srv.name .done
        perform (.updateLastScans result)
        pure (.scan result)
      else do
        match ← autoUpdateLocal p ctx cfg srv result with
        | (_, _, some err) => do
            setFailedState ctx true srv.name
            pure (.error 500 err)
        | (result, _, none) => do
            setScanState true srv.name .done
            perform (.updateLastScans result)
            pure (.scan result)

/-- The scope of a local server in `handleScan`. -/
def handleScanLocal (cfg : Config) (ctx : ScanContext) (name : String) : ServerProg Response :=
  match findLocalServer p.fold cfg.localServers name with
  | none => pure (.error 404 "local server not found")
  | some srv =>
      if srv.maintenance then pure (.error 409 "server in maintenance")
      else do
        setScanState true srv.name .scanning
        if ← beginScan then do
          let response ← handleScanLocalRunning p cfg ctx srv
          perform .endScan
          pure response
        else pure (.error 409 "another operation is in progress")

/-- The scope of a remote server, once it is found. -/
def handleScanRemoteFound (cfg : Config) (ctx : ScanContext) (remote : RemoteServer) :
    ServerProg Response := do
  let _ ← perform (.syncRemotePolicy cfg remote)
  setScanState false remote.name .scanning
  perform (.addRemoteScanRunning 1)
  let result ← scanRemoteServer remote
  perform (.addRemoteScanRunning (-1))
  match result with
  | .error err => do
      if ← ctxErr ctx then do
        setScanState false remote.name .cancelled
        let now ← timeNow
        let result := .bare remote.name remote.url false now "scan cancelled manually"
        perform (.updateLastScans result)
        pure (.scan result)
      else do
        setScanState false remote.name .error
        pure (.error 502 err)
  | .ok result => do
      match ← autoUpdateRemote p.lower ctx cfg remote result with
      | (_, _, some err) => do
          setFailedState ctx false remote.name
          pure (.error 502 err)
      | (result, _, none) => do
          setScanState false remote.name .done
          perform (.updateLastScans result)
          pure (.scan result)

/-- The scope of a remote server in `handleScan`. -/
def handleScanRemote (cfg : Config) (ctx : ScanContext) (name : String) : ServerProg Response :=
  match findRemoteServer p.fold cfg.remoteServers name with
  | none => pure (.error 404 "remote server not found")
  | some remote =>
      if remote.maintenance then pure (.error 409 "server in maintenance")
      else handleScanRemoteFound p cfg ctx remote

/-- The switch of `handleScan` over the scope, and whether it is to clean up. -/
def handleScanScope (cfg : Config) (ctx : ScanContext) (scope : String) :
    ServerProg (Response × Bool) :=
  if scope = "" ∨ scope = "all" then handleScanAll p cfg ctx
  else if hasPrefix scope "local:" then do
    let response ← handleScanLocal p cfg ctx (trimPrefix scope "local:")
    pure (response, true)
  else if hasPrefix scope "remote:" then do
    let response ← handleScanRemote p cfg ctx (trimPrefix scope "remote:")
    pure (response, true)
  else pure (.error 400 "invalid scan scope", true)

/-- `handleScan` for a `POST` request with the query parameter `server`. -/
def handleScan (server : String) : ServerProg Response := do
  let cfg ← storeGet
  perform (.resetScanStates cfg)
  let ctx : ScanContext ← perform .newContext
  perform (.setScanCancel (some ctx))
  let (response, cleanup) ← handleScanScope p cfg ctx (trimSpaceStr server)
  if cleanup then do
    perform (.cancel ctx)
    perform (.setScanCancel none)
    pure response
  else pure response

/-- The goroutine that `handleScan` starts. -/
def remoteScans (ctx : ScanContext) (remotes : List RemoteServer) : ServerProg Response := do
  triggerRemoteScans p.lower ctx remotes
  perform (.setScanCancel none)
  perform (.cancel ctx)
  pure .ended

/-- `handleScanStop`. -/
def handleScanStop : ServerProg Response := do
  let active : Option ScanContext × Bool ← perform .scanActive
  match active with
  | (some ctx, true) => do
      perform (.cancel ctx)
      let now ← timeNow
      perform (.cancelActiveScanStates now)
      pure (.status "stopping")
  | _ => pure (.status "idle")

/-- `runScheduledScan`. -/
def runScheduledScan (ctx : ScanContext) : ServerProg Response := do
  let cfg ← storeGet
  setAllScanStates cfg .pending
  let _ ← runScan p ctx
  if cfg.remoteServers.isEmpty then pure .ended
  else do
    triggerRemoteScans p.lower ctx cfg.remoteServers
    pure .ended

/-- The query parameters of `POST /api/update/{id}`. -/
structure UpdateQuery where
  server : String
  prune : String
  selfUpdate : String

/-- The configuration with the override of the query parameter `prune`. -/
def UpdateQuery.override (q : UpdateQuery) (cfg : Config) : Config :=
  if trimSpaceStr q.prune = "" then cfg
  else { cfg with
    pruneDanglingImages :=
      decide (toLower p.lower.map (trimSpaceStr q.prune) ∈ ["1", "true", "yes", "on"]) }

/-- Whether the query asks for the update of an agent by itself. -/
def UpdateQuery.isSelfUpdate (q : UpdateQuery) : Bool :=
  let param := trimSpaceStr q.selfUpdate
  param = "1" || equalFold p.fold param "true" || equalFold p.fold param "yes"

/-- The server that the query names, and whether it is remote. -/
def UpdateQuery.target (q : UpdateQuery) : Bool × String :=
  let param := trimSpaceStr q.server
  if hasPrefix param "remote:" then (true, trimPrefix param "remote:")
  else if hasPrefix param "local:" then (false, trimPrefix param "local:")
  else (false, param)

/-- The name of the server, where none is needed if there is one local server only. -/
def serverOrOnly (cfg : Config) (serverName : String) : Option String :=
  if serverName = "" then
    match cfg.localServers with
    | [srv] => some srv.name
    | _ => none
  else some serverName

/-- The update of the container the process runs in. -/
def handleUpdateSelf (containerID : String) : ServerProg Response :=
  if p.agentMode then do
    let result : Except String Unit ← perform (.triggerSelfUpdate containerID)
    match result with
    | .error err => pure (.error 500 err)
    | .ok _ => pure (.reply ⟨containerID, shortID containerID, false,
        "self update scheduled; recheck in 30s"⟩)
  else pure (.error 400 "self update is only supported in agent mode")

/-- The update of a container of an agent. -/
def handleUpdateRemote (cfg : Config) (serverName containerID : String) (selfUpdate : Bool) :
    ServerProg Response :=
  match findRemoteServer p.fold cfg.remoteServers serverName with
  | none => pure (.error 404 "remote server not found")
  | some remote =>
      if remote.maintenance then pure (.error 409 "server in maintenance")
      else do
        let reply ← askUpdate remote containerID selfUpdate cfg.pruneDanglingImages
        let message := if selfUpdate then "self update scheduled; agent restarting"
          else "update triggered; agent restarting"
        match orRestarting p.lower true containerID message reply with
        | .error err => pure (.error 502 err.message)
        | .ok reply => do
            let now ← timeNow
            perform (.recordUpdate serverName true containerID reply.updated now)
            pure (.reply reply)

/-- The update of a container of a local server. -/
def handleUpdateLocal (cfg : Config) (serverName containerID : String) :
    ServerProg Response :=
  match findLocalServer p.fold cfg.localServers serverName with
  | none => pure (.error 404 "local server not found")
  | some srv =>
      if srv.maintenance then pure (.error 409 "server in maintenance")
      else
        match p.newWithHost (dockerHostFromSocket srv.socket) with
        | .error err => pure (.error 500 err)
        | .ok host => do
            let result : Except UpdateError UpdateResult ←
              perform (.updateContainer host containerID cfg)
            match result with
            | .error err => pure (.updateError err)
            | .ok result => do
                let now ← timeNow
                perform (.recordUpdate serverName false containerID result.updated now)
                pure (.update result)

/-- `handleUpdateContainer` once `updateRunning` is set. -/
def handleUpdateRunning (containerID : String) (q : UpdateQuery) : ServerProg Response := do
  let cfg ← storeGet
  let cfg := q.override p cfg
  let (isRemote, serverName) := q.target
  match serverOrOnly cfg serverName with
  | none => pure (.error 400 "server name required")
  | some serverName =>
      if isSelfContainer p.lower p.selfContainerCandidates containerID then
        handleUpdateSelf p containerID
      else if isRemote then handleUpdateRemote p cfg serverName containerID (q.isSelfUpdate p)
      else handleUpdateLocal p cfg serverName containerID

/-- `handleUpdateContainer` for `POST /api/update/{id}`. -/
def handleUpdateContainer (containerID : String) (q : UpdateQuery) : ServerProg Response :=
  if containerID = "" then pure (.error 400 "container id required")
  else do
    if ← beginUpdate then do
      let response ← handleUpdateRunning p containerID q
      perform .endUpdate
      pure response
    else pure (.error 409 "another operation is in progress")

/-- `handleSelfUpdate` for the ID it finds in the request. -/
def handleSelfUpdate (containerID : String) : ServerProg Response :=
  let containerID := trimSpaceStr containerID
  if !p.agentMode then pure (.error 400 "self update is only supported in agent mode")
  else if containerID = "" then pure (.error 400 "container id required")
  else if !isSelfContainer p.lower p.selfContainerCandidates containerID then
    pure (.error 400 "container is not the running agent")
  else do
    if ← beginUpdate then do
      let result : Except String Unit ← perform (.triggerSelfUpdate containerID)
      perform .endUpdate
      match result with
      | .error err => pure (.error 500 err)
      | .ok _ => pure (.status "scheduled")
    else pure (.error 409 "another operation is in progress")

/-- What the server does at the same time: it serves requests, runs the scans of its
scheduler, and the goroutines that `handleScan` leaves behind. -/
inductive Request where
  | scan (server : String)
  | scanStop
  | scheduledScan (n : ℕ)
  | remoteScans (ctx : ScanContext) (remotes : List RemoteServer)
  | update (containerID : String) (q : UpdateQuery)
  | selfUpdate (containerID : String)

/-- The program that serves a request. -/
def Request.program : Request → ServerProg Response
  | .scan server => handleScan p server
  | .scanStop => handleScanStop
  | .scheduledScan n => runScheduledScan p (.scheduler n)
  | .remoteScans ctx remotes => Contiwatch.remoteScans p ctx remotes
  | .update containerID q => handleUpdateContainer p containerID q
  | .selfUpdate containerID => handleSelfUpdate p containerID

/-- A goroutine starts once `handleScan` has left it behind; a request or a scheduled scan may
come at any time. -/
def Request.Starts : Request → Server → Server → Prop
  | .remoteScans ctx remotes, s, t =>
      ∃ front back, s.remoteScans = front ++ (ctx, remotes) :: back ∧
        t = { s with remoteScans := front ++ back }
  | _, s, t => t = s

/-- What may change around the server: its configuration, the status of the servers and the
containers of the daemons, and the scheduler may cancel its contexts. -/
def Server.Surroundings (s t : Server) : Prop :=
  ∃ (config : Config) (serverInfo : GoMap String String) (daemons : ℕ → Daemon)
    (runs : List ℕ), t = { s with
      config := config
      serverInfo := serverInfo
      cancelled := runs.map .scheduler ++ s.cancelled
      hosts := fun host => { s.hosts host with daemon := daemons host } }

/-- The server when it starts: the results of earlier scans are loaded from the file of the
scan results. -/
def Server.new (config : Config) (serverInfo : GoMap String String) (lastScan : ScanResult)
    (lastScans : List ScanResult) (daemons : ℕ → Daemon) : Server where
  config := config
  serverInfo := serverInfo
  clock := 0
  scanStates := ∅
  recorded := fun k state h => by rw [Finmap.lookup_empty] at h; exact absurd h (by simp)
  lastScan := lastScan
  lastScans := lastScans
  scanRunning := false
  updateRunning := false
  remoteScanRunning := 0
  scanCancel := none
  contexts := 0
  cancelled := []
  hosts := fun host => ⟨daemons host, 0, []⟩
  remoteScans := []

/-- The steps of the server: requests and goroutines, interleaved in any way. -/
def ServerStep : Pool Server Request ServerOp.Res Response → PoolEvent Request ServerOp.Res →
    Pool Server Request ServerOp.Res Response → Prop :=
  Pool.Step (serverSem p) (Request.program p) Request.Starts Server.Surroundings

/-- The states that the server can come to. -/
def Reachable (s : Server) : Prop :=
  ∃ (config : Config) (serverInfo : GoMap String String) (lastScan : ScanResult)
    (lastScans : List ScanResult) (daemons : ℕ → Daemon)
    (es : List (PoolEvent Request ServerOp.Res)) (threads : List (Request × ServerProg Response)),
    Run (ServerStep p) ⟨Server.new config serverInfo lastScan lastScans daemons, []⟩ es
      ⟨s, threads⟩

/-- What a request can come to on a server that has just started is reachable. -/
theorem reachable_of_reaches {p : Process} {config : Config} {serverInfo : GoMap String String}
    {lastScan : ScanResult} {lastScans : List ScanResult} {daemons : ℕ → Daemon} {i : Request}
    {t : Server} (hstart : i.Starts (Server.new config serverInfo lastScan lastScans daemons)
      (Server.new config serverInfo lastScan lastScans daemons))
    (h : Prog.Reaches (serverSem p) (i.program p)
      (Server.new config serverInfo lastScan lastScans daemons) t) : Reachable p t := by
  obtain ⟨es, threads, hrun⟩ : ∃ es threads, Run (fun q e q' => ServerStep p q e q' ∧ True)
      ⟨Server.new config serverInfo lastScan lastScans daemons, []⟩ es ⟨t, threads⟩ :=
    Pool.run_reaches (C := fun _ _ => True) hstart trivial (h.mono fun hsem => ⟨hsem, trivial⟩)
  exact ⟨config, serverInfo, lastScan, lastScans, daemons, es, threads, hrun.mono fun h => h.1⟩

end

/-! ### A controller with one daemon -/

/-- A controller that knows the ID of its own container from its runtime metadata. -/
def controller : Process where
  agentMode := false
  selfContainerCandidates := [webID]
  fold := id
  lower := .ascii
  newWithHost := fun _ => .ok 0
  watcher := 0
  docker := fun _ => webDocker 100

/-- The only server is the local daemon. -/
def dockerConfig : Config :=
  ⟨policyNotifyOnly, false, false, [⟨"docker", "/var/run/docker.sock", false⟩], []⟩

/-- The server when it starts; all daemons have a container `web`. -/
def startedServer : Server := Server.new dockerConfig ∅ .zero [] fun _ => webDaemon []

end Contiwatch
