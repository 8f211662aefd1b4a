import Contiwatch.ScanOps

/-!
# Updates and the Container of the Process Itself

Which of the server's programs may stop and remove the container that the process runs in.
`handleUpdateContainer` asks `IsSelfContainer` first, which knows the container by the start of
its ID but neither by its name nor by a shorter prefix; the automatic updates of a controller
ask nothing.

## Main results

* `own_container_spared` — in every interleaving of requests, scheduled scans and goroutines in
  which no automatic update of a controller is for the own container, and every request to
  update it is for an ID that `IsSelfContainer` recognises, no call of the process stops or
  removes its own container.
-/

namespace Contiwatch

open GoStrings Prog

/-! ### Programs without updates in the process -/

/-- Every operation but `UpdateContainer`. -/
def ServerOp.Harmless : ServerOp → Prop
  | .updateContainer .. => False
  | _ => True

/-- A program that never calls `UpdateContainer`. -/
abbrev Harmless {α : Type} (q : ServerProg α) : Prop := Ops ServerOp.Harmless q

section

variable {p : Process} {lower : Lowering}

/-- A plain operation is no `UpdateContainer`. -/
theorem ServerOp.Plain.harmless {o : ServerOp} (h : o.Plain) : o.Harmless := by
  cases o with
  | updateContainer => exact h.elim
  | _ => trivial

/-- A plain program never calls it. -/
theorem harmless_of_plain {α : Type} {q : ServerProg α} (h : Plain q) : Harmless q :=
  h.mono fun _ ho => ho.harmless

/-- Publishing a state updates no container. -/
theorem harmless_setScanState (isLocal : Bool) (name : String) (state : ScanPhase) :
    Harmless (setScanState isLocal name state) :=
  (ops_perform trivial).bind fun _ => ops_perform trivial

/-- Marking a server after a failed scan updates no container. -/
theorem harmless_setFailedState (ctx : ScanContext) (isLocal : Bool) (name : String) :
    Harmless (setFailedState ctx isLocal name) := by
  refine (ops_perform trivial).bind fun cancelled => ?_
  split_ifs
  · exact harmless_setScanState ..
  · exact harmless_setScanState ..

/-- Marking the local servers updates no container. -/
theorem harmless_setLocalStates (state : ScanPhase) (servers : List LocalServer) :
    Harmless (setLocalStates state servers) := by
  induction servers with
  | nil => exact ops_pure ()
  | cons srv servers ih =>
      rw [setLocalStates]
      split_ifs
      · exact ih
      · exact (harmless_setScanState ..).bind fun _ => ih

/-- Marking the agents updates no container. -/
theorem harmless_setRemoteStates (state : ScanPhase) (remotes : List RemoteServer) :
    Harmless (setRemoteStates state remotes) := by
  induction remotes with
  | nil => exact ops_pure ()
  | cons remote remotes ih =>
      rw [setRemoteStates]
      split_ifs
      · exact ih
      · refine (ops_perform trivial).bind fun status => ?_
        split_ifs
        · exact ih
        · exact (harmless_setScanState ..).bind fun _ => ih

/-- Marking every server updates no container. -/
theorem harmless_setAllScanStates (cfg : Config) (state : ScanPhase) :
    Harmless (setAllScanStates cfg state) := by
  rw [setAllScanStates]
  split_ifs
  · exact ops_perform trivial
  · exact (harmless_setLocalStates ..).bind fun _ => harmless_setRemoteStates ..

/-- An agent scans a local server without updates. -/
theorem harmless_scanLocal (hagent : p.agentMode = true) (ctx : ScanContext) (cfg : Config)
    (srv : LocalServer) : Harmless (scanLocal p ctx cfg srv) := by
  refine (harmless_setScanState ..).bind fun _ => ?_
  refine (harmless_of_plain (plain_scanLocalServer ..)).bind fun result => ?_
  rcases result with err | result
  · refine (harmless_setFailedState ..).bind fun _ => ?_
    exact (ops_perform trivial).bind fun _ => ops_pure _
  · dsimp only
    split_ifs
    · exact (harmless_setScanState ..).bind fun _ => ops_pure _
    · exact (harmless_setScanState ..).bind fun _ => ops_pure _

/-- The rest of a cancelled run over the local servers updates no container. -/
theorem harmless_cancelLocals (servers : List LocalServer) (results : List ScanResult) :
    Harmless (cancelLocals servers results) := by
  induction servers generalizing results with
  | nil => exact ops_pure _
  | cons srv servers ih =>
      rw [cancelLocals]
      refine (harmless_setScanState ..).bind fun _ => ?_
      exact (ops_perform trivial).bind fun now => ih _

/-- An agent's scan of its local servers leaves every container alone. -/
theorem harmless_scanLocals (hagent : p.agentMode = true) (ctx : ScanContext) (cfg : Config)
    (servers : List LocalServer) (results : List ScanResult) :
    Harmless (scanLocals p ctx cfg servers results) := by
  induction servers generalizing results with
  | nil => exact ops_pure _
  | cons srv servers ih =>
      rw [scanLocals]
      refine (ops_perform trivial).bind fun cancelled => ?_
      split_ifs
      · exact harmless_cancelLocals ..
      · exact (ops_perform trivial).bind fun previous => ih _
      · exact (harmless_scanLocal hagent ..).bind fun result => ih _

/-- An agent's whole scan leaves every container alone. -/
theorem harmless_runScan (hagent : p.agentMode = true) (ctx : ScanContext) :
    Harmless (runScan p ctx) := by
  refine (ops_perform trivial).bind fun begun => ?_
  split_ifs
  · refine (ops_perform trivial).bind fun cfg => ?_
    refine (harmless_scanLocals hagent ..).bind fun results => ?_
    refine (ops_perform trivial).bind fun _ => ?_
    exact (ops_perform trivial).bind fun _ => ops_pure _
  · exact ops_pure _

/-- Asking an agent for updates runs no program on this daemon. -/
theorem harmless_autoUpdateRemote (ctx : ScanContext) (cfg : Config) (remote : RemoteServer)
    (result : ScanResult) : Harmless (autoUpdateRemote lower ctx cfg remote result) := by
  rw [autoUpdateRemote]
  split
  · exact ops_pure _
  · refine (harmless_setScanState ..).bind fun _ => ?_
    refine (ops_autoUpdateRemoteLoop ..).mono fun o ho => ?_
    rcases ho with hplain | rfl
    · exact hplain.harmless
    · trivial

/-- The scan of one agent updates nothing here. -/
theorem harmless_scanRemote (ctx : ScanContext) (remote : RemoteServer) :
    Harmless (scanRemote lower ctx remote) := by
  refine (ops_perform trivial).bind fun cfg => ?_
  refine (ops_perform trivial).bind fun _ => ?_
  refine (harmless_setScanState ..).bind fun _ => ?_
  refine (harmless_of_plain (plain_scanRemoteServer ..)).bind fun result => ?_
  rcases result with err | result
  · refine (harmless_setFailedState ..).bind fun _ => ?_
    exact (ops_perform trivial).bind fun now => ops_perform trivial
  · refine (harmless_autoUpdateRemote ..).bind fun updated => ?_
    obtain ⟨result, updatedCount, err⟩ := updated
    cases err with
    | some err => exact (harmless_setFailedState ..).bind fun _ => ops_perform trivial
    | none => exact (harmless_setScanState ..).bind fun _ => ops_perform trivial

/-- The rest of a cancelled run over the agents updates nothing here. -/
theorem harmless_cancelRemotes (remotes : List RemoteServer) :
    Harmless (cancelRemotes remotes) := by
  induction remotes with
  | nil => exact ops_pure ()
  | cons remote remotes ih => exact (harmless_setScanState ..).bind fun _ => ih

/-- The scans of the agents, one after another, update nothing here. -/
theorem harmless_scanRemotes (ctx : ScanContext) (remotes : List RemoteServer) :
    Harmless (scanRemotes lower ctx remotes) := by
  induction remotes with
  | nil => exact ops_pure ()
  | cons remote remotes ih =>
      rw [scanRemotes]
      refine (ops_perform trivial).bind fun cancelled => ?_
      split_ifs
      · exact harmless_cancelRemotes ..
      · exact ih
      · refine (ops_perform trivial).bind fun status => ?_
        split_ifs
        · exact (harmless_setScanState ..).bind fun _ => ih
        · exact (harmless_scanRemote ..).bind fun _ => ih

/-- The scheduled scan of the agents updates nothing here. -/
theorem harmless_triggerRemoteScans (ctx : ScanContext) (remotes : List RemoteServer) :
    Harmless (triggerRemoteScans lower ctx remotes) := by
  refine (ops_perform trivial).bind fun _ => ?_
  exact (harmless_scanRemotes ..).bind fun _ => ops_perform trivial

/-! ### Requests of an agent -/

/-- An agent's requested scan of one local server is harmless once it runs. -/
theorem harmless_handleScanLocalRunning (hagent : p.agentMode = true) (cfg : Config)
    (ctx : ScanContext) (srv : LocalServer) : Harmless (handleScanLocalRunning p cfg ctx srv) := by
  have hrecord : ∀ result : ScanResult, Harmless (do
      perform (.updateLastScans result)
      pure (Response.scan result)) :=
    fun result => (ops_perform trivial).bind fun _ => ops_pure _
  refine (harmless_of_plain (plain_scanLocalServer ..)).bind fun result => ?_
  rcases result with err | result
  · refine (ops_perform trivial).bind fun cancelled => ?_
    split_ifs
    · exact (harmless_setScanState ..).bind fun _ => hrecord _
    · exact (harmless_setScanState ..).bind fun _ => ops_pure _
  · dsimp only
    split_ifs
    · exact (harmless_setScanState ..).bind fun _ => hrecord _
    · exact (harmless_setScanState ..).bind fun _ => hrecord _

/-- So it is with the checks before it. -/
theorem harmless_handleScanLocal (hagent : p.agentMode = true) (cfg : Config)
    (ctx : ScanContext) (name : String) : Harmless (handleScanLocal p cfg ctx name) := by
  rw [handleScanLocal]
  split
  · exact ops_pure _
  split_ifs
  · exact ops_pure _
  · refine (harmless_setScanState ..).bind fun _ => ?_
    refine (ops_perform trivial).bind fun begun => ?_
    split_ifs
    · refine (harmless_handleScanLocalRunning hagent ..).bind fun response => ?_
      exact (ops_perform trivial).bind fun _ => ops_pure _
    · exact ops_pure _

/-- A requested scan of one agent updates nothing here. -/
theorem harmless_handleScanRemoteFound (cfg : Config) (ctx : ScanContext)
    (remote : RemoteServer) : Harmless (handleScanRemoteFound p cfg ctx remote) := by
  refine (ops_perform trivial).bind fun _ => ?_
  refine (harmless_setScanState ..).bind fun _ => ?_
  refine (ops_perform trivial).bind fun _ => ?_
  refine (harmless_of_plain (plain_scanRemoteServer ..)).bind fun result => ?_
  refine (ops_perform trivial).bind fun _ => ?_
  rcases result with err | result
  · refine (ops_perform trivial).bind fun cancelled => ?_
    split_ifs
    · refine (harmless_setScanState ..).bind fun _ => ?_
      refine (ops_perform trivial).bind fun now => ?_
      exact (ops_perform trivial).bind fun _ => ops_pure _
    · exact (harmless_setScanState ..).bind fun _ => ops_pure _
  · refine (harmless_autoUpdateRemote ..).bind fun updated => ?_
    obtain ⟨result, updatedCount, err⟩ := updated
    cases err with
    | some err => exact (harmless_setFailedState ..).bind fun _ => ops_pure _
    | none =>
        refine (harmless_setScanState ..).bind fun _ => ?_
        exact (ops_perform trivial).bind fun _ => ops_pure _

/-- A scan asked for by scope is harmless on an agent. -/
theorem harmless_handleScanScope (hagent : p.agentMode = true) (cfg : Config)
    (ctx : ScanContext) (scope : String) : Harmless (handleScanScope p cfg ctx scope) := by
  rw [handleScanScope]
  split_ifs
  · refine (harmless_setAllScanStates ..).bind fun _ => ?_
    refine (harmless_runScan hagent ctx).bind fun result => ?_
    cases result with
    | none => exact ops_pure _
    | some result => exact (ops_perform trivial).bind fun _ => ops_pure _
  · exact (harmless_handleScanLocal hagent ..).bind fun _ => ops_pure _
  · refine Ops.bind ?_ fun _ => ops_pure _
    rw [handleScanRemote]
    split
    · exact ops_pure _
    split_ifs
    · exact ops_pure _
    · exact harmless_handleScanRemoteFound ..
  · exact ops_pure _

/-- `POST /api/scan` is harmless on an agent, whatever it names. -/
theorem harmless_handleScan (hagent : p.agentMode = true) (server : String) :
    Harmless (handleScan p server) := by
  refine (ops_perform trivial).bind fun cfg => ?_
  refine (ops_perform trivial).bind fun _ => ?_
  refine (ops_perform trivial).bind fun ctx => ?_
  refine (ops_perform trivial).bind fun _ => ?_
  refine (harmless_handleScanScope hagent ..).bind fun outcome => ?_
  obtain ⟨response, cleanup⟩ := outcome
  dsimp only
  split_ifs
  · refine (ops_perform trivial).bind fun _ => ?_
    exact (ops_perform trivial).bind fun _ => ops_pure _
  · exact ops_pure _

/-- So is a scheduled scan. -/
theorem harmless_runScheduledScan (hagent : p.agentMode = true) (ctx : ScanContext) :
    Harmless (runScheduledScan p ctx) := by
  refine (ops_perform trivial).bind fun cfg => ?_
  refine (harmless_setAllScanStates ..).bind fun _ => ?_
  refine (harmless_runScan hagent ctx).bind fun _ => ?_
  split_ifs
  · exact ops_pure _
  · exact (harmless_triggerRemoteScans ..).bind fun _ => ops_pure _

/-- The agents' part of a scheduled scan updates nothing here. -/
theorem harmless_remoteScans (ctx : ScanContext) (remotes : List RemoteServer) :
    Harmless (remoteScans p ctx remotes) := by
  refine (harmless_triggerRemoteScans ..).bind fun _ => ?_
  refine (ops_perform trivial).bind fun _ => ?_
  exact (ops_perform trivial).bind fun _ => ops_pure _

/-- A stop updates nothing. -/
theorem harmless_handleScanStop : Harmless handleScanStop := by
  refine (ops_perform trivial).bind fun active => ?_
  split
  · refine (ops_perform trivial).bind fun _ => ?_
    refine (ops_perform trivial).bind fun now => ?_
    exact (ops_perform trivial).bind fun _ => ops_pure _
  · exact ops_pure _

/-! ### The calls of `UpdateContainer` that a request may make -/

/-- A request to update a container calls `UpdateContainer` only for that container and only
if it is not recognised as the own one; everything else only on a controller. -/
def Guarded (p : Process) : Request → ServerOp → Prop
  | .update containerID _, .updateContainer _ target _ =>
      target = containerID ∧ isSelfContainer p.lower p.selfContainerCandidates containerID = false
  | _, .updateContainer .. => p.agentMode = false
  | _, _ => True

/-- A harmless operation is within the guard of every request. -/
theorem guarded_of_harmless (i : Request) {o : ServerOp} (h : o.Harmless) : Guarded p i o := by
  cases o with
  | updateContainer => exact h.elim
  | _ => cases i <;> trivial

/-- On a controller every operation is within the guard of a scan. -/
theorem guarded_of_controller (hagent : p.agentMode = false) {i : Request}
    (hi : ∀ containerID q, i ≠ .update containerID q) (o : ServerOp) : Guarded p i o := by
  cases i with
  | update containerID q => exact absurd rfl (hi containerID q)
  | _ =>
      cases o with
      | updateContainer => exact hagent
      | _ => trivial

/-- **Every request stays within its guard.** -/
theorem guarded_program (i : Request) : Ops (Guarded p i) (i.program p) := by
  have hharmless : ∀ {q : ServerProg Response}, Harmless q → Ops (Guarded p i) q :=
    fun hq => hq.mono fun o => guarded_of_harmless i
  cases i with
  | update containerID q =>
      refine (ops_handleUpdateContainer containerID q).mono fun o ho => ?_
      rcases ho with hplain | ⟨host, cfg, rfl, hself⟩
      · exact guarded_of_harmless _ hplain.harmless
      · exact ⟨rfl, hself⟩
  | scanStop => exact hharmless harmless_handleScanStop
  | remoteScans ctx remotes => exact hharmless (harmless_remoteScans ctx remotes)
  | selfUpdate containerID =>
      exact hharmless (harmless_of_plain (plain_handleSelfUpdate containerID))
  | scan server =>
      by_cases hagent : p.agentMode = true
      · exact hharmless (harmless_handleScan hagent server)
      · exact ops_of_forall (guarded_of_controller (by simpa using hagent) (by simp)) _
  | scheduledScan n =>
      by_cases hagent : p.agentMode = true
      · exact hharmless (harmless_runScheduledScan hagent _)
      · exact ops_of_forall (guarded_of_controller (by simpa using hagent) (by simp)) _

/-! ### The own container -/

/-- The container that the process runs in: the number of its daemon and its ID. -/
structure Own where
  host : ℕ
  id : String

/-- The own container is there. -/
def Own.There (own : Own) (s : Server) : Prop :=
  ∃ c ∈ (s.hosts own.host).daemon.containers, c.id = own.id

/-- No call asked to stop or to remove the own container. -/
def Own.Spared (own : Own) (s : Server) : Prop := own.id ∉ (s.hosts own.host).halted

/-- On the given daemon, `ref` stands for the own container. -/
def Own.IsMeant (own : Own) (s : Server) (host : ℕ) (ref : String) : Prop :=
  host = own.host ∧
    ∃ c, (s.hosts host).daemon.resolve (trimSpaceStr ref) = some c ∧ c.id = own.id

/-- The surroundings as long as the process lives, and so its container. -/
def Own.Surroundings (own : Own) (s t : Server) : Prop := s.Surroundings t ∧ own.There t

/-- The condition: an ID that a request asks to update, and that is not recognised, does not stand
for the own container, and an automatic update of a controller is not for the own container. -/
def Own.Avoided (own : Own) (p : Process) (s : Server) :
    PoolEvent Request ServerOp.Res → Prop
  | .op (.update containerID _) (.updateContainer host _ _) _ =>
      isSelfContainer p.lower p.selfContainerCandidates containerID = false →
        ¬ own.IsMeant s host containerID
  | .op _ (.updateContainer host ref _) _ => p.agentMode = false → ¬ own.IsMeant s host ref
  | _ => True

/-- The start of a thread changes no daemon. -/
theorem hosts_of_starts {i : Request} {s t : Server} (h : i.Starts s t) : t.hosts = s.hosts := by
  cases i with
  | remoteScans ctx remotes =>
      obtain ⟨front, back, -, rfl⟩ := h
      rfl
  | _ => rw [h]

/-- What a call to a daemon leaves of the own container. -/
theorem Own.setHost {own : Own} {s : Server} {host : ℕ} {client : Client}
    (hthere : own.There s) (hspared : own.Spared s)
    (h : host = own.host → Spares own.id (s.hosts host) client) :
    own.There (s.setHost host client) ∧ own.Spared (s.setHost host client) := by
  rw [Own.There, Own.Spared, Server.setHost_hosts]
  by_cases hhost : own.host = host
  · rw [← hhost] at h ⊢
    rw [Function.update_self]
    obtain ⟨c, hc, hid⟩ := hthere
    exact ⟨⟨c, (h rfl).kept c hc hid, hid⟩, fun hmem => hspared ((h rfl).halted hmem)⟩
  · rw [Function.update_of_ne hhost]
    exact ⟨hthere, hspared⟩

/-- An operation within the guard of its request, made under the condition, spares the own
container. -/
theorem Own.step {own : Own} {i : Request} {o : ServerOp} {r : o.Res} {s t : Server}
    (hthere : own.There s) (hspared : own.Spared s) (hguard : Guarded p i o)
    (havoided : own.Avoided p s (.op i o r)) (h : serverSem p o s r t) :
    own.There t ∧ own.Spared t := by
  cases o with
  | updateContainer host ref cfg =>
      have hmeant : ¬ own.IsMeant s host ref := by
        cases i with
        | update containerID q =>
            obtain ⟨rfl, hself⟩ := hguard
            exact havoided hself
        | _ => exact havoided hguard
      obtain ⟨-, rfl⟩ := h
      refine Own.setHost hthere hspared fun hhost => ?_
      refine updateContainer_spares (p.docker host) cfg false (hhost ▸ hthere) ?_
      intro c hc hid
      exact hmeant ⟨hhost, c, hc, hid⟩
  | triggerSelfUpdate containerID =>
      obtain ⟨-, rfl⟩ := h
      refine Own.setHost hthere hspared fun hhost => ?_
      exact triggerSelfUpdate_spares (p.docker p.watcher) containerID (hhost ▸ hthere)
  | _ =>
      have hhosts := hosts_of_serverSem (by simp) (by simp) h
      rw [Own.There, Own.Spared, hhosts]
      exact ⟨hthere, hspared⟩

/-- **The own container is spared.** In every run of the server, with requests, scheduled scans
and goroutines interleaved in any way, whose steps meet the condition, no call of the process
asks to stop or to remove the container it runs in, and that container stays. -/
theorem own_container_spared {own : Own} {s : Server} {es : List (PoolEvent Request ServerOp.Res)}
    {q : Pool Server Request ServerOp.Res Response} (hthere : own.There s)
    (hspared : own.Spared s)
    (hrun : Run (fun q e q' => Pool.Step (serverSem p) (Request.program p) Request.Starts
      own.Surroundings q e q' ∧ own.Avoided p q.state e) ⟨s, []⟩ es q) :
    own.There q.state ∧ own.Spared q.state := by
  refine Pool.run_invariant (I := fun s => own.There s ∧ own.Spared s) guarded_program ?_ ?_ ?_
    ⟨hthere, hspared⟩ hrun
  · rintro i s t ⟨hthere, hspared⟩ hstart
    rw [Own.There, Own.Spared, hosts_of_starts hstart]
    exact ⟨hthere, hspared⟩
  · rintro s t ⟨-, hspared⟩ ⟨⟨config, serverInfo, daemons, runs, rfl⟩, hthere⟩
    exact ⟨hthere, hspared⟩
  · rintro i o r s t ⟨hthere, hspared⟩ hguard havoided hsem
    exact Own.step hthere hspared hguard havoided hsem

end

/-! ### A request by name -/

/-- The request to update the container `web`, without query parameters. -/
def updateWeb : Request := .update "web" ⟨"", "", ""⟩

/-- A controller that knows these identifiers of its own container. -/
def knowing (candidates : List String) : Process :=
  { controller with selfContainerCandidates := candidates }

/-- The server once it has updated `web` on the local daemon. -/
def updatedFrom (daemons : ℕ → Daemon) : Server :=
  Server.setHost 0
    (updateContainerKeepState (webDocker 100) "web" dockerConfig ⟨daemons 0, 0, []⟩).2
    { Server.new dockerConfig ∅ .zero [] daemons with updateRunning := true }

/-- The request comes to update the container, whatever condition its steps are to meet. -/
theorem reaches_updatedFrom {C : Server → PoolEvent Request ServerOp.Res → Prop}
    {candidates : List String} (daemons : ℕ → Daemon)
    (hself : isSelfContainer .ascii candidates "web" = false)
    (hother : ∀ s o r, ServerOp.Harmless o → C s (.op updateWeb o r))
    (hupdate : ∀ r, C { Server.new dockerConfig ∅ .zero [] daemons with updateRunning := true }
      (.op updateWeb (.updateContainer 0 "web" dockerConfig) r)) :
    Reaches (fun o s r t => serverSem (knowing candidates) o s r t ∧ C s (.op updateWeb o r))
      (updateWeb.program (knowing candidates)) (Server.new dockerConfig ∅ .zero [] daemons)
      (updatedFrom daemons) := by
  have hoverride :
      UpdateQuery.override (knowing candidates) ⟨"", "", ""⟩ dockerConfig = dockerConfig := by
    rw [UpdateQuery.override, if_pos (by decide)]
  have htarget : UpdateQuery.target ⟨"", "", ""⟩ = (false, "") := by decide
  have hfind : findLocalServer id dockerConfig.localServers "docker" =
      some ⟨"docker", "/var/run/docker.sock", false⟩ := by decide
  change Reaches _ (handleUpdateContainer (knowing candidates) "web" ⟨"", "", ""⟩) _ _
  rw [handleUpdateContainer, if_neg (by decide)]
  refine Exec.reaches_bind (a := true)
    (t := { Server.new dockerConfig ∅ .zero [] daemons with updateRunning := true })
    (exec_perform.mpr ⟨⟨rfl, rfl⟩, hother _ _ _ trivial⟩) ?_
  rw [if_pos rfl]
  refine Reaches.bind _ ?_
  rw [handleUpdateRunning]
  refine Exec.reaches_bind (a := dockerConfig)
    (exec_perform.mpr ⟨⟨rfl, rfl⟩, hother _ _ _ trivial⟩) ?_
  dsimp only
  rw [hoverride, htarget, show serverOrOnly dockerConfig "" = some "docker" from rfl]
  dsimp only
  rw [show isSelfContainer (knowing candidates).lower (knowing candidates).selfContainerCandidates
      "web" = false from hself,
    if_neg Bool.false_ne_true, if_neg Bool.false_ne_true, handleUpdateLocal,
    show findLocalServer (knowing candidates).fold dockerConfig.localServers "docker" = _ from
      hfind]
  dsimp only
  rw [if_neg Bool.false_ne_true]
  exact Exec.reaches_bind (exec_perform.mpr ⟨⟨rfl, rfl⟩, hupdate _⟩) (Reaches.refl _ _)

/-- The ID of the own container, beside `web`. -/
def ownID : String := String.ofList (List.replicate 64 'c')

/-- A daemon with `web` and the container of the process. -/
def sharedDaemon : Daemon where
  containers := [webContainer [], { webContainer [] with id := ownID, name := "/contiwatch" }]
  nodup_id := by decide
  nodup_name := by decide
  named := by
    intro c hc
    rcases List.mem_cons.mp hc with rfl | hc
    · exact ⟨(by decide : webID ≠ ""), "web", by decide, rfl⟩
    · obtain rfl := List.mem_singleton.mp hc
      exact ⟨(by decide : ownID ≠ ""), "contiwatch", by decide, rfl⟩

/-- A request for another container of the same daemon spares the own one. -/
theorem own_container_spared_shared_daemon :
    (Own.mk 0 ownID).There (updatedFrom fun _ => sharedDaemon) ∧
      (Own.mk 0 ownID).Spared (updatedFrom fun _ => sharedDaemon) := by
  have hself : isSelfContainer .ascii [ownID] "web" = false := by decide
  have hresolve : (sharedDaemon.resolve (trimSpaceStr "web")).map (·.id) = some webID := by
    decide
  obtain ⟨es, threads, hrun⟩ : ∃ es threads, Run (fun q e q' => Pool.Step
      (serverSem (knowing [ownID])) (Request.program (knowing [ownID])) Request.Starts
      (Own.mk 0 ownID).Surroundings q e q' ∧ (Own.mk 0 ownID).Avoided (knowing [ownID]) q.state e)
      ⟨Server.new dockerConfig ∅ .zero [] fun _ => sharedDaemon, []⟩ es
      ⟨updatedFrom fun _ => sharedDaemon, threads⟩ := by
    refine Pool.run_reaches (i := updateWeb) rfl trivial
      (reaches_updatedFrom (fun _ => sharedDaemon) hself ?_ ?_)
    · intro s o r ho
      cases o with
      | updateContainer => exact ho.elim
      | _ => trivial
    · rintro r - ⟨-, c, hc, hid⟩
      have hweb : c.id = webID := Option.some.inj ((congrArg _ hc).symm.trans hresolve)
      exact absurd (hid.symm.trans hweb) (by decide)
  have hthere : (Own.mk 0 ownID).There (Server.new dockerConfig ∅ .zero [] fun _ => sharedDaemon) :=
    ⟨_, List.mem_cons_of_mem _ (List.mem_singleton_self _), rfl⟩
  have hspared :
      (Own.mk 0 ownID).Spared (Server.new dockerConfig ∅ .zero [] fun _ => sharedDaemon) :=
    List.not_mem_nil
  exact own_container_spared hthere hspared hrun

/-- A process may remove its own container: here a request to update it by its name does. -/
theorem own_container_can_be_removed :
    ¬ ∀ (p : Process) (own : Own) (config : Config) (serverInfo : GoMap String String)
      (lastScan : ScanResult) (lastScans : List ScanResult) (daemons : ℕ → Daemon)
      (es : List (PoolEvent Request ServerOp.Res))
      (q : Pool Server Request ServerOp.Res Response),
      own.There (Server.new config serverInfo lastScan lastScans daemons) →
      Run (Pool.Step (serverSem p) (Request.program p) Request.Starts own.Surroundings)
        ⟨Server.new config serverInfo lastScan lastScans daemons, []⟩ es q →
      own.Spared q.state := by
  intro h
  have hself : isSelfContainer .ascii [webID] "web" = false := by decide
  obtain ⟨es, threads, hrun⟩ : ∃ es threads, Run (fun q e q' => Pool.Step
      (serverSem (knowing [webID])) (Request.program (knowing [webID])) Request.Starts
      (Own.mk 0 webID).Surroundings q e q' ∧ True)
      ⟨startedServer, []⟩ es ⟨updatedFrom fun _ => webDaemon [], threads⟩ :=
    Pool.run_reaches (C := fun _ _ => True) (i := updateWeb) rfl trivial
      (reaches_updatedFrom (C := fun _ _ => True) _ hself (fun _ _ _ _ => trivial)
        fun _ => trivial)
  have hspared := h (knowing [webID]) ⟨0, webID⟩ dockerConfig ∅ .zero [] (fun _ => webDaemon [])
    es _ ⟨webContainer [], List.mem_singleton_self _, rfl⟩ (hrun.mono fun h => h.1)
  have hhalted : webID ∈ ((updatedFrom fun _ => webDaemon []).hosts 0).halted := by decide
  exact hspared hhalted

end Contiwatch
