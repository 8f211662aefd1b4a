import Contiwatch.ScanHandlers

/-!
# The Operations of the Handlers

Which atomic operations the parts of scans and updates can make. Most of them only ask: the
clock, the configuration, a Docker daemon or an agent. These are the plain operations; the
others change what scans and requests share, or a container.

## Main results

* `ops_handleUpdateContainer` — a request to update a container makes plain operations, and
  `UpdateContainer` for that container only, if it is not recognised as the own one.
-/

namespace Contiwatch

open Prog

/-- An operation that touches neither the containers in the process nor what scans share. -/
def ServerOp.Plain : ServerOp → Prop
  | .resetScanStates _ | .setScanStateKey .. | .cancelActiveScanStates _ => False
  | .newContext | .cancel _ | .ctxErr _ | .setScanCancel _ | .scanActive => False
  | .beginScan | .endScan | .addRemoteScanRunning _ | .goRemoteScans .. => False
  | .setLastScans _ | .updateLastScans _ | .updateContainer .. => False
  | _ => True

/-- The programs that only ask. -/
abbrev Plain {α : Type} (q : ServerProg α) : Prop := Ops ServerOp.Plain q

section

variable {p : Process} {lower : GoStrings.Lowering}

/-- A program of one operation uses that one. -/
theorem ops_perform {G : ServerOp → Prop} {o : ServerOp} (h : G o) : Ops G (perform o) :=
  ops_call h

/-- The scan of a local server is plain. -/
theorem plain_scanLocalServer (cfg : Config) (srv : LocalServer) :
    Plain (scanLocalServer p cfg srv) := by
  rw [scanLocalServer]
  split
  · exact ops_pure _
  · refine (ops_perform trivial).bind fun result => ?_
    rcases result with err | result
    · exact ops_pure _
    · exact ops_pure _

/-- So is the request of an update to an agent. -/
theorem plain_askUpdate (remote : RemoteServer) (containerID : String)
    (selfUpdate prune : Bool) : Plain (askUpdate remote containerID selfUpdate prune) := by
  rw [askUpdate]
  split_ifs
  · exact ops_perform trivial
  · exact ops_perform trivial

/-- So is the scan of an agent. -/
theorem plain_scanRemoteServer (remote : RemoteServer) : Plain (scanRemoteServer remote) := by
  rw [scanRemoteServer]
  split_ifs
  · exact ops_pure _
  · refine (ops_perform trivial).bind fun result => ?_
    rcases result with err | result
    · exact ops_pure _
    · exact ops_pure _

/-! ### Automatic updates -/

/-- What the loop of `autoUpdateLocal` does: it asks, and updates on its daemon. -/
def ServerOp.OfLocalUpdate (ctx : ScanContext) (host : ℕ) (o : ServerOp) : Prop :=
  o.Plain ∨ o = .ctxErr ctx ∨ ∃ containerID cfg, o = .updateContainer host containerID cfg

/-- The local updates use the host's operations. -/
theorem ops_autoUpdateLoop (ctx : ScanContext) (cfg : Config) (host : ℕ)
    (targets : List ContainerStatus) (result : ScanResult) (updatedCount : ℕ) :
    Ops (ServerOp.OfLocalUpdate ctx host)
      (autoUpdateLoop ctx cfg host targets result updatedCount) := by
  induction targets generalizing result updatedCount with
  | nil => exact ops_pure _
  | cons target targets ih =>
      rw [autoUpdateLoop]
      refine (ops_perform (Or.inr (Or.inl rfl))).bind fun cancelled => ?_
      split_ifs
      · exact ops_pure _
      refine (ops_perform (Or.inr (Or.inr ⟨_, _, rfl⟩))).bind fun updateResult => ?_
      rcases updateResult with err | updateResult
      · exact ih _ _
      · exact (ops_perform (Or.inl trivial)).bind fun now => ih _ _

/-- What the loop of `autoUpdateRemote` does: it asks. -/
def ServerOp.OfRemoteUpdate (ctx : ScanContext) (o : ServerOp) : Prop :=
  o.Plain ∨ o = .ctxErr ctx

/-- The remote updates use the requests to the agent. -/
theorem ops_autoUpdateRemoteLoop (ctx : ScanContext) (cfg : Config) (remote : RemoteServer)
    (targets : List ContainerStatus) (result : ScanResult) (updatedCount : ℕ) :
    Ops (ServerOp.OfRemoteUpdate ctx)
      (autoUpdateRemoteLoop lower ctx cfg remote targets result updatedCount) := by
  induction targets generalizing result updatedCount with
  | nil => exact ops_pure _
  | cons target targets ih =>
      rw [autoUpdateRemoteLoop]
      refine (ops_perform (Or.inr rfl)).bind fun cancelled => ?_
      split_ifs
      · exact ops_pure _
      refine ((plain_askUpdate ..).mono fun o => Or.inl).bind fun reply => ?_
      split
      · exact (ops_perform (Or.inl trivial)).bind fun now => ih _ _
      · split
        · refine (ops_perform (Or.inl trivial)).bind fun refreshed => ?_
          rcases refreshed with err | refreshed
          · exact ops_pure _
          · exact ih _ _
        · exact (ops_perform (Or.inl trivial)).bind fun now => ih _ _

/-! ### Requests to update -/

/-- The update of an agent's container is plain here. -/
theorem plain_handleUpdateRemote (cfg : Config) (serverName containerID : String)
    (selfUpdate : Bool) :
    Plain (handleUpdateRemote p cfg serverName containerID selfUpdate) := by
  rw [handleUpdateRemote]
  rcases findRemoteServer p.fold cfg.remoteServers serverName with _ | remote
  · exact ops_pure _
  dsimp only
  by_cases hmaintenance : remote.maintenance = true
  · rw [if_pos hmaintenance]
    exact ops_pure _
  rw [if_neg hmaintenance]
  refine (plain_askUpdate ..).bind fun reply => ?_
  split
  · exact ops_pure _
  · refine (ops_perform trivial).bind fun now => ?_
    exact (ops_perform trivial).bind fun _ => ops_pure _

/-- So is a routed update of the own container. -/
theorem plain_handleUpdateSelf (containerID : String) :
    Plain (handleUpdateSelf p containerID) := by
  rw [handleUpdateSelf]
  split_ifs
  · refine (ops_perform trivial).bind fun result => ?_
    rcases result with err | ok
    · exact ops_pure _
    · exact ops_pure _
  · exact ops_pure _

/-- So is one asked for as such. -/
theorem plain_handleSelfUpdate (containerID : String) :
    Plain (handleSelfUpdate p containerID) := by
  rw [handleSelfUpdate]
  refine Ops.ite (fun _ => ops_pure _) fun _ => ?_
  refine Ops.ite (fun _ => ops_pure _) fun _ => ?_
  refine Ops.ite (fun _ => ops_pure _) fun _ => ?_
  refine (ops_perform trivial).bind fun begun => ?_
  refine Ops.ite (fun _ => ?_) fun _ => ops_pure _
  refine (ops_perform trivial).bind fun result => ?_
  refine (ops_perform trivial).bind fun _ => ?_
  rcases result with err | ok
  · exact ops_pure _
  · exact ops_pure _

/-- What a request to update a container does: it asks, and updates that container, unless
it is recognised as the own one. -/
def ServerOp.OfUpdate (p : Process) (containerID : String) (o : ServerOp) : Prop :=
  o.Plain ∨ ∃ host cfg, o = .updateContainer host containerID cfg ∧
    isSelfContainer p.lower p.selfContainerCandidates containerID = false

/-- A local update that is not recognised as the own container's uses the host's operations. -/
theorem ops_handleUpdateLocal {cfg : Config} {serverName containerID : String}
    (hself : isSelfContainer p.lower p.selfContainerCandidates containerID = false) :
    Ops (ServerOp.OfUpdate p containerID)
      (handleUpdateLocal p cfg serverName containerID) := by
  rw [handleUpdateLocal]
  split
  · exact ops_pure _
  split_ifs
  · exact ops_pure _
  split
  · exact ops_pure _
  refine (ops_perform (Or.inr ⟨_, _, rfl, hself⟩)).bind fun result => ?_
  rcases result with err | result
  · exact ops_pure _
  · refine (ops_perform (Or.inl trivial)).bind fun now => ?_
    exact (ops_perform (Or.inl trivial)).bind fun _ => ops_pure _

/-- **The operations of a request to update a container.** -/
theorem ops_handleUpdateContainer (containerID : String) (q : UpdateQuery) :
    Ops (ServerOp.OfUpdate p containerID) (handleUpdateContainer p containerID q) := by
  rw [handleUpdateContainer]
  refine Ops.ite (fun _ => ops_pure _) fun _ => ?_
  refine (ops_perform (Or.inl trivial)).bind fun begun => ?_
  refine Ops.ite (fun _ => ?_) fun _ => ops_pure _
  refine Ops.bind ?_ fun response => (ops_perform (Or.inl trivial)).bind fun _ => ops_pure _
  refine (ops_perform (Or.inl trivial)).bind fun cfg => ?_
  dsimp only
  split
  · exact ops_pure _
  refine Ops.ite (fun _ => ?_) fun hself => Ops.ite (fun _ => ?_) fun _ => ?_
  · exact (plain_handleUpdateSelf containerID).mono fun o => Or.inl
  · exact (plain_handleUpdateRemote ..).mono fun o => Or.inl
  · exact ops_handleUpdateLocal (Bool.eq_false_of_not_eq_true hself)

end

end Contiwatch
