import Contiwatch.Config
import Contiwatch.Docker
import Contiwatch.ContainerUpdate

/-!
# Scan Results and Scan States

The records that a scan leaves in the server: `ContainerStatus` and `ScanResult` of
`internal/dockerwatcher/watcher.go`, and `scanState` of `internal/server/server.go`, with the
functions that read and change them. A time is a reading of the clock, and `0` the zero time.

## Main results

* `lookup_resetScanStates` — after a reset exactly the configured servers are idle.
-/

namespace Contiwatch

open GoStrings

/-! ### Scan results -/

/-- `ContainerStatus`. -/
structure ContainerStatus where
  id : String
  name : String
  image : String
  imageID : String
  newImageID : String
  running : Bool
  paused : Bool
  self : Bool
  policy : String
  updateAvailable : Bool
  updated : Bool
  lastChecked : ℕ
  error : String
  deriving DecidableEq, Repr

/-- `ScanResult`. -/
structure ScanResult where
  serverName : String
  serverURL : String
  isLocal : Bool
  checkedAt : ℕ
  containers : List ContainerStatus
  error : String
  scanState : String
  scanStartedAt : Option ℕ
  scanFinishedAt : Option ℕ
  deriving DecidableEq, Repr

/-- `ScanResult{}`. -/
def ScanResult.zero : ScanResult := ⟨"", "", false, 0, [], "", "", none, none⟩

/-- The result of a server without containers. -/
def ScanResult.bare (serverName serverURL : String) (isLocal : Bool) (checkedAt : ℕ)
    (error : String) : ScanResult :=
  { ScanResult.zero with
    serverName := serverName, serverURL := serverURL, isLocal := isLocal,
    checkedAt := checkedAt, error := error }

/-- The containers that an automatic update is for. -/
def updateTargets (containers : List ContainerStatus) : List ContainerStatus :=
  containers.filter fun c => c.updateAvailable && c.policy = policyUpdate &&
    (c.error = "" || hasPrefix c.error "skipped:")

/-- Change the first container with the ID `containerID`. -/
def changeContainer (f : ContainerStatus → ContainerStatus) (containerID : String) :
    List ContainerStatus → List ContainerStatus
  | [] => []
  | c :: cs => if c.id = containerID then f c :: cs else c :: changeContainer f containerID cs

/-- `updateScanContainerStatus`: the status after an update that reported `updated`. -/
def updateScanContainerStatus (updated : Bool) (now : ℕ) (c : ContainerStatus) :
    ContainerStatus :=
  { c with
    lastChecked := now
    error := ""
    updated := updated
    updateAvailable := if updated then false else c.updateAvailable }

/-- `updateScanResultContainer`. -/
def updateScanResultContainer (result : ScanResult) (containerID : String) (updated : Bool)
    (now : ℕ) : ScanResult :=
  { result with
    containers := changeContainer (updateScanContainerStatus updated now) containerID
      result.containers }

/-- `markScanResultUpdateError`. -/
def markScanResultUpdateError (result : ScanResult) (containerID err : String) (now : ℕ) :
    ScanResult :=
  { result with
    containers := changeContainer
      (fun c => { c with error := "update failed: " ++ err, lastChecked := now }) containerID
      result.containers }

/-- `findLocalScan`. -/
def findLocalScan (fold : Char → Char) (scans : List ScanResult) (name : String) :
    Option ScanResult :=
  scans.find? fun scan => scan.isLocal && equalFold fold scan.serverName name

/-! ### Scan states -/

/-- The texts of `scanState.State`. -/
inductive ScanPhase where
  | idle
  | pending
  | scanning
  | updating
  | done
  | cancelled
  | error
  deriving DecidableEq, Repr

/-- The text of a state. -/
def ScanPhase.text : ScanPhase → String
  | .idle => "idle"
  | .pending => "pending"
  | .scanning => "scanning"
  | .updating => "updating"
  | .done => "done"
  | .cancelled => "cancelled"
  | .error => "error"

/-- `scanState`. -/
structure ScanState where
  state : ScanPhase
  startedAt : ℕ
  finishedAt : ℕ
  deriving DecidableEq, Repr

/-- `scanState{State: scanStateIdle}`. -/
def ScanState.idle : ScanState := ⟨.idle, 0, 0⟩

/-- A server that is waiting for a scan, being scanned or being updated. -/
def ScanState.active (s : ScanState) : Bool :=
  s.state = .pending || s.state = .scanning || s.state = .updating

/-- The change that `setScanStateKey` makes to a state. -/
def ScanState.enter (current : ScanState) (state : ScanPhase) (now : ℕ) : ScanState :=
  match state with
  | .pending | .scanning | .updating => ⟨state, now, 0⟩
  | .done | .cancelled | .error =>
      ⟨state, if current.startedAt = 0 then now else current.startedAt, now⟩
  | .idle => ⟨.idle, 0, 0⟩

/-- `scanKey`. -/
def scanKey (isLocal : Bool) (name : String) : String :=
  let name := if trimSpaceStr name = "" then "unknown" else name
  if isLocal then "local:" ++ name else "remote:" ++ name

/-- The keys of the configured servers, as `resetScanStates` visits them. -/
def Config.scanKeys (cfg : Config) : List String :=
  cfg.localServers.map (fun l => scanKey true l.name) ++
    cfg.remoteServers.map fun r => scanKey false r.name

/-- `resetScanStates`. -/
def resetScanStates (cfg : Config) (m : GoMap String ScanState) : GoMap String ScanState :=
  cfg.scanKeys.foldl (fun m k => m.insert k .idle) m

/-- `setScanStateKey`. A key without a state gets one. -/
def setScanStateKey (key : String) (state : ScanPhase) (now : ℕ) (m : GoMap String ScanState) :
    GoMap String ScanState :=
  m.insert key (((m.lookup key).getD .idle).enter state now)

/-- `cancelActiveScanStates`. -/
def cancelActiveScanStates (now : ℕ) (m : GoMap String ScanState) : GoMap String ScanState :=
  GoMap.mapValues (fun s => if s.active then s.enter .cancelled now else s) m

/-- A reset makes its keys idle and leaves the others. -/
theorem lookup_resetKeys (keys : List String) (m : GoMap String ScanState) (k : String) :
    (keys.foldl (fun m k => m.insert k .idle) m).lookup k =
      if k ∈ keys then some .idle else m.lookup k := by
  induction keys generalizing m with
  | nil => rw [List.foldl_nil, if_neg List.not_mem_nil]
  | cons key keys ih =>
      rw [List.foldl_cons, ih]
      by_cases hk : k = key
      · rw [hk, Finmap.lookup_insert]
        simp
      · rw [Finmap.lookup_insert_of_ne _ hk]
        simp only [List.mem_cons, hk, false_or]

/-- **A reset makes the configured servers idle** and leaves the others as they were. -/
theorem lookup_resetScanStates (cfg : Config) (m : GoMap String ScanState) (k : String) :
    (resetScanStates cfg m).lookup k = if k ∈ cfg.scanKeys then some .idle else m.lookup k :=
  lookup_resetKeys cfg.scanKeys m k

/-- A server that is marked enters the state. -/
theorem lookup_setScanStateKey_self (key : String) (state : ScanPhase) (now : ℕ)
    (m : GoMap String ScanState) : (setScanStateKey key state now m).lookup key =
      some (((m.lookup key).getD .idle).enter state now) :=
  Finmap.lookup_insert m

/-- The others stay as they were. -/
theorem lookup_setScanStateKey_of_ne {key k : String} (h : k ≠ key) (state : ScanPhase)
    (now : ℕ) (m : GoMap String ScanState) :
    (setScanStateKey key state now m).lookup k = m.lookup k :=
  Finmap.lookup_insert_of_ne m h

/-- No time of the state is later than `clock`. -/
def ScanState.Before (clock : ℕ) (s : ScanState) : Prop :=
  s.startedAt ≤ clock ∧ s.finishedAt ≤ clock

/-- An idle state is of no time after the clock's. -/
theorem ScanState.idle_before (clock : ℕ) : ScanState.idle.Before clock :=
  ⟨Nat.zero_le _, Nat.zero_le _⟩

/-- Nor is one entered now. -/
theorem ScanState.Before.enter {s : ScanState} {clock now : ℕ} (h : s.Before clock)
    (state : ScanPhase) : (s.enter state now).Before (max clock now) := by
  obtain ⟨hstarted, hfinished⟩ := h
  cases state with
  | idle => exact idle_before _
  | pending => exact ⟨le_max_right _ _, Nat.zero_le _⟩
  | scanning => exact ⟨le_max_right _ _, Nat.zero_le _⟩
  | updating => exact ⟨le_max_right _ _, Nat.zero_le _⟩
  | done =>
      refine ⟨?_, le_max_right _ _⟩
      simp only [ScanState.enter]
      split_ifs <;> omega
  | cancelled =>
      refine ⟨?_, le_max_right _ _⟩
      simp only [ScanState.enter]
      split_ifs <;> omega
  | error =>
      refine ⟨?_, le_max_right _ _⟩
      simp only [ScanState.enter]
      split_ifs <;> omega

end Contiwatch
