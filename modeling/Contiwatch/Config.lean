import Mathlib.Data.List.Basic

/-!
# Configuration

The configuration of `internal/config/config.go`, as far as scans and updates read it.
-/

namespace Contiwatch

/-- `RemoteServer`: an agent. -/
structure RemoteServer where
  name : String
  url : String
  token : String
  maintenance : Bool
  deriving DecidableEq, Repr

/-- `LocalServer`: a Docker daemon reached through a socket. -/
structure LocalServer where
  name : String
  socket : String
  maintenance : Bool
  deriving DecidableEq, Repr

/-- `Config`. -/
structure Config where
  globalPolicy : String
  updateStoppedContainers : Bool
  pruneDanglingImages : Bool
  localServers : List LocalServer
  remoteServers : List RemoteServer
  deriving DecidableEq, Repr

/-- `PolicyUpdate`. -/
def policyUpdate : String := "update"

/-- `PolicyNotifyOnly`. -/
def policyNotifyOnly : String := "notify_only"

/-- `PolicySkip`. -/
def policySkip : String := "skip"

end Contiwatch
