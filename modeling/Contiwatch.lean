import Contiwatch.ClientIP
import Contiwatch.ComposeEnv
import Contiwatch.Config
import Contiwatch.ConfigHandlers
import Contiwatch.ConfigRestart
import Contiwatch.ConfigStore
import Contiwatch.ContainerResources
import Contiwatch.ContainerUpdate
import Contiwatch.Docker
import Contiwatch.EnvContent
import Contiwatch.EnvDiagnostics
import Contiwatch.ExtendedDeadlines
import Contiwatch.KeptSecrets
import Contiwatch.LastScans
import Contiwatch.Lib.Cron
import Contiwatch.Lib.Dotted
import Contiwatch.Lib.EventLoop
import Contiwatch.Lib.Files
import Contiwatch.Lib.Forall2
import Contiwatch.Lib.GoJson
import Contiwatch.Lib.GoMap
import Contiwatch.Lib.GoStrings
import Contiwatch.Lib.GoText
import Contiwatch.Lib.GoTime
import Contiwatch.Lib.Js
import Contiwatch.Lib.JsonText
import Contiwatch.Lib.Keyed
import Contiwatch.Lib.Netip
import Contiwatch.Lib.Phases
import Contiwatch.Lib.Prog
import Contiwatch.Lib.Runs
import Contiwatch.Lib.ServeMux
import Contiwatch.Lib.Slots
import Contiwatch.Lib.SortSlice
import Contiwatch.Lib.TokenBucket
import Contiwatch.Lib.Unicode
import Contiwatch.ListRefreshes
import Contiwatch.LogFrames
import Contiwatch.OwnContainer
import Contiwatch.PinAttempts
import Contiwatch.PinRace
import Contiwatch.PinRate
import Contiwatch.PinSessionRuns
import Contiwatch.PinSessions
import Contiwatch.PinStreams
import Contiwatch.PinTickets
import Contiwatch.PinVerify
import Contiwatch.PolicySync
import Contiwatch.RecordFolds
import Contiwatch.ReleaseCheck
import Contiwatch.ReleaseRefreshes
import Contiwatch.Releases
import Contiwatch.RemoteDeadlines
import Contiwatch.RemoteJobRuns
import Contiwatch.RemoteJobs
import Contiwatch.RowScopes
import Contiwatch.ScanHandlers
import Contiwatch.ScanOps
import Contiwatch.ScanPhases
import Contiwatch.ScanRefusal
import Contiwatch.ScanResults
import Contiwatch.ScanServer
import Contiwatch.ScanStateFile
import Contiwatch.ScanStates
import Contiwatch.ScanStop
import Contiwatch.ScheduleChecks
import Contiwatch.Scheduler
import Contiwatch.SchedulerLoops
import Contiwatch.SchedulerStatus
import Contiwatch.SchedulerTicks
import Contiwatch.SelfUpdate
import Contiwatch.ServerAddresses
import Contiwatch.ServerInfo
import Contiwatch.ServerInfoRuns
import Contiwatch.ServerNames
import Contiwatch.SettingsForm
import Contiwatch.StackActions
import Contiwatch.StackExclusion
import Contiwatch.StackFiles
import Contiwatch.StackJobRuns
import Contiwatch.StackJobs
import Contiwatch.StackLimits
import Contiwatch.StackModal
import Contiwatch.Stacks
import Contiwatch.StoredConfig
import Contiwatch.UpdateOutcome
import Contiwatch.UpdateRecords
import Contiwatch.VersionOrder
import Contiwatch.Workspace
import Contiwatch.ContainerSessions
import Contiwatch.AgentBody
import Contiwatch.BasicPlans
import Contiwatch.ContainerIDs
import Contiwatch.ContainerScan
import Contiwatch.LegacyMigration
import Contiwatch.LogWrites
import Contiwatch.RefreshCalls
import Contiwatch.ServerSnapshots
import Contiwatch.ServerUrls
import Contiwatch.StatusCounts
import Contiwatch.SessionServers
import Contiwatch.ComposeOutput
import Contiwatch.ImageRefs
import Contiwatch.LogLines
import Contiwatch.RequestGate
import Contiwatch.StreamProxy
import Contiwatch.ScopedRequests
import Contiwatch.EventStream
import Contiwatch.ResourcesCache
import Contiwatch.SchedulerPreview
import Contiwatch.StatusPage
import Contiwatch.ComposeRuns
import Contiwatch.AgentRuns
