import Cirrusync.Check
import Cirrusync.Daemon
import Cirrusync.Exchange
import Cirrusync.Lookup
import Cirrusync.ServedLookup
import Cirrusync.Effect.Pool
import Cirrusync.LockIdentity
import Cirrusync.LockProtocol
import Cirrusync.LockExclusion
import Cirrusync.Combinators
import Cirrusync.CycleRuns
import Cirrusync.Footprint
import Cirrusync.Published
import Cirrusync.CycleCount
import Cirrusync.Refusal
import Cirrusync.DriverRefusal
import Cirrusync.DaemonRuns
import Cirrusync.RefusalDelay
import Cirrusync.DaemonShutdown
import Cirrusync.DriverRules
import Cirrusync.ZoneResolution
import Cirrusync.CheckRules
import Cirrusync.DaemonRules
import Cirrusync.Vouching
import Cirrusync.Justified
import Cirrusync.SharedStore
import Cirrusync.StoreAgreement
import Cirrusync.StoreRules
import Cirrusync.AtMostOne
import Cirrusync.Scenario
import Cirrusync.CheckRuns
import Cirrusync.Punctual
import Cirrusync.EditProof
import Cirrusync.CheckMutations
import Cirrusync.CacheHealing
import Cirrusync.ProbeRace
import Cirrusync.ZoneScope
import Cirrusync.ZoneIsolation
import Cirrusync.Effect.Agreement
import Cirrusync.Effect.Script
import Cirrusync.Effect.Simulation
import Cirrusync.Installer.Shell
import Cirrusync.Installer.Stages
import Cirrusync.Installer.Cleanup
import Cirrusync.Installer.Frame
import Cirrusync.Installer.Machine
import Cirrusync.Installer.Interruption
import Cirrusync.FairShare
import Cirrusync.Rotation
import Cirrusync.Classification
import Cirrusync.FailureReports
import Cirrusync.StatusDelay
import Cirrusync.RootCause
import Cirrusync.Release.Pattern
import Cirrusync.Release.ShellText
import Cirrusync.Release.Version
import Cirrusync.Release.ReleaseOrder
import Cirrusync.Release.Upgrade
import Cirrusync.Release.Assignment
import Cirrusync.Release.ManifestScan
import Cirrusync.Release.VersionPolicy
import Cirrusync.Effect.Raising
import Cirrusync.Release.Bump
import Cirrusync.Release.Repository
import Cirrusync.Release.BumpRuns
import Cirrusync.Toml.Document
import Cirrusync.Pieces
import Cirrusync.ConfigFile
import Cirrusync.Toml.Reader
import Cirrusync.Configure.DnsNames
import Cirrusync.Configure.Settings
import Cirrusync.Configure.Acceptance
import Cirrusync.Configure.Agreement
import Cirrusync.Net.PublicAddress
import Cirrusync.Backoff
import Cirrusync.RemoteText
import Cirrusync.Redaction
import Cirrusync.Canonical
import Cirrusync.RecordGrammar
import Cirrusync.CanonicalChecks
import Cirrusync.ProviderText
import Cirrusync.Configure.Interval
import Cirrusync.Configure.RepositoryUrl
import Cirrusync.Sequence.Reconcile
import Cirrusync.FaithfulApi
import Cirrusync.FaithfulRuns
import Cirrusync.Convergence
import Cirrusync.CycleConvergence
import Cirrusync.Idempotence
import Cirrusync.CheckConvergence
import Cirrusync.Foretelling
import Cirrusync.CycleSequence
import Cirrusync.Effect.Refinement
import Cirrusync.Files.FileSystem
import Cirrusync.Files.System
import Cirrusync.Files.Triple
import Cirrusync.Files.Scope
import Cirrusync.Files.Knowledge
import Cirrusync.Files.Extension
import Cirrusync.Files.Faultless
import Cirrusync.Files.Beset
import Cirrusync.Files.Decision
import Cirrusync.LockFiles
import Cirrusync.LockPaths
import Cirrusync.LockFilesRuns
import Cirrusync.LockFilesAttempt
import Cirrusync.LockFilesOrder
import Cirrusync.LockFilesSteps
import Cirrusync.LockFilesTable
import Cirrusync.LockFilesExclusion
import Cirrusync.ConfigLoading
import Cirrusync.ConfigLoadingRuns
import Cirrusync.ConfigLoadingVerdict
import Cirrusync.StartupInputs
import Cirrusync.Git.Command
import Cirrusync.Release.GateHistory
