import Logosctl.Library.Program
import Logosctl.Library.Transition
import Logosctl.Ledger
import Logosctl.PackageOps.Running
import Logosctl.PackageOps.Replies
import Logosctl.PackageOps.Upgrade
import Logosctl.PackageOps.Removal
import Logosctl.PackageOps.Planned
import Logosctl.PackageOps.Pins
import Logosctl.PackageOps.Gates
import Logosctl.Session.Ownership
import Logosctl.Session.Detach
import Logosctl.Library.Cascade
import Logosctl.TokenStore
import Logosctl.TokenStore.Calls
import Logosctl.TokenStore.Semantics
import Logosctl.TokenStore.Interleaving
import Logosctl.TokenStore.Authority
import Logosctl.CoreService
import Logosctl.PackageBootstrap
import Logosctl.SignaturePolicy
import Logosctl.Boot
import Logosctl.Watch
import Logosctl.PackageCommand
import Logosctl.Library.Polling
import Logosctl.DaemonState
import Logosctl.Shutdown
import Logosctl.YamlJson.Dump
import Logosctl.DaemonConfig.Write
import Logosctl.Legacy
import Logosctl.Transport
import Logosctl.DaemonState.Publish
import Logosctl.ConfigCommand
import Logosctl.ClientArtifacts
import Logosctl.StaleSession
import Logosctl.Library.Inodes
import Logosctl.Library.Paths
import Logosctl.TokenStore.Publishing
import Logosctl.TokenStore.OnDisk
import Logosctl.TokenStore.Faults
import Logosctl.TokenStore.Reading
import Logosctl.SchemaVersion
import Logosctl.DaemonState.KeyMaterial
import Logosctl.DaemonConfig.Schema
import Logosctl.CallEnvelope
import Logosctl.CallEnvelope.Overloads
import Logosctl.CoreService.Unloading
import Logosctl.PackageOps.RemovalOrder
import Logosctl.ConfigCommand.Installed
import Logosctl.LegacyClient
import Logosctl.PackageOps.Idempotent
import Logosctl.PackageOps.Reported
import Logosctl.Library.ArgumentRules
import Logosctl.Library.Pairs
import Logosctl.CommandLine
import Logosctl.CommandLine.Quoting
import Logosctl.CommandLine.Options
import Logosctl.CommandLine.Detach
import Logosctl.Legacy.ModuleTransport
import Logosctl.Library.Decimal
import Logosctl.Time.Stamp
import Logosctl.Time.Windows
import Logosctl.Time.Gmtime
import Logosctl.IssueTokenCommand
import Logosctl.TokenStore.Modes
import Logosctl.Library.Lines
import Logosctl.WebChannel
import Logosctl.Webhost
import Logosctl.LogSink
import Logosctl.LogSink.Prune
import Logosctl.LogSink.Retention
import Logosctl.ArgCoerce
import Logosctl.AtomicWrite
import Logosctl.ClientArtifacts.Exposure
import Logosctl.ClientState.Persist
import Logosctl.Library.Base64
import Logosctl.TokenStore.Generate
import Logosctl.ArgCoerce.Scanner
import Logosctl.Library.Descriptors
import Logosctl.LogSink.Start
import Logosctl.PackageOps.Download
import Logosctl.Library.InternetAddress
import Logosctl.PortAllocator
import Logosctl.ClientArtifacts.Dial
import Logosctl.WebChannel.Threads
import Logosctl.WebhostView
import Logosctl.WebhostView.Spawn
import Logosctl.LogSink.Stop
import Logosctl.CoreService.Dispatch
import Logosctl.CoreService.Queries
import Logosctl.Commands
import Logosctl.PackageCommand.Consent
import Logosctl.CallCommand
import Logosctl.CommandLine.Client
