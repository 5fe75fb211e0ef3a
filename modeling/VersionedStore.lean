import VersionedStore.Binary64
import VersionedStore.Binary64.Shortest
import VersionedStore.Config
import VersionedStore.Config.File
import VersionedStore.Diagnostic
import VersionedStore.Envelope
import VersionedStore.Files.Atomic
import VersionedStore.Files.Path
import VersionedStore.Files.Tree
import VersionedStore.Gateway
import VersionedStore.Json.Input
import VersionedStore.Json.Printer
import VersionedStore.Json.ReadError
import VersionedStore.Json.Reader
import VersionedStore.Json.Scanner
import VersionedStore.Json.Value
import VersionedStore.Main
import VersionedStore.Markers.Basic
import VersionedStore.Markers.File
import VersionedStore.Migration.Basic
import VersionedStore.Migration.Chain
import VersionedStore.Migration.FirstVisit
import VersionedStore.Migration.Run
import VersionedStore.Part
import VersionedStore.Proofs.Binary64.Decimal
import VersionedStore.Proofs.Binary64.Rounding
import VersionedStore.Proofs.Binary64.Shortest
import VersionedStore.Proofs.Files.Atomic
import VersionedStore.Proofs.Files.Directories
import VersionedStore.Proofs.Files.Frame
import VersionedStore.Proofs.Files.NewDirectories
import VersionedStore.Proofs.Files.Places
import VersionedStore.Proofs.Files.Writing
import VersionedStore.Proofs.Gateway.Calls
import VersionedStore.Proofs.Gateway.File
import VersionedStore.Proofs.Gateway.Memory
import VersionedStore.Proofs.Gateway.Operations
import VersionedStore.Proofs.Gateway.Reports
import VersionedStore.Proofs.Gateway.Request
import VersionedStore.Proofs.History
import VersionedStore.Proofs.Installation.Basic
import VersionedStore.Proofs.Installation.CorruptionGate
import VersionedStore.Proofs.Installation.DataLoss
import VersionedStore.Proofs.Installation.Register
import VersionedStore.Proofs.Installation.Replacement
import VersionedStore.Proofs.Json.Accepted
import VersionedStore.Proofs.Json.Doubles
import VersionedStore.Proofs.Json.Numbers
import VersionedStore.Proofs.Json.Reading
import VersionedStore.Proofs.Json.RoundTrip
import VersionedStore.Proofs.Json.Strings
import VersionedStore.Proofs.Json.Values
import VersionedStore.Proofs.Markers.File
import VersionedStore.Proofs.Migration.FirstFault
import VersionedStore.Proofs.Migration.Pending
import VersionedStore.Proofs.Migration.Policies
import VersionedStore.Proofs.Migration.Registration
import VersionedStore.Proofs.Migration.Runs
import VersionedStore.Proofs.Migration.Shipped
import VersionedStore.Proofs.Migration.UpgradePath
import VersionedStore.Proofs.Migration.Visits
import VersionedStore.Proofs.Ports
import VersionedStore.Proofs.Session.Consent
import VersionedStore.Proofs.Session.Launches
import VersionedStore.Proofs.Session.MarkerKeys
import VersionedStore.Proofs.Session.Operations
import VersionedStore.Proofs.Session.Recovery
import VersionedStore.Proofs.Session.Request
import VersionedStore.Proofs.Session.Stamp
import VersionedStore.Proofs.Session.Succession
import VersionedStore.Proofs.Session.Version
import VersionedStore.Proofs.Storage.Envelopes
import VersionedStore.Proofs.Storage.File
import VersionedStore.Proofs.Storage.Simulation
import VersionedStore.Proofs.Tool.DryRun
import VersionedStore.Proofs.Tool.Migrate
import VersionedStore.Proofs.Users.Basic
import VersionedStore.Proofs.Users.Existence
import VersionedStore.Session
import VersionedStore.Storage.Basic
import VersionedStore.Storage.File
import VersionedStore.Storage.Memory
import VersionedStore.StoreError
import VersionedStore.Table
import VersionedStore.Text.Blank
import VersionedStore.Text.Quoted
import VersionedStore.Text.Unprintable
import VersionedStore.Text.Utf8
import VersionedStore.Tool.Command
import VersionedStore.Tool.Run
import VersionedStore.Proofs.Migration.Unchanged
import VersionedStore.Proofs.Session.WriteBack
import VersionedStore.Proofs.Json.Paths
import VersionedStore.Proofs.Migration.FirstVisit
import VersionedStore.Proofs.Gateway.Effects
import VersionedStore.Proofs.Session.Refusals
import VersionedStore.Proofs.Files.Names
import VersionedStore.Proofs.Files.AllOrNothing
import VersionedStore.Proofs.Files.FailedWriting
import VersionedStore.Proofs.Storage.AllOrNothing
import VersionedStore.Proofs.Markers.Confinement
import VersionedStore.Proofs.Gateway.LastRead
import VersionedStore.Proofs.Tool.SameStore
import VersionedStore.Proofs.Json.Grammar
import VersionedStore.Proofs.Json.Skipping
import VersionedStore.Proofs.Json.Outcomes
import VersionedStore.Proofs.Config.Fields
import VersionedStore.Proofs.Config.Members
