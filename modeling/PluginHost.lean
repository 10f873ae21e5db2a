import PluginHost.Capability.Basic
import PluginHost.Capability.Grant
import PluginHost.Capability.Policy
import PluginHost.CommandLine.Basic
import PluginHost.CommandLine.Reach
import PluginHost.CommandLine.Reader
import PluginHost.CommandLine.Run
import PluginHost.Config.Basic
import PluginHost.Config.Loader
import PluginHost.Config.Printer
import PluginHost.Config.Problem
import PluginHost.Config.Reader
import PluginHost.Core
import PluginHost.Crypto.Ed25519
import PluginHost.Crypto.Sha512
import PluginHost.Decimal.Shortest
import PluginHost.Environment
import PluginHost.Error
import PluginHost.Event.Basic
import PluginHost.Event.Bus
import PluginHost.Event.Document
import PluginHost.Files.Basic
import PluginHost.Files.Fault
import PluginHost.Files.Node
import PluginHost.Files.Path
import PluginHost.Files.Resolve
import PluginHost.Files.Walk
import PluginHost.FirstRun
import PluginHost.Host.LogLine
import PluginHost.Host.Service
import PluginHost.Host.World
import PluginHost.Json.Basic
import PluginHost.Json.Canonical
import PluginHost.Json.Cursor
import PluginHost.Json.Error
import PluginHost.Json.Literal
import PluginHost.Json.Printer
import PluginHost.Json.Reader
import PluginHost.Json.StringLiteral
import PluginHost.Main
import PluginHost.Manager.Basic
import PluginHost.Manager.Load
import PluginHost.Manager.Native
import PluginHost.Manager.Release
import PluginHost.Manager.Run
import PluginHost.Manifest.Basic
import PluginHost.Manifest.Printer
import PluginHost.Manifest.Reader
import PluginHost.Manifest.Sidecar
import PluginHost.Plugin.Basic
import PluginHost.Plugin.Hook
import PluginHost.Plugin.Table
import PluginHost.PluginId
import PluginHost.Program.Basic
import PluginHost.Program.Shell
import PluginHost.Program.Shell.Command
import PluginHost.Program.Shell.Script
import PluginHost.Proofs.Capability.Ceiling
import PluginHost.Proofs.Capability.Mask
import PluginHost.Proofs.Capability.Names
import PluginHost.Proofs.Capability.Requests
import PluginHost.Proofs.CommandLine.Checking
import PluginHost.Proofs.Config.Loading
import PluginHost.Proofs.Config.RoundTrip
import PluginHost.Proofs.Core.Cycle
import PluginHost.Proofs.Core.Feedback
import PluginHost.Proofs.Core.Marker
import PluginHost.Proofs.Core.Pump
import PluginHost.Proofs.Core.Routing
import PluginHost.Proofs.Core.Start
import PluginHost.Proofs.Decimal.Shortest
import PluginHost.Proofs.Event.Ledger
import PluginHost.Proofs.Event.Log
import PluginHost.Proofs.Event.Reading
import PluginHost.Proofs.Event.RoundTrip
import PluginHost.Proofs.Files.Candidates
import PluginHost.Proofs.Files.Entries
import PluginHost.Proofs.Files.Path
import PluginHost.Proofs.Files.Removal
import PluginHost.Proofs.Host.Bindings
import PluginHost.Proofs.Host.Services
import PluginHost.Proofs.Json.Accepted
import PluginHost.Proofs.Json.Canonical
import PluginHost.Proofs.Json.Cursor
import PluginHost.Proofs.Json.Grammar
import PluginHost.Proofs.Json.Meaning
import PluginHost.Proofs.Json.Members
import PluginHost.Proofs.Json.NumberText
import PluginHost.Proofs.Json.Numeral
import PluginHost.Proofs.Json.Reading
import PluginHost.Proofs.Json.Skipping
import PluginHost.Proofs.Json.StringContent
import PluginHost.Proofs.Json.Tight
import PluginHost.Proofs.Json.Writing
import PluginHost.Proofs.Manifest.Problems
import PluginHost.Proofs.Manifest.RoundTrip
import PluginHost.Proofs.Manifest.Signed
import PluginHost.Proofs.Manifest.Value
import PluginHost.Proofs.Plugin.Answers
import PluginHost.Proofs.Plugin.Crossing
import PluginHost.Proofs.Plugin.Identity
import PluginHost.Proofs.Plugin.Voice
import PluginHost.Proofs.PluginId
import PluginHost.Proofs.PluginId.Pattern
import PluginHost.Proofs.Result
import PluginHost.Proofs.Session.Actions
import PluginHost.Proofs.Session.Basic
import PluginHost.Proofs.Session.Delivery
import PluginHost.Proofs.Session.Discovery
import PluginHost.Proofs.Session.Dispatch
import PluginHost.Proofs.Session.Failure
import PluginHost.Proofs.Session.Lifecycle
import PluginHost.Proofs.Session.Load
import PluginHost.Proofs.Session.Observer
import PluginHost.Proofs.Session.Origin
import PluginHost.Proofs.Session.Phase
import PluginHost.Proofs.Session.Privilege
import PluginHost.Proofs.Session.Representation
import PluginHost.Proofs.Session.Roll
import PluginHost.Proofs.Session.Step
import PluginHost.Proofs.Session.Teardown
import PluginHost.Proofs.Session.Trusted
import PluginHost.Proofs.Signature.Layout
import PluginHost.Proofs.Signature.Verdict
import PluginHost.Proofs.Text.Base64
import PluginHost.Proofs.Text.Bytes
import PluginHost.Proofs.Text.Digits
import PluginHost.Proofs.Text.Split
import PluginHost.Proofs.Text.Utf16
import PluginHost.Proofs.Text.Utf8
import PluginHost.Proofs.Time.Epoch
import PluginHost.Proofs.Time.RoundTrip
import PluginHost.Proofs.Toml.Documents
import PluginHost.Proofs.Toml.Order
import PluginHost.Proofs.Toml.Strings
import PluginHost.Proofs.Toml.Tables
import PluginHost.Proofs.Toml.Values
import PluginHost.Proofs.Trust.Decision
import PluginHost.Proofs.Trust.Entry
import PluginHost.Proofs.Trust.Gate
import PluginHost.Proofs.Trust.Interference
import PluginHost.Proofs.Trust.Sidecars
import PluginHost.Proofs.Version
import PluginHost.Signature.Basic
import PluginHost.Signature.Verifier
import PluginHost.Text.Ascii
import PluginHost.Text.Base64
import PluginHost.Text.Blank
import PluginHost.Text.Quoted
import PluginHost.Text.Split
import PluginHost.Text.Terminated
import PluginHost.Text.Unseen
import PluginHost.Text.Utf8
import PluginHost.Time.Epoch
import PluginHost.Time.Instant
import PluginHost.Time.Printer
import PluginHost.Time.Reader
import PluginHost.Toml.Basic
import PluginHost.Toml.Literal
import PluginHost.Toml.Reader
import PluginHost.Toml.Scalar
import PluginHost.Toml.Style
import PluginHost.Toml.Tree
import PluginHost.Toml.Writer
import PluginHost.Trust.Gate
import PluginHost.Version
