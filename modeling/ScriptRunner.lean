import ScriptRunner.Channel.Command
import ScriptRunner.Channel.Envelope
import ScriptRunner.Channel.Exchange
import ScriptRunner.Channel.Failure
import ScriptRunner.Channel.Frame
import ScriptRunner.Channel.Handoff
import ScriptRunner.Channel.Service
import ScriptRunner.CommandLine.Grammar
import ScriptRunner.CommandLine.Host
import ScriptRunner.CommandLine.Invocation
import ScriptRunner.CommandLine.Program
import ScriptRunner.CommandLine.Usage
import ScriptRunner.Config.Loading
import ScriptRunner.Config.Logging
import ScriptRunner.Config.Settings
import ScriptRunner.Config.Validation
import ScriptRunner.Dict
import ScriptRunner.Document.Basic
import ScriptRunner.Document.Decoder
import ScriptRunner.Document.Failure
import ScriptRunner.Engine.Bytecode
import ScriptRunner.Files
import ScriptRunner.Http.Message
import ScriptRunner.Http.Status
import ScriptRunner.Json.Format
import ScriptRunner.Json.Numeral
import ScriptRunner.Json.Printer
import ScriptRunner.Json.Reader
import ScriptRunner.Json.Value
import ScriptRunner.Main
import ScriptRunner.Number.Binary64
import ScriptRunner.Number.Decimal
import ScriptRunner.Number.FixedWidth
import ScriptRunner.Script.Binding
import ScriptRunner.Script.Compilation
import ScriptRunner.Script.Definition
import ScriptRunner.Script.Identifier
import ScriptRunner.Script.Program
import ScriptRunner.Script.Registry
import ScriptRunner.Script.Titles
import ScriptRunner.Supervisor.Basic
import ScriptRunner.Supervisor.Failure
import ScriptRunner.Supervisor.Observers
import ScriptRunner.Supervisor.Packages
import ScriptRunner.Supervisor.Ports
import ScriptRunner.Supervisor.Preparation
import ScriptRunner.Supervisor.Processes
import ScriptRunner.Supervisor.State
import ScriptRunner.Supervisor.Traces
import ScriptRunner.Task.Header
import ScriptRunner.Task.Record
import ScriptRunner.Task.Run
import ScriptRunner.Task.Status
import ScriptRunner.Text.Base64
import ScriptRunner.Text.Blank
import ScriptRunner.Text.Line
import ScriptRunner.Text.Printable
import ScriptRunner.Text.Quoted
import ScriptRunner.Text.Utf8
import ScriptRunner.Time
import ScriptRunner.Web.ChildRoutes
import ScriptRunner.Web.Failure
import ScriptRunner.Web.SupervisorRoutes
import ScriptRunner.Yaml.Cursor
import ScriptRunner.Yaml.Format
import ScriptRunner.Yaml.Printer
import ScriptRunner.Yaml.Reader
import ScriptRunner.Yaml.ScalarText
import ScriptRunner.Yaml.Token
import ScriptRunner.Proofs.Supervisor.Pool
import ScriptRunner.Proofs.Supervisor.Interleaving
import ScriptRunner.Proofs.Supervisor.Ledger
import ScriptRunner.Proofs.Supervisor.Ownership
import ScriptRunner.Proofs.Supervisor.Lifecycle
import ScriptRunner.Proofs.Script.Filling
import ScriptRunner.Proofs.Script.Binding
import ScriptRunner.Proofs.Script.Resolution
import ScriptRunner.Proofs.Script.Linking
import ScriptRunner.Proofs.Script.Signatures
import ScriptRunner.Proofs.Script.Nesting
import ScriptRunner.Proofs.Supervisor.Answers
import ScriptRunner.Proofs.Supervisor.Capacity
import ScriptRunner.Proofs.Supervisor.Withdrawal
import ScriptRunner.Proofs.Json.Numerals
import ScriptRunner.Proofs.Text.Encoding
import ScriptRunner.Proofs.Document.Outcomes
import ScriptRunner.Proofs.Document.Records
import ScriptRunner.Proofs.Json.Printed
import ScriptRunner.Proofs.Json.Stored
import ScriptRunner.Proofs.Text.Timestamps
import ScriptRunner.Proofs.Json.Typed
import ScriptRunner.Proofs.Channel.Frames
import ScriptRunner.Proofs.Channel.Handoff
import ScriptRunner.Proofs.Channel.Commands
import ScriptRunner.Proofs.Supervisor.Addressing
import ScriptRunner.Proofs.Script.Callees
import ScriptRunner.Proofs.Script.Sharing
import ScriptRunner.Proofs.Script.Scoping
import ScriptRunner.Proofs.Text.Cuts
import ScriptRunner.Proofs.Json.Locality
import ScriptRunner.Proofs.Document.Wholeness
import ScriptRunner.Proofs.Channel.Damage
import ScriptRunner.Proofs.Channel.Fidelity
import ScriptRunner.Proofs.Supervisor.Effects
import ScriptRunner.Proofs.Supervisor.Untraced
import ScriptRunner.Proofs.Supervisor.Mailboxes
import ScriptRunner.Proofs.Supervisor.Deliveries
import ScriptRunner.Proofs.Script.Faults
import ScriptRunner.Proofs.Supervisor.LateRemovals
import ScriptRunner.Proofs.Supervisor.Subscriptions
import ScriptRunner.Proofs.Number.FixedWidth
import ScriptRunner.Proofs.Json.Laws
import ScriptRunner.Proofs.Channel.WireFormats
import ScriptRunner.Proofs.Script.Pruning
import ScriptRunner.Proofs.Config.Validation
import ScriptRunner.Proofs.Supervisor.PoolRuns
import ScriptRunner.Proofs.Supervisor.LaunchHeaders
import ScriptRunner.Proofs.Config.PortRange
import ScriptRunner.Proofs.Number.Magnitude
import ScriptRunner.Proofs.Script.NumberLiterals
import ScriptRunner.Proofs.Supervisor.PortSet
import ScriptRunner.Proofs.Files
import ScriptRunner.Proofs.Script.Titles
import ScriptRunner.Proofs.Text.Lines
import ScriptRunner.Proofs.Json.Joined
import ScriptRunner.Proofs.Supervisor.TraceFiles
import ScriptRunner.Proofs.Config.Precedence
import ScriptRunner.Proofs.Script.Layout
import ScriptRunner.Proofs.Script.TemplateLiterals
import ScriptRunner.Proofs.Script.CallLines
import ScriptRunner.Proofs.Script.Parameters
import ScriptRunner.Proofs.Script.RawSources
import ScriptRunner.Proofs.Channel.Pairing
import ScriptRunner.Proofs.Paths
import ScriptRunner.Proofs.Supervisor.PackageStarts
import ScriptRunner.Proofs.Supervisor.Handshakes
import ScriptRunner.Proofs.Dict
import ScriptRunner.Proofs.Text.ByteOrder
import ScriptRunner.Proofs.Script.Directories
import ScriptRunner.Proofs.Script.Extension
import ScriptRunner.Proofs.Number.Overflow
import ScriptRunner.Proofs.Script.BoundValues
