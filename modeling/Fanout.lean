import Fanout.Backend.Apply
import Fanout.Backend.Basic
import Fanout.Backend.Kind
import Fanout.Backend.Rules
import Fanout.Base64
import Fanout.CommandLine.Failure
import Fanout.CommandLine.Operand
import Fanout.CommandLine.Run
import Fanout.Config.Fields
import Fanout.Config.Load
import Fanout.Config.OfToml
import Fanout.Config.OfYaml
import Fanout.Config.Settings
import Fanout.Error
import Fanout.Fault
import Fanout.Function.Basic
import Fanout.Function.Builtin
import Fanout.Function.Diagnostic
import Fanout.Json.Read
import Fanout.Json.Value
import Fanout.Logging
import Fanout.Main
import Fanout.MessagePack.Marker
import Fanout.MessagePack.Read
import Fanout.MessagePack.Schema
import Fanout.MessagePack.Write
import Fanout.Mismatch
import Fanout.Number.Binary64
import Fanout.Number.Decimal
import Fanout.Number.Literal
import Fanout.OrderedMap
import Fanout.Partition
import Fanout.Payload
import Fanout.Proofs.Backend.Agreement
import Fanout.Proofs.Backend.ChunkSize
import Fanout.Proofs.Backend.Integrity
import Fanout.Proofs.Backend.Plan
import Fanout.Proofs.Backend.Rules
import Fanout.Proofs.Backend.Transfer
import Fanout.Proofs.Base64
import Fanout.Proofs.Base64.Canonical
import Fanout.Proofs.CommandLine.SquareSum
import Fanout.Proofs.Config.Fields
import Fanout.Proofs.Config.WorkerCount
import Fanout.Proofs.Function.Transfer
import Fanout.Proofs.Json.Compact
import Fanout.Proofs.Json.Grammar
import Fanout.Proofs.Json.Settled
import Fanout.Proofs.Json.Token
import Fanout.Proofs.MessagePack.Exact
import Fanout.Proofs.MessagePack.Head
import Fanout.Proofs.MessagePack.Lossless
import Fanout.Proofs.Partition
import Fanout.Proofs.Partition.Balance
import Fanout.Proofs.Partition.ChunkSize
import Fanout.Proofs.Partition.Cut
import Fanout.Proofs.Partition.Groups
import Fanout.Proofs.Payload
import Fanout.Proofs.Registry.Invocation
import Fanout.Proofs.Registry.Naming
import Fanout.Proofs.Schedule.Blame
import Fanout.Proofs.Schedule.Calm
import Fanout.Proofs.Schedule.Cancelled
import Fanout.Proofs.Schedule.Completion
import Fanout.Proofs.Schedule.Conduct
import Fanout.Proofs.Schedule.Course
import Fanout.Proofs.Schedule.Crew
import Fanout.Proofs.Schedule.Custody
import Fanout.Proofs.Schedule.Delivery
import Fanout.Proofs.Schedule.Dispatch
import Fanout.Proofs.Schedule.FailFast
import Fanout.Proofs.Schedule.Failure
import Fanout.Proofs.Schedule.InTurn
import Fanout.Proofs.Schedule.Independence
import Fanout.Proofs.Schedule.Life
import Fanout.Proofs.Schedule.Lifecycle
import Fanout.Proofs.Schedule.Nearness
import Fanout.Proofs.Schedule.Occurrence
import Fanout.Proofs.Schedule.Overrun
import Fanout.Proofs.Schedule.Placement
import Fanout.Proofs.Schedule.Progress
import Fanout.Proofs.Schedule.SingleDriver
import Fanout.Proofs.Schedule.Solo
import Fanout.Proofs.Schedule.Step
import Fanout.Proofs.TaskGraph
import Fanout.Proofs.Text
import Fanout.Proofs.Traversal
import Fanout.Proofs.Worker.Conformance
import Fanout.Proofs.Worker.Conversation
import Fanout.Proofs.Worker.Framing
import Fanout.Proofs.Worker.Input
import Fanout.Proofs.Worker.Line
import Fanout.Proofs.Worker.Link
import Fanout.Proofs.Worker.Members
import Fanout.Proofs.Worker.Serving
import Fanout.Proofs.Yaml.Value
import Fanout.Registry
import Fanout.Report
import Fanout.Schedule.Crew
import Fanout.Schedule.Driver
import Fanout.Schedule.Evaluate
import Fanout.Schedule.InProcess
import Fanout.Schedule.State
import Fanout.TaskGraph
import Fanout.Text.Characters
import Fanout.Text.Utf8
import Fanout.Toml.Document
import Fanout.Toml.Moment
import Fanout.Toml.Scalar
import Fanout.Toml.Value
import Fanout.Worker.Line
import Fanout.Worker.Link
import Fanout.Worker.Message
import Fanout.Worker.Peer
import Fanout.Worker.Serve
import Fanout.Yaml.Cursor
import Fanout.Yaml.Node
import Fanout.Yaml.Scalar
import Fanout.Yaml.Token
import Fanout.Yaml.Value
