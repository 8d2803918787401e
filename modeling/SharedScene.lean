import SharedScene.Text
import SharedScene.Text.Alphanumeric
import SharedScene.SortedMap
import SharedScene.Decimal.Shortest
import SharedScene.Json.Basic
import SharedScene.Json.Printer
import SharedScene.Json.Reader
import SharedScene.Json.Decode
import SharedScene.Identifier
import SharedScene.Name
import SharedScene.Path
import SharedScene.Value.Basic
import SharedScene.Value.Codec
import SharedScene.Scene.Forest
import SharedScene.Scene.Instance
import SharedScene.Scene.Error
import SharedScene.Scene.Change
import SharedScene.Scene.Store
import SharedScene.Scene.Resync
import SharedScene.InPlace
import SharedScene.Scene.Arena
import SharedScene.Scene.Arena.Store
import SharedScene.Scene.Arena.Resync
import SharedScene.Scene.Codec
import SharedScene.Instant
import SharedScene.Moment
import SharedScene.Lease
import SharedScene.ReplayCache
import SharedScene.Run.Status
import SharedScene.Run.Policy
import SharedScene.Run.Scheduler
import SharedScene.Run.Codec
import SharedScene.Command.Basic
import SharedScene.Command.Conflict
import SharedScene.Command.Execute
import SharedScene.Command.Request
import SharedScene.Command.Pipeline
import SharedScene.Failure
import SharedScene.View.Snapshot
import SharedScene.View.Schema
import SharedScene.Decimal.Nearest
import SharedScene.Decimal.Reader
import SharedScene.Config.Basic
import SharedScene.Config.Environment
import SharedScene.Toml.Table
import SharedScene.Toml.Reader
import SharedScene.Toml.Printer
import SharedScene.Config.Document
import SharedScene.Config.Load
import SharedScene.Engine.Basic
import SharedScene.Engine.Requests
import SharedScene.Engine.Runs
import SharedScene.Session.Request
import SharedScene.Session.Replay
import SharedScene.Pattern.Basic
import SharedScene.Pattern.Brackets
import SharedScene.Pattern.Grammar
import SharedScene.LogFilter
import SharedScene.Program.Arguments
import SharedScene.Program.Help
import SharedScene.Program.Run
import SharedScene.Main
import SharedScene.Proofs.SortedMap
import SharedScene.Proofs.Success
import SharedScene.Proofs.Json.Layout
import SharedScene.Proofs.Value.Agreement
import SharedScene.Proofs.Value.NotANumber
import SharedScene.Proofs.Value.Codec
import SharedScene.Proofs.Name.Free
import SharedScene.Proofs.Name.Valid
import SharedScene.Proofs.Name.Numbered
import SharedScene.Proofs.LastElements
import SharedScene.Proofs.Lease
import SharedScene.Proofs.Lease.Ledger
import SharedScene.Proofs.Scene.Table
import SharedScene.Proofs.Scene.WellFormed
import SharedScene.Proofs.Scene.Rows
import SharedScene.Proofs.Scene.Lookup
import SharedScene.Proofs.Scene.Edit
import SharedScene.Proofs.Scene.Observer
import SharedScene.Proofs.Scene.Outbox
import SharedScene.Proofs.Scene.Records
import SharedScene.Proofs.Scene.Children
import SharedScene.Proofs.Scene.SameTree
import SharedScene.Proofs.Scene.ItemMap
import SharedScene.Proofs.Scene.Delivery.Literal
import SharedScene.Proofs.Scene.Delivery.Assignment
import SharedScene.Proofs.Scene.Applied
import SharedScene.Proofs.Scene.Frame
import SharedScene.Proofs.Scene.Resync.Target
import SharedScene.Proofs.Scene.Resync.Survival
import SharedScene.Proofs.Scene.Resync.Moves
import SharedScene.Proofs.Scene.Resync.Deletes
import SharedScene.Proofs.Scene.Resync.Creates
import SharedScene.Proofs.Scene.Resync.Updates
import SharedScene.Proofs.Scene.Resync.Plan
import SharedScene.Proofs.Scene.Reachable
import SharedScene.Proofs.Scene.History
import SharedScene.Proofs.Scene.Subtree
import SharedScene.Proofs.Scene.Recorded
import SharedScene.Proofs.Scene.Names
import SharedScene.Proofs.Scene.Resync.Plain
import SharedScene.Proofs.Scene.Resync.Idle
import SharedScene.Proofs.Scene.Resync.Growth
import SharedScene.Proofs.Scene.Resync.Kept
import SharedScene.Proofs.Scene.Resync.Economy
import SharedScene.Proofs.Scene.Resync.Grounded
import SharedScene.Proofs.Scene.Resync.Siblings
import SharedScene.Proofs.Scene.Resync.Stack
import SharedScene.Proofs.Scene.Resync.Build
import SharedScene.Proofs.Scene.Arena.Stores
import SharedScene.Proofs.Scene.Arena.Walk
import SharedScene.Proofs.Scene.Arena.Edit
import SharedScene.Proofs.Scene.Arena.Store
import SharedScene.Proofs.Scene.Arena.Build
import SharedScene.Proofs.Scene.Arena.Plan
import SharedScene.Proofs.Scene.Arena.Resync
import SharedScene.Proofs.Scene.Arena.Consistent
import SharedScene.Proofs.Scene.Arena.Reachable
import SharedScene.Proofs.Scene.Arena.Subtree
import SharedScene.Proofs.Scene.Arena.Applied
import SharedScene.Proofs.View.Seed
import SharedScene.Proofs.View.Schema
import SharedScene.Proofs.Scene.Codec
import SharedScene.Proofs.Scene.Delivery.Coalescing
import SharedScene.Proofs.Scene.Delivery.Waiting
import SharedScene.Proofs.Command.Pipeline
import SharedScene.Proofs.Command.Transaction
import SharedScene.Proofs.Command.Turn
import SharedScene.Proofs.Command.Congruence
import SharedScene.Proofs.Command.Frame
import SharedScene.Proofs.Command.Shape
import SharedScene.Proofs.Command.Footprint
import SharedScene.Proofs.Command.Leases
import SharedScene.Proofs.Command.Codec
import SharedScene.Proofs.Engine.Run
import SharedScene.Proofs.Engine.Transaction
import SharedScene.Proofs.Run.Scheduler
import SharedScene.Proofs.Run.InPlace
import SharedScene.Proofs.Run.Lifecycle
import SharedScene.Proofs.Run.Outcome
import SharedScene.Proofs.Run.Dates
import SharedScene.Proofs.Run.Turn
import SharedScene.Proofs.Run.Queue
import SharedScene.Proofs.Engine.Dispatch
import SharedScene.Proofs.Engine.Undisturbed
import SharedScene.Proofs.Engine.Revision
import SharedScene.Proofs.Engine.Turn
import SharedScene.Proofs.Engine.Lease
import SharedScene.Proofs.Engine.Exclusion
import SharedScene.Proofs.Engine.Singly
import SharedScene.Proofs.Config.Layers
import SharedScene.Proofs.ReplayCache
import SharedScene.Proofs.ReplayCache.History
import SharedScene.Proofs.ReplayCache.Outline
import SharedScene.Proofs.Engine.Replay
import SharedScene.Proofs.Engine.Unkeyed
