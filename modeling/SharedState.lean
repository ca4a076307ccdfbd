import SharedState.Http.Service
import SharedState.LogFilter
import SharedState.Main
import SharedState.Proofs.Store.Change
import SharedState.Proofs.World.Marked
import SharedState.Proofs.Store.Sound
import SharedState.Proofs.World.Operation
import SharedState.Proofs.Store.Plan
import SharedState.Proofs.Store.Batch
import SharedState.Proofs.World.Exchange
import SharedState.Proofs.World.History
import SharedState.Proofs.World.Accounting
import SharedState.Proofs.World.Admission
import SharedState.Proofs.World.Application
import SharedState.Proofs.Store.Observer
import SharedState.Proofs.World.Convergence
import SharedState.Proofs.Base64
import SharedState.Proofs.Number.Exact
import SharedState.Proofs.Store.Restore
import SharedState.Proofs.World.Restoration
import SharedState.Proofs.World.Elements
import SharedState.Proofs.Http.Loop
import SharedState.Proofs.Http.Poll
import SharedState.Proofs.Store.Shown
import SharedState.Proofs.World.Delivery
import SharedState.Proofs.Document.Written
import SharedState.Proofs.Store.Emission
import SharedState.Proofs.World.Emission
import SharedState.Proofs.Http.Visible
import SharedState.Proofs.Store.Write
import SharedState.Proofs.World.Interleaving
import SharedState.Proofs.World.Description
import SharedState.Proofs.Json.Accepted
import SharedState.Proofs.Schema.Accepted
import SharedState.Proofs.Schema.Restriction
import SharedState.Proofs.Document.Accepted
import SharedState.Proofs.Except
import SharedState.Proofs.Value.Unreadable
import SharedState.Proofs.Store.Offence
import SharedState.Proofs.Http.Submission
import SharedState.Proofs.Store.Refusal
import SharedState.Proofs.World.Trace
import SharedState.Proofs.World.Nesting
import SharedState.Proofs.Waiting
import SharedState.Proofs.World.Course
import SharedState.Proofs.World.Mirror
import SharedState.Proofs.Text.ByteOrder
import SharedState.Proofs.Store.Delta
import SharedState.Proofs.World.Delta
import SharedState.Proofs.World.Creation
import SharedState.Proofs.World.Policy
import SharedState.Proofs.World.Shapes
import SharedState.Proofs.World.Metering
import SharedState.Proofs.Http.Metering
import SharedState.Proofs.Duration
import SharedState.Proofs.Settings.Sources
import SharedState.Proofs.CommandLine
