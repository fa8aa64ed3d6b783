import Autotune.Block.Report
import Autotune.Blueprint.Codec
import Autotune.Blueprint.Resolve
import Autotune.Cluster.Control
import Autotune.Document.Reader
import Autotune.Document.Settings
import Autotune.Proofs.Block.Builder
import Autotune.Proofs.Block.Loop
import Autotune.Proofs.Block.Operations
import Autotune.Proofs.Block.Refused
import Autotune.Proofs.Block.Registry
import Autotune.Proofs.Block.Run
import Autotune.Proofs.Block.Sound
import Autotune.Proofs.Cluster.Agreement
import Autotune.Proofs.Cluster.Refused
import Autotune.Proofs.Cluster.Run
import Autotune.Proofs.Cluster.Sound
import Autotune.Proofs.Knowledge.Table
import Autotune.Proofs.Knowledge.Update
import Autotune.Proofs.Number.Order
import Autotune.Proofs.Operation
import Autotune.Proofs.Rank.Order
import Autotune.Proofs.Refusal
import Autotune.Proofs.Roster
import Autotune.Proofs.State.Reset
import Autotune.Proofs.State.Selection
import Autotune.Proofs.State.Validate
import Autotune.Proofs.Block.Queue
import Autotune.Proofs.Number.Decimal
import Autotune.Proofs.Number.Text
import Autotune.Proofs.Point.Key
import Autotune.Proofs.Cluster.Directory
import Autotune.Proofs.Cluster.Running
import Autotune.Proofs.Feedback.Samples
import Autotune.Proofs.State.Votes
import Autotune.Proofs.State.Streak
import Autotune.Proofs.Block.Uncorrected
import Autotune.Proofs.Block.Ranks
import Autotune.Proofs.Block.Switch
import Autotune.Proofs.Number.Line
import Autotune.Proofs.Number.Arithmetic
import Autotune.Proofs.Cluster.Distance
import Autotune.Proofs.Cluster.Contest
import Autotune.Proofs.Cluster.Closest
import Autotune.Proofs.Cluster.Circle
import Autotune.Proofs.Cluster.HandOver
import Autotune.Proofs.Block.Tally
import Autotune.Proofs.Cluster.Ranks
import Autotune.Proofs.Number.Finite
import Autotune.Proofs.Document.Carried
import Autotune.Proofs.Document.Forms
import Autotune.Proofs.Document.Settings
import Autotune.Proofs.Document.Blueprint
import Autotune.Proofs.Document.Distribution
import Autotune.Proofs.Document.Returns
import Autotune.Proofs.State.Undefined
import Autotune.Proofs.Feedback.Window
import Autotune.Proofs.Block.Update
import Autotune.Proofs.Number.Product
import Autotune.Proofs.State.Powers
import Autotune.Proofs.Knowledge.Batches
import Autotune.Proofs.Point.Identity
import Autotune.Proofs.Knowledge.Identity
import Autotune.Proofs.Blueprint.Resolve
import Autotune.Proofs.Block.Refusals
import Autotune.Proofs.Blueprint.Build
import Autotune.Proofs.Block.Wiring
import Autotune.Proofs.Block.Constrained
import Autotune.Proofs.Blueprint.Watch
import Autotune.Proofs.Monitor.Record
import Autotune.Proofs.Number.Rounding
import Autotune.Proofs.Number.Value
import Autotune.Proofs.Number.Mean
import Autotune.Proofs.Feedback.Restore
import Autotune.Proofs.Feedback.Prediction
import Autotune.Proofs.Rank.Reorder
import Autotune.Proofs.State.Reorder
import Autotune.Proofs.Blueprint.Reorder
import Autotune.Proofs.Rank.Total
import Autotune.Proofs.State.Unread
import Autotune.Proofs.Feedback.Visits
import Autotune.Proofs.Block.Visits
import Autotune.Proofs.Number.Zero
import Autotune.Proofs.Rank.Spread
