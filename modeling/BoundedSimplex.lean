import BoundedSimplex.Solver.Report
import BoundedSimplex.Solver.Choice
import BoundedSimplex.Shader.Module
import BoundedSimplex.Proofs.Exchange
import BoundedSimplex.Proofs.Outcome
import BoundedSimplex.Proofs.Bijection
import BoundedSimplex.Proofs.Board
import BoundedSimplex.Proofs.Follows
import BoundedSimplex.Proofs.Sequential
import BoundedSimplex.Proofs.Building
import BoundedSimplex.Proofs.Equations
import BoundedSimplex.Proofs.Infeasible
import BoundedSimplex.Proofs.Termination
import BoundedSimplex.Proofs.Requests
import BoundedSimplex.Proofs.Wiring
import BoundedSimplex.Proofs.Scans
import BoundedSimplex.Proofs.Cells
import BoundedSimplex.Proofs.Sums
import BoundedSimplex.Proofs.Resident
import BoundedSimplex.Proofs.LaunchLog
import BoundedSimplex.Proofs.Launches
import BoundedSimplex.Proofs.Parallel
import BoundedSimplex.Proofs.Creation
import BoundedSimplex.Proofs.Editing
import BoundedSimplex.Proofs.Resting
import BoundedSimplex.Proofs.Satisfiable
import BoundedSimplex.Proofs.Alike
import BoundedSimplex.Proofs.Reports
import BoundedSimplex.Proofs.Questions
import BoundedSimplex.Proofs.Sessions
import BoundedSimplex.Proofs.Parity
import BoundedSimplex.Proofs.Bookkeeping
import BoundedSimplex.Proofs.Regularity
import BoundedSimplex.Proofs.Leftovers
import BoundedSimplex.Proofs.Moments
import BoundedSimplex.Proofs.Nonbasic
import BoundedSimplex.Proofs.Keeping
import BoundedSimplex.Proofs.Limits
import BoundedSimplex.Proofs.Refusals
import BoundedSimplex.Proofs.Calm
import BoundedSimplex.Proofs.Footprint
import BoundedSimplex.Proofs.Recorded
import BoundedSimplex.Proofs.Steps
import BoundedSimplex.Proofs.Ownership
import BoundedSimplex.Proofs.Settings
import BoundedSimplex.Proofs.Sharing
import BoundedSimplex.Proofs.Chunks
import BoundedSimplex.Proofs.Consistent
import BoundedSimplex.Proofs.Padding
import BoundedSimplex.Proofs.Capacity
import BoundedSimplex.Proofs.ByteStore
import BoundedSimplex.Proofs.Stores
import BoundedSimplex.Proofs.Pivots
import BoundedSimplex.Proofs.Looking
import BoundedSimplex.Proofs.Frozen
import BoundedSimplex.Proofs.Increment
import BoundedSimplex.Proofs.Folding
import BoundedSimplex.Proofs.SumTree
import BoundedSimplex.Proofs.Orders
import BoundedSimplex.Proofs.LowestIndex
import BoundedSimplex.Proofs.Transactions
import BoundedSimplex.Proofs.Unguarded
import BoundedSimplex.Proofs.Places
import BoundedSimplex.Proofs.Involution
import BoundedSimplex.Proofs.Schedules
import BoundedSimplex.Proofs.Transfers
import BoundedSimplex.Proofs.PartialEdits
import BoundedSimplex.Proofs.CommutingEdits
import BoundedSimplex.Proofs.AcceptedRows
import BoundedSimplex.Proofs.CallOrder
import BoundedSimplex.Proofs.RowOrder
import BoundedSimplex.Proofs.PartialSums
import BoundedSimplex.Proofs.Chronicle
import BoundedSimplex.Proofs.LaunchSizes
