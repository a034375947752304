import TaskLease.Main
import TaskLease.Simulation.Setup
import TaskLease.Proofs.Text.Numerals
import TaskLease.Proofs.Time.Calendar
import TaskLease.Proofs.Time.InstantOrder
import TaskLease.Proofs.Time.TimestampText
import TaskLease.Proofs.Json.FlatObject
import TaskLease.Proofs.Store.RecordText
import TaskLease.Proofs.Lease.Effect
import TaskLease.Proofs.Lease.Store
import TaskLease.Proofs.Number.WholeNumbers
import TaskLease.Proofs.Store.FileName
import TaskLease.Proofs.Lease.HashStore
import TaskLease.Proofs.Lease.RecordStores
import TaskLease.Proofs.Lease.Tenure
import TaskLease.Proofs.Provider.Race
import TaskLease.Proofs.Provider.RaceOutcome
import TaskLease.Proofs.Provider.Acquisition
import TaskLease.Proofs.Provider.LeaseSteps
import TaskLease.Proofs.Provider.Reference
import TaskLease.Proofs.Provider.Holding
import TaskLease.Proofs.Provider.Tracking
import TaskLease.Proofs.Provider.Envelope
import TaskLease.Proofs.Provider.Traffic
import TaskLease.Proofs.Provider.Recovery
import TaskLease.Proofs.Provider.StaleHandles
import TaskLease.Proofs.Lease.HashMirror
import TaskLease.Proofs.Lease.ShardedStore
import TaskLease.Proofs.Provider.Calls
import TaskLease.Proofs.Provider.FailClosed
import TaskLease.Proofs.Provider.HandleLife
import TaskLease.Proofs.Provider.Independence
import TaskLease.Proofs.Provider.Vigil
import TaskLease.Proofs.Provider.KeepAlive
import TaskLease.Proofs.Provider.GrantedLease
import TaskLease.Proofs.Provider.MinimumHold
import TaskLease.Proofs.Task.Job
import TaskLease.Proofs.Task.Scope
import TaskLease.Proofs.Task.Guard
import TaskLease.Proofs.Provider.CacheClearing
import TaskLease.Proofs.Provider.Desk
import TaskLease.Proofs.Provider.TrackedLocks
import TaskLease.Proofs.Provider.TrackedRenewals
import TaskLease.Proofs.Lease.LastWrite
import TaskLease.Proofs.Lease.HashReadBack
import TaskLease.Proofs.Provider.Image
import TaskLease.Proofs.Command.Notes
import TaskLease.Proofs.Command.Conduct
import TaskLease.Proofs.Command.FailClosed
import TaskLease.Proofs.Lease.Deployments
import TaskLease.Proofs.Lease.HashGrant
import TaskLease.Proofs.Provider.RenewalCalls
import TaskLease.Proofs.Store.StatementLayout
import TaskLease.Proofs.Store.SqlExchange
import TaskLease.Proofs.Provider.SqlReplies
import TaskLease.Proofs.Lease.RecordPaths
import TaskLease.Proofs.Lease.RecordTransactions
import TaskLease.Proofs.Store.RecordNormalForm
import TaskLease.Proofs.Time.CalendarSum
import TaskLease.Proofs.Simulation.Clock
import TaskLease.Proofs.Store.TableNames
import TaskLease.Proofs.Store.TableGuard
