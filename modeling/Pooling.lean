import Pooling.Elastic.Call
import Pooling.Elastic.Pool
import Pooling.Error
import Pooling.Fixed.Call
import Pooling.Fixed.Pool
import Pooling.LockPool.Capacity
import Pooling.LockPool.Entry
import Pooling.LockPool.Evictor
import Pooling.LockPool.Pool
import Pooling.Locks.Holdings
import Pooling.Locks.RwLock
import Pooling.Metrics.Counter
import Pooling.Metrics.Exposition
import Pooling.Metrics.Snapshot
import Pooling.Naming
import Pooling.Number.Binary64
import Pooling.Number.Rounding
import Pooling.Number.Word
import Pooling.Options
import Pooling.Pacing.Timer
import Pooling.Pool.Call
import Pooling.Proofs.Agreement
import Pooling.Proofs.Elastic.Acquiring
import Pooling.Proofs.Elastic.Attendance
import Pooling.Proofs.Elastic.Capacity
import Pooling.Proofs.Elastic.Closing
import Pooling.Proofs.Elastic.Collecting
import Pooling.Proofs.Elastic.Deadlines
import Pooling.Proofs.Elastic.Errands
import Pooling.Proofs.Elastic.Failures
import Pooling.Proofs.Elastic.Lending
import Pooling.Proofs.Elastic.Lifecycle
import Pooling.Proofs.Elastic.Metrics
import Pooling.Proofs.Elastic.Places
import Pooling.Proofs.Elastic.Quiet
import Pooling.Proofs.Elastic.Raises
import Pooling.Proofs.Elastic.Representation
import Pooling.Proofs.Elastic.Sections
import Pooling.Proofs.Elastic.Seniority
import Pooling.Proofs.Elastic.StaleReturns
import Pooling.Proofs.Elastic.Strides
import Pooling.Proofs.Elastic.System
import Pooling.Proofs.Elastic.Transitions
import Pooling.Proofs.Elastic.Unshared
import Pooling.Proofs.Elastic.Wakeups
import Pooling.Proofs.Expiry
import Pooling.Proofs.Fixed.Closing
import Pooling.Proofs.Fixed.Lifecycle
import Pooling.Proofs.Fixed.Places
import Pooling.Proofs.Fixed.Raises
import Pooling.Proofs.Fixed.System
import Pooling.Proofs.Fixed.Transitions
import Pooling.Proofs.Fixed.Wakeups
import Pooling.Proofs.Handles.Custody
import Pooling.Proofs.Handles.Lending
import Pooling.Proofs.Handles.Lingering
import Pooling.Proofs.Handles.Owing
import Pooling.Proofs.Handles.Partings
import Pooling.Proofs.Handles.Registrations
import Pooling.Proofs.Handles.Shutdown
import Pooling.Proofs.LockPool.Contents
import Pooling.Proofs.LockPool.Culling
import Pooling.Proofs.LockPool.Diversions
import Pooling.Proofs.LockPool.Eviction
import Pooling.Proofs.LockPool.Invisibility
import Pooling.Proofs.LockPool.Operations
import Pooling.Proofs.LockPool.Patrols
import Pooling.Proofs.LockPool.Preference
import Pooling.Proofs.LockPool.Rounds
import Pooling.Proofs.LockPool.Safety
import Pooling.Proofs.LockPool.Stakes
import Pooling.Proofs.LockPool.Store
import Pooling.Proofs.LockPool.System
import Pooling.Proofs.LockPool.Views
import Pooling.Proofs.LockPool.Vigil
import Pooling.Proofs.LockPool.Wakeups
import Pooling.Proofs.Locks.Sessions
import Pooling.Proofs.Metrics.Legibility
import Pooling.Proofs.Pacing.Events
import Pooling.Proofs.Raises
import Pooling.Proofs.Retry.Bands
import Pooling.Proofs.Retry.Deadlines
import Pooling.Proofs.Retry.Doubling
import Pooling.Proofs.Retry.Exhaustion
import Pooling.Proofs.Retry.Grants
import Pooling.Proofs.Retry.Jitter
import Pooling.Proofs.Retry.Raises
import Pooling.Proofs.Retry.Turns
import Pooling.Proofs.Runs
import Pooling.Proofs.Schedule.Launching
import Pooling.Proofs.Schedule.Overtaking
import Pooling.Proofs.Schedule.Rates
import Pooling.Proofs.Schedule.Selection
import Pooling.Proofs.Schedule.Standing
import Pooling.Proofs.Schedule.Stopping
import Pooling.Proofs.Schedule.System
import Pooling.Proofs.Schedule.Withdrawal
import Pooling.Proofs.Shutdown
import Pooling.Proofs.Tally
import Pooling.Proofs.Waking
import Pooling.Resource.Handle
import Pooling.Resource.Leak
import Pooling.Resource.Lifetime
import Pooling.Retry.Backoff
import Pooling.Retry.Policy
import Pooling.Retry.Run
import Pooling.Retry.Wait
import Pooling.Retry.Words
import Pooling.Scenario.Actions
import Pooling.Scenario.Blocking
import Pooling.Scenario.LeakScript
import Pooling.Scenario.LockPoolScript
import Pooling.Scenario.LockScript
import Pooling.Scenario.Managed
import Pooling.Scenario.NamingScript
import Pooling.Scenario.PolicyScript
import Pooling.Scenario.Run
import Pooling.Scenario.ScheduleScript
import Pooling.Scenario.Script
import Pooling.Scenario.Step
import Pooling.Scenario.Stress
import Pooling.Scenario.TimerScript
import Pooling.Scenario.World
import Pooling.Schedule.Queue
import Pooling.Stored.Document
import Pooling.Stored.Numeral
import Pooling.Stored.Options
import Pooling.Stored.Reader
import Pooling.Stored.Writer
import Pooling.Table
import Pooling.Text.Describe
import Pooling.Text.Hidden
import Pooling.Time.Clock
import Pooling.Time.Duration
import Pooling.Time.Moment
