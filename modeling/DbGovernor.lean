import DbGovernor.Model.Daemon
import DbGovernor.Verification.Restrict.Limit
import DbGovernor.Verification.Restrict.Period
import DbGovernor.Verification.Restrict.Penalty
import DbGovernor.Verification.Commands.Handover
import DbGovernor.Verification.Shared.SlotTable
import DbGovernor.Verification.SharedMemory.Refinement
import DbGovernor.Verification.FifoStats.Samples
import DbGovernor.Verification.Daemon.Ownership
import DbGovernor.Verification.Daemon.Registration
import DbGovernor.Verification.Daemon.MapRefresh
import DbGovernor.Verification.Daemon.Invariant
import DbGovernor.Verification.Daemon.Usage
import DbGovernor.Verification.Daemon.AccountPass
import DbGovernor.Verification.Daemon.QuietTick
import DbGovernor.Verification.Daemon.Unrestrict
import DbGovernor.Model.Semaphore
import DbGovernor.Model.TableThreads
import DbGovernor.Verification.SharedMemory.Interleaving
import DbGovernor.Verification.SharedMemory.Semaphore
import DbGovernor.Model.Lve
import DbGovernor.Model.Plugin
import DbGovernor.Verification.Lve.Bookkeeping
import DbGovernor.Verification.Lve.Mutexes
import DbGovernor.Verification.Lve.Audit
import DbGovernor.Model.TidTable
import DbGovernor.Verification.TidTable.Charges
import DbGovernor.Model.NameCopies
import DbGovernor.Verification.SharedMemory.Names
import DbGovernor.Verification.Daemon.Sampling
import DbGovernor.Verification.Daemon.Edits
import DbGovernor.Verification.Daemon.TickTrace
import DbGovernor.Verification.Daemon.Partition
import DbGovernor.Verification.Restrict.Verdict
import DbGovernor.Verification.Daemon.TraversalOrder
import DbGovernor.Verification.Daemon.ConnectionLimits
import DbGovernor.Verification.Daemon.Exempt
import DbGovernor.Model.ClientMessage
import DbGovernor.Model.Statistics
import DbGovernor.Verification.Daemon.Attribution
import DbGovernor.Verification.Daemon.StatExport
import DbGovernor.Verification.Shared.Frames
import DbGovernor.Verification.TidTable.Framing
import DbGovernor.Model.CStrings
import DbGovernor.Model.ConfigInit
import DbGovernor.Model.DbctlList
import DbGovernor.Model.DbctlSet
import DbGovernor.Verification.Config.Acceptance
import DbGovernor.Verification.Config.ElementEdits
import DbGovernor.Verification.Config.LimitsInForce
import DbGovernor.Verification.Config.Listing
import DbGovernor.Verification.Config.Overrides
import DbGovernor.Verification.Config.Setting
import DbGovernor.Model.PollLoop
import DbGovernor.Model.Reread
import DbGovernor.Verification.Config.Intervals
import DbGovernor.Verification.Config.Periods
import DbGovernor.Verification.Config.RepeatedEdits
import DbGovernor.Verification.Config.Rereads
import DbGovernor.Verification.Config.UserEdits
import DbGovernor.Verification.Daemon.Causes
import DbGovernor.Verification.Daemon.RestrictLevel
import DbGovernor.Verification.DbuserMap.RoundTrip
import DbGovernor.Verification.PollLoop.Events
import DbGovernor.Model.MysqlStrings
import DbGovernor.Model.ProcFs
import DbGovernor.Model.Split
import DbGovernor.Model.ThreadCounts
import DbGovernor.Model.XmlPath
import DbGovernor.Verification.Config.Duplicate
import DbGovernor.Verification.Config.SizesListed
import DbGovernor.Verification.Daemon.Concurrency
import DbGovernor.Verification.Mysql.Columns
import DbGovernor.Verification.ProcFs.IoStat
import DbGovernor.Verification.ProcFs.ProcTime
import DbGovernor.Verification.Restrict.Duration
import DbGovernor.Model.DbtopServer
import DbGovernor.Model.Locks
import DbGovernor.Model.Metering
import DbGovernor.Verification.Daemon.Enforcement
import DbGovernor.Verification.Dbtop.Order
import DbGovernor.Verification.Dbtop.Reader
import DbGovernor.Verification.Dbtop.Session
import DbGovernor.Verification.Locks.Discipline
import DbGovernor.Verification.TidTable.Metering
import DbGovernor.Model.ListRestricted
import DbGovernor.Model.SlowQueries
import DbGovernor.Verification.Daemon.AccountShape
import DbGovernor.Verification.Daemon.CatchUp
import DbGovernor.Verification.Dbtop.Restricted
import DbGovernor.Verification.Mysql.SlowQueries
import DbGovernor.Model.PluginSocket
import DbGovernor.Model.PollServer
import DbGovernor.Model.RenewMap
import DbGovernor.Verification.Daemon.SteadyLoad
import DbGovernor.Verification.DbuserMap.Renewal
import DbGovernor.Verification.Plugin.Connections
import DbGovernor.Verification.PollLoop.Descriptors
import DbGovernor.Model.Privileges
import DbGovernor.Verification.Daemon.Privileges
import DbGovernor.Verification.Daemon.Throttling
