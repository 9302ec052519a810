import BrowserHive.Lib.Transition
import BrowserHive.Lib.Tasks
import BrowserHive.Lib.RwLock
import BrowserHive.Lib.Oneshot
import BrowserHive.CdpCall
import BrowserHive.Config
import BrowserHive.Context
import BrowserHive.Pool.State
import BrowserHive.Pool.Machine
import BrowserHive.Pool.Locking
import BrowserHive.Pool.Capacity
import BrowserHive.Pool.Lease
import BrowserHive.Pool.Eviction
import BrowserHive.Pool.Calls
import BrowserHive.Pool.Leak
import BrowserHive.Worker.Response
import BrowserHive.Worker.Machine
import BrowserHive.Worker.Moves
import BrowserHive.Worker.Locking
import BrowserHive.Worker.Generation
import BrowserHive.Worker.Replacement
import BrowserHive.Worker.Retry
import BrowserHive.Worker.Session
import BrowserHive.Worker.Shutdown
import BrowserHive.Coordinator.InFlight
import BrowserHive.Coordinator.Selection
import BrowserHive.Coordinator.Session
import BrowserHive.Coordinator.Discovery
import BrowserHive.Coordinator.Retry
import BrowserHive.Coordinator.Machine
import BrowserHive.Coordinator.Moves
import BrowserHive.Coordinator.Attempts
import BrowserHive.Coordinator.Scope
import BrowserHive.Coordinator.Estimate
import BrowserHive.Lib.Record
import BrowserHive.Lib.Text
import BrowserHive.Proxy
import BrowserHive.Pool.Usage
import BrowserHive.Pool.Identity
import BrowserHive.Pool.Stats
import BrowserHive.Pool.IdleTime
import BrowserHive.Pool.Slots
import BrowserHive.Pool.Proxying
import BrowserHive.Pool.Origin
import BrowserHive.Pool.Tabs
import BrowserHive.Pool.Acquire
import BrowserHive.Coordinator.Local
import BrowserHive.Coordinator.Cluster
import BrowserHive.Worker.Counters
import BrowserHive.Worker.Reaper
import BrowserHive.Lib.Poll
import BrowserHive.Worker.Challenge
import BrowserHive.Worker.WaitStrategy
import BrowserHive.Worker.HardTimeout
import BrowserHive.Coordinator.Rounds
import BrowserHive.Coordinator.Labels
import BrowserHive.Coordinator.RoundRobin
import BrowserHive.Quarantine
import BrowserHive.Lib.Least
import BrowserHive.Pool.Claiming
import BrowserHive.Coordinator.Ties
import BrowserHive.Coordinator.Guards
import BrowserHive.Coordinator.Continuation
import BrowserHive.Worker.Detector
import BrowserHive.Worker.PageLoad
import BrowserHive.Worker.Clock
import BrowserHive.Worker.Observations
import BrowserHive.Worker.NetworkIdle
import BrowserHive.Worker.Timeout
import BrowserHive.Worker.Documents
import BrowserHive.Credentials
import BrowserHive.Coordinator.Accounting
import BrowserHive.Worker.BrowserCdp
import BrowserHive.Worker.ThirdParty
import BrowserHive.Worker.Iframes
import BrowserHive.Worker.Diagnostics
import BrowserHive.Worker.LaunchArgs
import BrowserHive.DomainFilter
import BrowserHive.Worker.ProcessTree
import BrowserHive.Lib.CappedTable
import BrowserHive.Lib.CappedTally
import BrowserHive.Lib.Simulation
import BrowserHive.Lib.Expiring
import BrowserHive.Lib.FixedWindow
import BrowserHive.Lib.Keyed
import BrowserHive.Lib.Fields
import BrowserHive.Coordinator.Metering
import BrowserHive.Coordinator.Retention
import BrowserHive.Coordinator.GivingUp
import BrowserHive.Coordinator.Drain
import BrowserHive.Worker.Limiter
import BrowserHive.Worker.Sweep
import BrowserHive.Worker.ProcFs
import BrowserHive.Worker.Observer
import BrowserHive.Worker.Verdict
import BrowserHive.Worker.Activity
import BrowserHive.Lib.Outcome
import BrowserHive.Worker.Interception
import BrowserHive.Worker.Startup
import BrowserHive.Coordinator.Loops
import BrowserHive.Rollout
import BrowserHive.Worker.Exposition
