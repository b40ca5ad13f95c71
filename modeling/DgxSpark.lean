import DgxSpark.Deploy.Agreement
import DgxSpark.Deploy.Binding
import DgxSpark.Deploy.Locks
import DgxSpark.Deploy.EnvGrammar
import DgxSpark.Deploy.Roots
import DgxSpark.Deploy.Limits
import DgxSpark.Deploy.GrafanaEnv
import DgxSpark.Deploy.Mounts
import DgxSpark.Deploy.ReadBack
import DgxSpark.Lifecycle.Construction
import DgxSpark.Lifecycle.Isolation
import DgxSpark.Lifecycle.Ownership
import DgxSpark.Lifecycle.Targets
import DgxSpark.Lifecycle.ModelPath
import DgxSpark.Lifecycle.Absence
import DgxSpark.Cache.Sweep
import DgxSpark.Model.Fetch
import DgxSpark.Model.Roles
import DgxSpark.Lifecycle.GidIndex
import DgxSpark.Lmcache.WorkerAdapter
import DgxSpark.Cache.Accounting
import DgxSpark.Cache.Races
import DgxSpark.Lmcache.Aborts
import DgxSpark.Lmcache.SharedBlocks
import DgxSpark.Lmcache.RetrieveLocks
import DgxSpark.Lmcache.TailForm
import DgxSpark.Lmcache.PrefetchLocks
import DgxSpark.Kv.LinkedQueue
import DgxSpark.Kv.Protection
import DgxSpark.Kv.Eviction
import DgxSpark.Kv.Coherence
import DgxSpark.Lmcache.Reports
import DgxSpark.Lmcache.Heartbeat
import DgxSpark.Deploy.Redaction
import DgxSpark.Kv.BlockHashes
import DgxSpark.Kv.Events
import DgxSpark.Kv.DeferredFrees
import DgxSpark.Kv.Planner
import DgxSpark.Lmcache.StoreReports
import DgxSpark.Lmcache.Lookups
