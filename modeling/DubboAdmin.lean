import DubboAdmin.Lib.Keyed
import DubboAdmin.Lib.Strings
import DubboAdmin.Lib.Runs
import DubboAdmin.Lib.Prog
import DubboAdmin.Lib.Outcomes
import DubboAdmin.Lib.Automata
import DubboAdmin.Lib.Tally
import DubboAdmin.Lib.LinkedMap
import DubboAdmin.Lib.TopologicalOrder
import DubboAdmin.Lib.Decimal
import DubboAdmin.Lib.JsonTags
import DubboAdmin.Lib.Patterns
import DubboAdmin.Lib.Binary64
import DubboAdmin.Lib.DepthFirst
import DubboAdmin.Resource
import DubboAdmin.Store.Memory
import DubboAdmin.Store.MemoryIndex
import DubboAdmin.Store.MemoryPaging
import DubboAdmin.Store.Gorm
import DubboAdmin.Store.GormIndex
import DubboAdmin.Store.GormPaging
import DubboAdmin.Store.Agreement
import DubboAdmin.Store.Interface
import DubboAdmin.Store.ConnectionPool
import DubboAdmin.Store.PoolLocks
import DubboAdmin.Controller.Informer
import DubboAdmin.Controller.Replay
import DubboAdmin.Controller.Discovery
import DubboAdmin.Versioning.Record
import DubboAdmin.Versioning.Adapter
import DubboAdmin.Versioning.Ledger
import DubboAdmin.Versioning.FailedInsert
import DubboAdmin.Versioning.Replicas
import DubboAdmin.Versioning.Append
import DubboAdmin.Console.RuleVersion
import DubboAdmin.Console.RuleHistory
import DubboAdmin.Console.Rollback
import DubboAdmin.Console.MutationOrder
import DubboAdmin.Console.WriteAhead
import DubboAdmin.Console.Concurrent
import DubboAdmin.Console.Bootstrap
import DubboAdmin.Instances.Resource
import DubboAdmin.Instances.Subscribers
import DubboAdmin.Instances.Lifecycle
import DubboAdmin.Console.Counter
import DubboAdmin.Console.CounterInit
import DubboAdmin.Console.InstanceCount
import DubboAdmin.Console.CounterReplicas
import DubboAdmin.Leader.Lease
import DubboAdmin.Leader.Exclusion
import DubboAdmin.Leader.Version
import DubboAdmin.Console.OAuth
import DubboAdmin.Runtime.DependencyGraph
import DubboAdmin.Runtime.FindCycle
import DubboAdmin.Discovery.Terms
import DubboAdmin.Discovery.ZkWatcher
import DubboAdmin.Discovery.ZkLister
import DubboAdmin.Discovery.Metadata
import DubboAdmin.Discovery.Converters
import DubboAdmin.Discovery.LifecycleEvents
import DubboAdmin.Rules.Specs
import DubboAdmin.Rules.RuleSpecYaml
import DubboAdmin.Rules.RouterRuleCodec
import DubboAdmin.Discovery.ZkConfig
import DubboAdmin.Console.ConditionRule
import DubboAdmin.Console.RuleEffects
import DubboAdmin.Console.ServiceSettings
import DubboAdmin.Console.ServiceConditions
import DubboAdmin.Console.Scenes
import DubboAdmin.Console.AppSettings
import DubboAdmin.Console.GenericInvoke
import DubboAdmin.Console.Graph
import DubboAdmin.Console.RelatedTypes
import DubboAdmin.Console.PageRequests
import DubboAdmin.Nacos.Reconcile
import DubboAdmin.Nacos.Instances
import DubboAdmin.Nacos.Consumers
import DubboAdmin.Nacos.ServiceNames
import DubboAdmin.Lock.Gorm
import DubboAdmin.Lock.Exclusion
import DubboAdmin.Events.Bus
import DubboAdmin.Events.Discipline
import DubboAdmin.Events.Changes
import DubboAdmin.Events.Methods
import DubboAdmin.Events.Shutdown
