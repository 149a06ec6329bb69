import Sirah.Lib.Run
import Sirah.Lib.CString
import Sirah.Cache.RequestCache
import Sirah.ApiServer.CasHandler
import Sirah.ApiServer.LostUpdate
import Sirah.Ha.Election
import Sirah.Rbac.RbacManager
import Sirah.Lib.Inet
import Sirah.Ipam.Manager
import Sirah.Ipam.Blocks
import Sirah.Ipam.Pools
import Sirah.Ipam.Conflicts
import Sirah.Lib.Json
import Sirah.Etcd.Base64
import Sirah.Etcd.Client
import Sirah.Etcd.Cas
import Sirah.Etcd.Manager
import Sirah.ApiServer.Endpoints
import Sirah.ApiServer.KubectlApply
import Sirah.ApiServer.Patch
import Sirah.ApiServer.ListGet
import Sirah.ApiServer.ResourceVersion
import Sirah.Etcd.Mutations
import Sirah.Etcd.Reads
import Sirah.Etcd.Failover
import Sirah.Lib.RingBuffer
import Sirah.Watch.Manager
import Sirah.Watch.Delivery
import Sirah.Watch.Batch
import Sirah.Lib.SplitFirst
import Sirah.Storage.Binder
import Sirah.Storage.PersistentVolume
import Sirah.ApiServer.Routing
import Sirah.ApiServer.ObjectRoutes
import Sirah.Rbac.Authz
import Sirah.Rbac.Isolation
import Sirah.Rbac.ResourceNames
import Sirah.Scheduler.Capacity
import Sirah.Resilience.CircuitBreaker
import Sirah.Resilience.Timing
import Sirah.ApiServer.Keys
import Sirah.Lib.KeyedSum
import Sirah.Quota.Admission
import Sirah.Lib.Signed
import Sirah.Quota.Controller
import Sirah.Deployment.Deployment
import Sirah.LimitRange.LimitRange
import Sirah.Quota.Agreement
import Sirah.Deployment.RollingUpdate
import Sirah.Monitor.InstanceLifecycle
import Sirah.GarbageCollector.GcController
import Sirah.GarbageCollector.Cascade
import Sirah.GarbageCollector.Finalizers
import Sirah.Lib.Streak
import Sirah.Probes.HealthProbe
import Sirah.Dns.DnsResolver
import Sirah.Networking.PolicyEnforcer
import Sirah.Scheduler.AffinityScheduler
import Sirah.StatefulSet.Ordering
import Sirah.StatefulSet.Scaling
import Sirah.StatefulSet.StatefulSet
import Sirah.Lib.Words
import Sirah.StatefulSet.PvcNames
import Sirah.Job.Job
import Sirah.Job.Accounting
import Sirah.Job.SizeRules
import Sirah.Lib.Strtok
import Sirah.ApiServer.Selectors
import Sirah.ApiServer.EventSystem
import Sirah.ApiServer.WatchRegistrations
import Sirah.ApiServer.WatchDelivery
import Sirah.Namespace.NamespaceController
import Sirah.Networking.ServiceIps
import Sirah.ApiServer.ServiceRegistry
import Sirah.Networking.IngressRules
import Sirah.Autoscaler.HpaController
import Sirah.Autoscaler.Interference
import Sirah.ApiServer.JobReconcile
import Sirah.ApiServer.StatefulSetReconcile
import Sirah.Networking.ServiceEndpoints
import Sirah.Supervision.SupervisionTree
import Sirah.LimitRange.Quantity
import Sirah.Quota.LimitRangeDefaults
import Sirah.LimitRange.Generations
import Sirah.ApiServer.MergePatch
import Sirah.ApiServer.ApplyIdempotent
import Sirah.ApiServer.JsonPatch
import Sirah.DaemonSet.DaemonSet
import Sirah.Eviction.PodEviction
import Sirah.Pod.PodController
import Sirah.ApiServer.JsonPatchRfc
import Sirah.ApiServer.QueryParser
import Sirah.ApiServer.SelectorMeaning
import Sirah.ApiServer.LabelGrammar
import Sirah.ApiServer.PodValidation
import Sirah.Cache.CacheLimits
import Sirah.Scheduler.NodeChoice
import Sirah.Scheduler.Scores
import Sirah.Autoscaler.StepBounds
import Sirah.Etcd.Base64Rfc
import Sirah.Etcd.HealthQueries
import Sirah.Ipam.CidrBlocks
import Sirah.Job.Ttl
import Sirah.Lib.Represents
import Sirah.Lib.RunningMax
import Sirah.Quota.PodCharge
import Sirah.Resilience.Backoff
import Sirah.Storage.ClaimMatching
import Sirah.Storage.ListJson
import Sirah.Workload.Store
import Sirah.Etcd.PrefixRange
import Sirah.Lib.InitialSegment
import Sirah.Lib.Rotation
import Sirah.Lib.Series
import Sirah.LimitRange.FormatResource
import Sirah.Networking.ConnectionPool
import Sirah.Networking.RoundRobin
import Sirah.Node.NodeLifecycle
import Sirah.Rbac.AuditLog
import Sirah.StatefulSet.ReadyOrdinal
import Sirah.Storage.StorageClass
import Sirah.Supervision.RestartIntensity
import Sirah.Watch.RingIndices
import Sirah.Lib.Filling
import Sirah.Lib.BoundedMap
import Sirah.Lib.Simulation
import Sirah.Lib.KeyedQueues
import Sirah.Shutdown.GracefulShutdown
import Sirah.ApiServer.StoredObjects
import Sirah.ApiServer.VersionStamps
import Sirah.Networking.LeastConn
import Sirah.Networking.VxlanTunnel
import Sirah.StatefulSet.PodNames
import Sirah.Rbac.PolicyStore
import Sirah.Rbac.AdminAccess
import Sirah.Supervision.Supervisor
import Sirah.Cache.HitSources
import Sirah.Node.NodeMonitor
import Sirah.Watch.Sessions
import Sirah.Kubelet.UnikernelRuntime
import Sirah.Kubelet.Processes
import Sirah.Watch.Streams
