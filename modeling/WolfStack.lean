import WolfStack.NodeIdentity.Replay
import WolfStack.SecretRotation.Rollout
import WolfStack.SecretRotation.Agreement
import WolfStack.Rootfs.Drivers
import WolfStack.WolfHa.Promotion
import WolfStack.WolfHa.Independence
import WolfStack.Storage.Coverage
import WolfStack.WolfRun.Deletions
import WolfStack.WolfRun.Newest
import WolfStack.WolfRun.Ceiling
import WolfStack.Cluster.Operator
import WolfStack.Cluster.Duplicates
import WolfStack.Cluster.Trust
import WolfStack.Auth.UserReplication
import WolfStack.Mcp.Approval
import WolfStack.Router.FailedLoad
import WolfStack.Router.Recovery
import WolfStack.Edge.Election
import WolfStack.Predictive.Paging
import WolfStack.Auth.Restarts
import WolfStack.Auth.DropRules
import WolfStack.SecretRotation.Undo
import WolfStack.Containers.Convergence
import WolfStack.WolfHa.FencingTime
import WolfStack.WolfHa.PveShipping
import WolfStack.WolfHa.PveStandby
import WolfStack.WolfHa.DeltaRefusals
import WolfStack.Rootfs.Confinement
import WolfStack.WolfHa.PveConfig
import WolfStack.WolfRun.LoadBalancing
import WolfStack.WolfRun.Looking
import WolfStack.WolfRun.LbRules
import WolfStack.WolfFlow.Scheduler
import WolfStack.Router.FirewallVerdicts
import WolfStack.Router.RouteReconcile
import WolfStack.Router.RefusedEdits
import WolfStack.WolfFlow.Matching
import WolfStack.WolfFlow.Report
import WolfStack.WolfFlow.SqlRows
import WolfStack.Cluster.Prune
import WolfStack.Auth.LogMonitor
import WolfStack.Networking.WolfnetPeers
import WolfStack.Mcp.Lifetimes
import WolfStack.Configurator.TomlEditor
import WolfStack.Predictive.FailedSamples
import WolfStack.Predictive.Osv
import WolfStack.Networking.Translation
import WolfStack.Replication.Unchanged
import WolfStack.Security.ScanDetector
import WolfStack.Edge.Settling
import WolfStack.LogHub.Compaction
import WolfStack.Certbot.Replication
import WolfStack.LogHub.Shipper
import WolfStack.Ups.Engine
