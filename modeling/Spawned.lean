import Spawned.Cluster.ChildExit
import Spawned.Cluster.RemoteSpawn
import Spawned.Link.Cascade
import Spawned.Link.Symmetric
import Spawned.Supervisor.DynamicAddress
import Spawned.Supervisor.DynamicFinal
import Spawned.Supervisor.DynamicInstances
import Spawned.Supervisor.DynamicRegistry
import Spawned.Supervisor.Meltdown
import Spawned.Supervisor.Outlives
import Spawned.Supervisor.Tracked
import Spawned.Lib.Fifo
import Spawned.Mailbox
import Spawned.Cluster.RemoteLink
import Spawned.Cluster.ShutdownWait
import Spawned.Cluster.NamedRegistry
import Spawned.Cluster.NamedConvergence
import Spawned.Pg.Exit
import Spawned.Cluster.ControlPlane
import Spawned.Cluster.BrokerLinks
import Spawned.Mailbox.Stopping
import Spawned.Actor.Monitor
import Spawned.Supervisor.DynamicFailure
import Spawned.Pg.Tables
import Spawned.Cluster.Libp2p.Requests
import Spawned.Cluster.Libp2p.Resync
import Spawned.Cluster.Tcp.Replies
import Spawned.Supervisor.Restarts
import Spawned.Supervisor.ShutdownChild
import Spawned.Supervisor.Stopped
import Spawned.Mailbox.Receive
import Spawned.Actor.Killed
import Spawned.Actor.Panics
import Spawned.Cluster.Apply
import Spawned.Cluster.ShutdownParity
import Spawned.Cluster.Tcp.Broadcast
import Spawned.Cluster.Frame
import Spawned.Pg.Refcount
import Spawned.Pg.Listing
import Spawned.Pg.Represents
import Spawned.Pool.RoundRobin
import Spawned.Pool.Workers
import Spawned.Cluster.SpawnLocal
import Spawned.Cluster.Dispatch
import Spawned.Macros.Qualify
import Spawned.Threads.Cancellation
import Spawned.Actor.Request
import Spawned.Actor.Stream
import Spawned.Actor.Deferred
import Spawned.Threads.Time
import Spawned.Application
import Spawned.Cluster.RemoteActorRef
import Spawned.Cluster.Transparency
import Spawned.Cluster.Node
import Spawned.Pg.Cast
import Spawned.Pool.Federated
import Spawned.Macros.Names
import Spawned.Macros.Protocol
