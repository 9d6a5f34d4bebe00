import RegistrationCenter.Lib.Runs
import RegistrationCenter.Lib.Refinement
import RegistrationCenter.Lib.IndexedHeap
import RegistrationCenter.Lib.CheckedSift
import RegistrationCenter.Lib.PriorityMap
import RegistrationCenter.Spec.HeartbeatCounter
import RegistrationCenter.Proofs.Heartbeat.Tables
import RegistrationCenter.Proofs.Heartbeat.MissedPeriods
import RegistrationCenter.Proofs.Heartbeat.Readings
import RegistrationCenter.Proofs.Heartbeat.Refinement
import RegistrationCenter.Proofs.Heartbeat.Tick
import RegistrationCenter.Proofs.Heartbeat.Reentrant
import RegistrationCenter.Proofs.Heartbeat.Sift
import RegistrationCenter.Spec.HeartbeatThread
import RegistrationCenter.Lib.RcTree
import RegistrationCenter.Lib.Separated
import RegistrationCenter.Lib.Wire
import RegistrationCenter.Spec.Messages
import RegistrationCenter.Spec.DNode
import RegistrationCenter.Spec.Services
import RegistrationCenter.Lib.PathMap
import RegistrationCenter.Proofs.Store.WellFormed
import RegistrationCenter.Proofs.Store.Effects
import RegistrationCenter.Proofs.Store.SessionCleanup
import RegistrationCenter.Proofs.Store.Runs
import RegistrationCenter.Proofs.Store.RootOnly
import RegistrationCenter.Proofs.Store.Refinement
import RegistrationCenter.Proofs.Store.Commute
import RegistrationCenter.Proofs.Store.Paths
import RegistrationCenter.Spec.Tcp.Buffer
import RegistrationCenter.Spec.Tcp.TcpConnection
import RegistrationCenter.Spec.Tcp.HalfClose
import RegistrationCenter.Spec.Tcp.EpollPoller
import RegistrationCenter.Spec.Tcp.TcpServer
import RegistrationCenter.Spec.Tcp.Reactor
import RegistrationCenter.Spec.Tcp.EventLoop
import RegistrationCenter.Spec.Tcp.EventLoopThread
import RegistrationCenter.Proofs.Tcp.Buffer
import RegistrationCenter.Proofs.Tcp.BufferRuns
import RegistrationCenter.Proofs.Tcp.Reading
import RegistrationCenter.Proofs.Tcp.OutputStream
import RegistrationCenter.Proofs.Tcp.HalfClose
import RegistrationCenter.Proofs.Tcp.Channels
import RegistrationCenter.Proofs.Tcp.Lifecycle
import RegistrationCenter.Proofs.Tcp.Wakeup
import RegistrationCenter.Proofs.Tcp.StopRequest
import RegistrationCenter.Spec.SRCServer
import RegistrationCenter.Proofs.Server.Sessions
import RegistrationCenter.Proofs.Server.NoOrphan
import RegistrationCenter.Proofs.Server.Datagrams
import RegistrationCenter.Proofs.Server.AddressIndex
import RegistrationCenter.Proofs.Server.SessionTable
import RegistrationCenter.Proofs.Server.Registry
import RegistrationCenter.Proofs.Server.FailureDetector
import RegistrationCenter.Proofs.Server.Durability
import RegistrationCenter.Proofs.Messages
import RegistrationCenter.Proofs.Server.Reads
import RegistrationCenter.Proofs.Server.Coalesced
import RegistrationCenter.Spec.SRCCLient
import RegistrationCenter.Proofs.Client.Heartbeats
import RegistrationCenter.Proofs.Client.Calls
import RegistrationCenter.Proofs.Client.Receive
import RegistrationCenter.Proofs.Tcp.Handlers
import RegistrationCenter.Proofs.Tcp.Reactor
import RegistrationCenter.Proofs.Tcp.ReactorRuns
import RegistrationCenter.Proofs.Tcp.ReactorLive
import RegistrationCenter.Spec.ClientCli
import RegistrationCenter.Proofs.Client.Terminal
import RegistrationCenter.Proofs.Client.Cli
import RegistrationCenter.Spec.UUID4
import RegistrationCenter.Lib.Bits
import RegistrationCenter.Proofs.Server.SessionIds
import RegistrationCenter.Spec.ServerThreads
import RegistrationCenter.Proofs.Server.Threads
import RegistrationCenter.Proofs.Server.Presence
