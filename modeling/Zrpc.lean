import Zrpc.Lib.Exec
import Zrpc.Lib.LittleEndian
import Zrpc.Lib.Writer
import Zrpc.Go
import Zrpc.Metadata
import Zrpc.Message
import Zrpc.Proofs.Encode
import Zrpc.Proofs.Decode
import Zrpc.Lib.Ensures
import Zrpc.Proofs.DecodeSafe
import Zrpc.Proofs.Metadata
import Zrpc.Proofs.HeaderBits
import Zrpc.Proofs.RoundTrip
import Zrpc.Proofs.MetadataFrames
import Zrpc.Proofs.Grammar
import Zrpc.Lib.Follows
import Zrpc.Receive
import Zrpc.Proofs.Receive
import Zrpc.Timeout
import Zrpc.Lib.Decimal
import Zrpc.Proofs.Timeout
import Zrpc.ClientOptions
import Zrpc.Proofs.ClientOptions
import Zrpc.Codec
import Zrpc.Server
import Zrpc.Proofs.Answer
import Zrpc.Call
import Zrpc.Proofs.RemoteCall
import Zrpc.Generator
import Zrpc.Proofs.Generator
import Zrpc.ServerRun
import Zrpc.Proofs.ServerRun
import Zrpc.WorkerPool
import Zrpc.Proofs.WorkerPool
import Zrpc.Lib.Float64
import Zrpc.WorkerScaling
import Zrpc.Proofs.WorkerScaling
import Zrpc.ServerOptions
import Zrpc.Proofs.ServerOptions
import Zrpc.Proofs.WorkerGrowth
import Zrpc.Lib.Chain
import Zrpc.Middleware
import Zrpc.Proofs.Middleware
import Zrpc.BufferPool
import Zrpc.MessageHeap
import Zrpc.Proofs.MessageHeap
import Zrpc.Proofs.BufferPool
import Zrpc.ServerWrite
import Zrpc.Proofs.ServerWrite
import Zrpc.Lib.RWLock
import Zrpc.ConnRemoval
import Zrpc.Proofs.ConnRemoval
import Zrpc.Proofs.ConnMutexes
import Zrpc.ClientConn
import Zrpc.ClientRun
import Zrpc.Lib.Tally
import Zrpc.Proofs.ClientOps
import Zrpc.Proofs.ClientMoves
import Zrpc.Proofs.ClientOwnership
import Zrpc.Proofs.ClientCounts
import Zrpc.Proofs.ClientTags
import Zrpc.Proofs.ClientUsable
import Zrpc.Proofs.ClientAccounting
import Zrpc.Proofs.ClientClosing
import Zrpc.Proofs.ClientHeartbeat
import Zrpc.Proofs.ClientWire
import Zrpc.Proofs.ClientReplies
import Zrpc.Proofs.ClientRetries
import Zrpc.Proofs.ClientPending
import Zrpc.Proofs.ClientMutex
import Zrpc.Proofs.ClientRelease
import Zrpc.Discovery
import Zrpc.Proofs.ClientServers
import Zrpc.Lib.Range
import Zrpc.Lib.TimedSet
import Zrpc.Registry
import Zrpc.Proofs.Registry
import Zrpc.TcpRegistry
import Zrpc.Proofs.TcpRegistry
import Zrpc.TcpClient
import Zrpc.Proofs.TcpClient
import Zrpc.ServiceHeartbeat
import Zrpc.Proofs.ServiceHeartbeat
import Zrpc.EtcdRegistry
import Zrpc.Proofs.EtcdRegistry
import Zrpc.Lib.Brackets
import Zrpc.ClientStats
import Zrpc.Proofs.ClientStats
import Zrpc.Proofs.PoolCapacity
import Zrpc.MethodName
import Zrpc.Proofs.MethodName
import Zrpc.Proofs.RoundRobin
import Zrpc.Proofs.KeepAlive
import Zrpc.Lib.LastWrite
import Zrpc.EtcdDiscovery
import Zrpc.EtcdWatch
import Zrpc.Proofs.EtcdDiscovery
import Zrpc.Proofs.EtcdWatch
import Zrpc.OutgoingContext
import Zrpc.Proofs.OutgoingContext
import Zrpc.ClientReuse
import Zrpc.Proofs.ClientReuse
import Zrpc.Lib.ObjectPool
import Zrpc.Buffer
import Zrpc.Proofs.BufferRefs
import Zrpc.Proofs.BufferReturns
import Zrpc.BufferSlice
import Zrpc.Proofs.SliceReader
import Zrpc.Proofs.ReadAll
import Zrpc.Proofs.LongBuffers
import Zrpc.PayloadStats
import Zrpc.Proofs.PayloadStats
import Zrpc.Lib.Drain
import Zrpc.BufferRead
import Zrpc.Proofs.BufferDrain
import Zrpc.SharedBuffers
import Zrpc.Proofs.SharedBuffers
import Zrpc.Lib.Served
import Zrpc.ServerStream
import Zrpc.Proofs.RequestThreads
import Zrpc.Proofs.StreamOutput
import Zrpc.Proofs.ServerStream
import Zrpc.Lib.History
import Zrpc.CachedDiscovery
import Zrpc.Proofs.CachedDiscovery
import Zrpc.RegistryDiscovery
import Zrpc.Proofs.RegistryDiscovery
import Zrpc.System
import Zrpc.Proofs.RequestNumbers
import Zrpc.Proofs.SystemWire
import Zrpc.Proofs.Propagation
import Zrpc.Proofs.System
import Zrpc.Proofs.EndToEnd
import Zrpc.Lib.Reach
import Zrpc.Proofs.ClientTermination
import Zrpc.Proofs.ClientEnabled
import Zrpc.Proofs.ClientProgress
