import NetExperiment.Foundation.Machine
import NetExperiment.Foundation.Heap
import NetExperiment.Foundation.Parts
import NetExperiment.Foundation.CString
import NetExperiment.Libevent.Bufferevent
import NetExperiment.Libevent.Loop
import NetExperiment.Libevent.Immediate
import NetExperiment.Libevent.Rules
import NetExperiment.Relay.Core
import NetExperiment.Relay.Invariants
import NetExperiment.Relay.Embedding
import NetExperiment.Relay.Tenants
import NetExperiment.Relay.Progress
import NetExperiment.Tcp.TransparentTcpProxy.Core
import NetExperiment.Tcp.TransparentTcpProxy.Refinement
import NetExperiment.Tcp.TransparentTcpProxy.Accept
import NetExperiment.Tcp.TransparentTcpProxy.Runs
import NetExperiment.Tcp.TransparentTcpProxy.Server
import NetExperiment.Tcp.TransparentTcpProxy.Isolation
import NetExperiment.Tcp.LeProxy.Core
import NetExperiment.Tcp.LeProxy.Refinement
import NetExperiment.Tcp.LeProxy.Runs
import NetExperiment.Tcp.LeProxy.Server
import NetExperiment.Tcp.Lockstep
import NetExperiment.Tcp.Progress
import NetExperiment.Tcp.TcpProxy.Core
import NetExperiment.Tcp.TcpProxy.Refinement
import NetExperiment.Tcp.TcpProxy.Runs
import NetExperiment.Tcp.TcpProxy.Lifetime
import NetExperiment.Tcp.TcpProxy.Arguments
import NetExperiment.Tcp.TcpProxy.Resume
import NetExperiment.Tcp.EpollHandler.SpliceEcho
import NetExperiment.Tcp.EpollHandler.SpliceEchoRuns
import NetExperiment.Tcp.EpollHandler.SpliceEchoAccounting
import NetExperiment.Tcp.EpollHandler.EchoHandler
import NetExperiment.Tcp.EpollHandler.IOLoop
import NetExperiment.Tcp.EpollHandler.Registry
import NetExperiment.Tcp.EpollHandler.Dispatch
import NetExperiment.Tcp.EpollHandler.IOLoopRuns
import NetExperiment.Tcp.EpollHandler.Traffic
import NetExperiment.Tcp.EpollHandler.TrafficRuns
import NetExperiment.ZeroCopy.EchoServer
import NetExperiment.ZeroCopy.Backpressure
import NetExperiment.ZeroCopy.Clients
import NetExperiment.ZeroCopy.LoadClient
import NetExperiment.ZeroCopy.EchoUnderLoad
import NetExperiment.Event.SpliceEcho
import NetExperiment.Exe.VirtualListerner
import NetExperiment.Exe.SharedBuffer
import NetExperiment.Common.IoContext
import NetExperiment.Common.Listen
import NetExperiment.Common.Dispatch
import NetExperiment.Tcp.LeProxy.CommandLine
import NetExperiment.Rnet.Chat.Core
import NetExperiment.Rnet.Chat.Invariants
import NetExperiment.Rnet.Chat.Membership
import NetExperiment.Rnet.Chat.TotalOrder
import NetExperiment.Rnet.Chat.Progress
import NetExperiment.Rnet.TokioProxy
import NetExperiment.Rnet.TokioEcho
