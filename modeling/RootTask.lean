import RootTask.Lib.Transition
import RootTask.Lib.Outcome
import RootTask.Lib.Refinement
import RootTask.Lib.Least
import RootTask.Lib.RegisterMachine
import RootTask.Lib.SetOnce
import RootTask.Lib.Custody
import RootTask.Lib.Loop
import RootTask.Runtime.Utils
import RootTask.Runtime.SafeRingBuffer
import RootTask.Runtime.NewBuffer
import RootTask.Runtime.RingBuffer
import RootTask.Runtime.BitSets
import RootTask.Runtime.Executor
import RootTask.Runtime.AsyncLib
import RootTask.Runtime.Scheduling
import RootTask.Runtime.ReadyQueues
import RootTask.Runtime.Bookkeeping
import RootTask.Runtime.Capacity
import RootTask.Runtime.DelayedWake
import RootTask.Runtime.Incarnation
import RootTask.Runtime.UserInterrupts
import RootTask.Runtime.UserTraps
import RootTask.Ipc.Startup
import RootTask.Ipc.Channel
import RootTask.Ipc.Wakeup
import RootTask.Ipc.Ledger
import RootTask.Ipc.CallReply
import RootTask.Ipc.Matrix
import RootTask.Ipc.Tally
import RootTask.Ipc.LastReply
import RootTask.Ipc.IpcTest
import RootTask.Net.Message
import RootTask.Net.Smoltcp
import RootTask.Net.ListenTable
import RootTask.Net.AsyncServer
import RootTask.Net.Coroutines
import RootTask.Net.Forwarding
import RootTask.Net.Pairing
import RootTask.Net.Accepting
import RootTask.Net.SyncServer
import RootTask.Net.SelfDeadlock
import RootTask.Net.Handles
import RootTask.Net.ListenPhase
import RootTask.Net.Serials
import RootTask.Net.SendReply
import RootTask.Net.RecvLength
import RootTask.Net.ClientRequests
import RootTask.Net.TcpCalls
import RootTask.Net.CallOrder
import RootTask.Net.TcpClients
import RootTask.Syscall.Wrappers
import RootTask.Syscall.Requests
import RootTask.Syscall.Strings
import RootTask.Ipc.ReplyCount
import RootTask.Memory.MemoryAllocator
import RootTask.Memory.KernelMappings
import RootTask.Memory.SingleTests
import RootTask.Memory.ObjectAllocator
import RootTask.Memory.Threads
import RootTask.Memory.ImageUtils
import RootTask.Net.DmaBuffers
import RootTask.Net.SyncCalls
import RootTask.Net.SyncRequests
import RootTask.Net.SyncClients
