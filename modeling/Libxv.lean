import Libxv.Lib.Run
import Libxv.Lib.Placement
import Libxv.Lib.Trace
import Libxv.Lib.Wakeup
import Libxv.Lib.Line
import Libxv.Lib.Memory
import Libxv.Lib.Framing
import Libxv.Lib.Fifo
import Libxv.Define
import Libxv.Buffer
import Libxv.BufferUse
import Libxv.Socket
import Libxv.Accept
import Libxv.BlockIo
import Libxv.Log
import Libxv.Loop
import Libxv.Poll
import Libxv.Dispatch
import Libxv.Queue
import Libxv.QueueUse
import Libxv.ConcurrentQueue
import Libxv.Connection
import Libxv.Session
import Libxv.Async
import Libxv.WorkerThread
import Libxv.LinkedWorker
import Libxv.TaskMemory
import Libxv.ThreadPool
import Libxv.Service.State
import Libxv.Service.Program
import Libxv.Service.Calls
import Libxv.Service.Accepting
import Libxv.Service.Stop
import Libxv.Service.Destroy
import Libxv.Service.Lifetime
import Libxv.Service.PoolLife
import Libxv.Proofs.Buffer
import Libxv.Proofs.BufferUse
import Libxv.Proofs.Socket
import Libxv.Proofs.Accept
import Libxv.Proofs.BlockIo
import Libxv.Proofs.Log
import Libxv.Proofs.Connection
import Libxv.Proofs.Loop
import Libxv.Proofs.Registration
import Libxv.Proofs.Tables
import Libxv.Proofs.FailedStart
import Libxv.Proofs.Dispatch
import Libxv.Proofs.Reported
import Libxv.Proofs.Output
import Libxv.Proofs.WriteEvent
import Libxv.Proofs.Requests
import Libxv.Proofs.ReadPath
import Libxv.Proofs.Worker
import Libxv.Proofs.TaskMemory
import Libxv.Proofs.Join
import Libxv.Proofs.ThreadPool
import Libxv.Proofs.Shutdown
import Libxv.Proofs.Queue
import Libxv.Proofs.QueueUse
import Libxv.Proofs.QueueDestroy
import Libxv.Proofs.ConcurrentQueue
import Libxv.Proofs.Tasks
import Libxv.Proofs.Service.Instr
import Libxv.Proofs.Service.Frame
import Libxv.Proofs.Service.Ownership
import Libxv.Proofs.Service.Wakeups
import Libxv.Proofs.Service.References
import Libxv.Proofs.Service.Adoption
import Libxv.Proofs.Service.Affinity
import Libxv.Proofs.Service.Conservation
import Libxv.Proofs.Service.Responses
import Libxv.Proofs.Service.Queued
import Libxv.Proofs.Service.Release
import Libxv.Proofs.Service.Table
import Libxv.Proofs.Service.Closing
import Libxv.Proofs.Service.Sequential
import Libxv.Proofs.Service.Routing
import Libxv.Proofs.Service.Pipeline
import Libxv.Proofs.Service.Replies
import Libxv.Proofs.Service.Agreement
import Libxv.Proofs.Service.Calls
import Libxv.Proofs.Service.Homes
import Libxv.Proofs.Service.LifeCycle
import Libxv.Proofs.Service.Slots
import Libxv.Proofs.Service.Counted
import Libxv.Proofs.Service.Progress
import Libxv.Proofs.Service.Settling
import Libxv.Proofs.Service.Accepting
import Libxv.Proofs.Service.Growth
import Libxv.Service.TableUse
import Libxv.Proofs.Service.WithTable
import Libxv.Proofs.Service.TableUse
import Libxv.Proofs.Service.Stop
import Libxv.Proofs.Service.Destroy
import Libxv.Proofs.Service.Return
import Libxv.Proofs.Service.Released
import Libxv.Proofs.Service.Lifetime
import Libxv.Proofs.Service.Leader
import Libxv.Service.Running
import Libxv.Proofs.Service.Running
import Libxv.Proofs.Service.Misuse
import Libxv.Proofs.Service.WorkerStart
import Libxv.Proofs.Service.PoolStart
import Libxv.Proofs.Service.StartUp
import Libxv.Proofs.Service.EventSlot
import Libxv.Proofs.Service.Registered
import Libxv.Proofs.Service.Delivery
import Libxv.Proofs.Service.SendOrder
import Libxv.Proofs.Service.SocketStream
import Libxv.Proofs.Service.Echo
import Libxv.Lib.Simulation
import Libxv.Lib.Monitor
