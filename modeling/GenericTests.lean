import GenericTests.Lib.CString
import GenericTests.Lib.Files
import GenericTests.Lib.FullTree
import GenericTests.Lib.Memory
import GenericTests.Lib.MessageQueue
import GenericTests.Lib.Printf
import GenericTests.Lib.Processes
import GenericTests.Lib.ProcessRuns
import GenericTests.Lib.ProcessTree
import GenericTests.Lib.SharedMemory
import GenericTests.Lib.Stdio
import GenericTests.Lib.Synchronisation
import GenericTests.Lib.Transition
import GenericTests.Lib.Vectored
import GenericTests.Lib.WaitStatus
import GenericTests.Semaphore.Model
import GenericTests.Semaphore.Control
import GenericTests.Semaphore.HandOff
import GenericTests.Semaphore.Termination
import GenericTests.Semaphore.Multisem
import GenericTests.Threadlock.Model
import GenericTests.Threadlock.Exclusion
import GenericTests.Threadlock.LostWakeup
import GenericTests.Threadlock.OwnerDeath
import GenericTests.Socket.Server
import GenericTests.Socket.PollSet
import GenericTests.Socket.Clients
import GenericTests.Socket.Answered
import GenericTests.Socket.Progress
import GenericTests.Socket.Program
import GenericTests.Socket.Ending
import GenericTests.Socket.OpenCount
import GenericTests.Socket.Stopping
import GenericTests.Socket.Received
import GenericTests.Socket.ForkServer
import GenericTests.Controlthreads.Pipe
import GenericTests.Controlthreads.Framing
import GenericTests.Controlthreads.Processes
import GenericTests.Controlthreads.FifoLifetime
import GenericTests.Controlthreads.Makethreads
import GenericTests.Controlthreads.ExitValues
import GenericTests.Controlthreads.Bingo
import GenericTests.Shmtest.Model
import GenericTests.Shmtest.Completion
import GenericTests.Shmtest.FillBuffer
import GenericTests.Msgtest.Model
import GenericTests.Msgtest.Exchange
import GenericTests.Msgtest.Deadlock
import GenericTests.Msgtest.SecondGet
import GenericTests.Mkuidns.IdMap
import GenericTests.Mkuidns.Model
import GenericTests.Mkuidns.Gate
import GenericTests.Forks.SerialLoop
import GenericTests.Forks.StatusChain
import GenericTests.Forks.Serialfork
import GenericTests.Forks.Multiforkexec
import GenericTests.Forks.Parallelfork
import GenericTests.Forks.Forktree
import GenericTests.Forks.TreeShape
import GenericTests.Forks.Recursion
import GenericTests.Forks.OneChild
import GenericTests.Forks.Sample
import GenericTests.Forks.Callsys
import GenericTests.Forks.Processesgalore
import GenericTests.Forks.Clone
import GenericTests.Pthread.Model
import GenericTests.Pthread.OwnIds
import GenericTests.Pthread.Ending
import GenericTests.Pthread.JoinLoop
import GenericTests.Pthread.Tables
import GenericTests.Clock.DisplayClock
import GenericTests.Clock.DynamicClock
import GenericTests.ArchPrctl.Restore
import GenericTests.Hellofile.TempFile
import GenericTests.Call64.Getdents
import GenericTests.Call64.GetdentsSafety
import GenericTests.Call64.Sendfile
import GenericTests.Timeclock64.Layout
import GenericTests.Recvmsg.Scatter
import GenericTests.Recvmsg.Program
import GenericTests.IovecDemo.Demos
import GenericTests.IovecDemo.ProcessVm
