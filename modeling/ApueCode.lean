import ApueCode.Transition.Machine
import ApueCode.Transition.Simulation
import ApueCode.Transition.Relay
import ApueCode.Transition.Backlog
import ApueCode.Posix.CString
import ApueCode.Posix.MessageQueue
import ApueCode.SvMsq.Model
import ApueCode.SvMsq.Steps
import ApueCode.SvMsq.Conservation
import ApueCode.SvMsq.Delivery
import ApueCode.SvMsq.Exit
import ApueCode.Posix.Semaphore
import ApueCode.Transition.Dispenser
import ApueCode.Mmap.Model
import ApueCode.Mmap.Counter
import ApueCode.Posix.RecordLock
import ApueCode.Posix.Pipe
import ApueCode.MandatoryLock.Model
import ApueCode.MandatoryLock.Handshake
import ApueCode.MandatoryLock.Failure
import ApueCode.RecordLock.Model
import ApueCode.RecordLock.Exclusion
import ApueCode.RecordLock.Unlock
import ApueCode.Posix.Signals
import ApueCode.SigQueued.Model
import ApueCode.SigQueued.Phases
import ApueCode.SigQueued.Wakeup
import ApueCode.SigQueued.Count
import ApueCode.SigQueued.Verdict
import ApueCode.SigQueued.Restore
import ApueCode.SigSetJmp.Model
import ApueCode.SigSetJmp.Jump
import ApueCode.SigSetJmp.Mask
import ApueCode.SigactionSemantics.Model
import ApueCode.SigactionSemantics.Restart
import ApueCode.SigactionSemantics.Verdict
import ApueCode.Posix.FileSystem
import ApueCode.Copy.Model
import ApueCode.Copy.Loop
import ApueCode.Copy.Source
import ApueCode.NonblockIo.Model
import ApueCode.NonblockIo.Output
import ApueCode.NonblockIo.GiveUp
import ApueCode.NiceInfluence.Model
import ApueCode.NiceInfluence.Deadline
import ApueCode.Posix.Printf
import ApueCode.ShowAccount.Model
import ApueCode.ShowAccount.Dump
import ApueCode.FileStat.Model
import ApueCode.FileStat.Decode
import ApueCode.Unlink.Model
import ApueCode.Unlink.Stages
import ApueCode.Getifaddrs.Model
import ApueCode.Getifaddrs.Walk
import ApueCode.Posix.Stdio
import ApueCode.ForkedStdout.Model
import ApueCode.ForkedStdout.Copies
import ApueCode.Posix.WaitStatus
import ApueCode.Posix.Children
import ApueCode.System.Model
import ApueCode.System.PrExit
import ApueCode.System.Run
import ApueCode.Sigchld.Model
import ApueCode.Sigchld.Verdict
import ApueCode.Sigpending.Model
import ApueCode.Sigpending.Outputs
import ApueCode.Posix.Threads
import ApueCode.Posix.ThreadsEnd
import ApueCode.Pthread.Exit
import ApueCode.Pthread.Cleanup
import ApueCode.Posix.Disk
import ApueCode.Posix.DiskCalls
import ApueCode.FileNames.Kept
import ApueCode.Unlink.Contents
import ApueCode.HandlerSemantics.Model
import ApueCode.HandlerSemantics.Verdict
import ApueCode.HandlerSemantics.Answers
import ApueCode.ExitStatus.Model
import ApueCode.Rlimit.Model
import ApueCode.Rlimit.Readable
import ApueCode.SigMask.Model
import ApueCode.SigMask.Readable
import ApueCode.RecordLock.Progress
import ApueCode.Gethost.Model
import ApueCode.Gethost.Readable
