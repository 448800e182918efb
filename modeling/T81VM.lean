import T81VM.VM.StackSafety
import T81VM.VM.TrapAtomicity
import T81VM.VM.Rejection
import T81VM.VM.ArithmeticSafety
import T81VM.VM.Handles
import T81VM.VM.StructuredValues
import T81VM.VM.PolicyGate
import T81VM.VM.WriteDeltas
import T81VM.VM.Reload
import T81VM.VM.CodeSegment
import T81VM.VM.HeapAllocator
import T81VM.VM.TraceCompleteness
import T81VM.VM.RunLoop
import T81VM.VM.AxionLog
import T81VM.VM.CompareBranch
import T81VM.VM.StackFrames
import T81VM.VM.PushPopStack
import T81VM.VM.LastTrap
import T81VM.VM.PolicyText
import T81VM.VM.HashCoverage
import T81VM.VM.SegmentPartition
import T81VM.VM.HashEncoding
import T81VM.VM.StateHash
import T81VM.VM.TensorSafety
import T81VM.VM.PrintTrace
import T81VM.VM.HostChoice
import T81VM.VM.Storage
import T81VM.VM.Progress
import T81VM.VM.Termination
import T81VM.VM.DeadCode
import T81VM.VM.Clients
import T81VM.ProgramIo.Agreement
import T81VM.ProgramIo.ConformingDocuments
import T81VM.ProgramIo.Exceptions
import T81VM.ProgramIo.RenderProgram
import T81VM.ProgramIo.Layout
import T81VM.VM.PerfCheck
