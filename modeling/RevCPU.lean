import RevCPU.DecodeBase
import RevCPU.DecodeFloat
import RevCPU.MemRefine
import RevCPU.CompressedArith
import RevCPU.CompressedJump
import RevCPU.CompressedMem
import RevCPU.Reservation
import RevCPU.Tlb
import RevCPU.Heap
import RevCPU.AmoSemantics
import RevCPU.UseAfterFree
import RevCPU.LrSc
import RevCPU.MemCtrlConserve
import RevCPU.MemCtrlCount
import RevCPU.MemCtrlOrder
import RevCPU.MemCtrlFence
import RevCPU.MemCtrlAmo
import RevCPU.LoadCtrl
import RevCPU.Completion
import RevCPU.Threads
import RevCPU.PanToken
import RevCPU.PanGets
import RevCPU.ControlTransfer
import RevCPU.Divide
import RevCPU.FloatMove
import RevCPU.Scoreboard
import RevCPU.PanResults
import RevCPU.Pipeline
import RevCPU.Cost
import RevCPU.PrefetchAvail
import RevCPU.PrefetchFault
import RevCPU.ReadPaths
import RevCPU.CrossPage
import RevCPU.Translation
import RevCPU.Mmap
import RevCPU.Loader
import RevCPU.MemCtrlLoop
import RevCPU.MemCtrlLimits
import RevCPU.MemCtrlSplit
import RevCPU.MemCtrlHazard
import RevCPU.EcallWrite
import RevCPU.EcallPath
import RevCPU.CacheLine
import RevCPU.ProgramArgs
import RevCPU.ElfBounds
import RevCPU.FeatureGrammar
import RevCPU.PanExecRun
import RevCPU.PanReads
import RevCPU.PanRegs
import RevCPU.PanSignal
import RevCPU.PanCommandEvent
import RevCPU.PanRing
import RevCPU.PanZeroRun
import RevCPU.PanClock
import RevCPU.Futures
import RevCPU.Conversions
import RevCPU.CloneView
import RevCPU.Program
import RevCPU.PanBench
import RevCPU.BootRun
import RevCPU.Descriptors
