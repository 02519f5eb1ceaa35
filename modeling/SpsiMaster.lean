import SpsiMaster.Lib.CInt
import SpsiMaster.Lib.Run
import SpsiMaster.Lib.Hist
import SpsiMaster.Lib.Deque
import SpsiMaster.Lib.Fifo
import SpsiMaster.Lib.Scanf
import SpsiMaster.Lib.Printf
import SpsiMaster.Rtos.Ipc
import SpsiMaster.Radio.Encoder
import SpsiMaster.Radio.Proof.QueueBounds
import SpsiMaster.Radio.Proof.QueueRefine
import SpsiMaster.Radio.Transmit
import SpsiMaster.App.World
import SpsiMaster.App.Led
import SpsiMaster.App.Seg
import SpsiMaster.App.Heart
import SpsiMaster.App.Psi
import SpsiMaster.App.Warn
import SpsiMaster.Radio.Decoder
import SpsiMaster.Radio.Receive
import SpsiMaster.Radio.Proof.FrameGrammar
import SpsiMaster.Radio.Proof.ReceiveBuf
import SpsiMaster.App.System
import SpsiMaster.App.Link
import SpsiMaster.App.Status
import SpsiMaster.App.Proof.PsiTimer
import SpsiMaster.App.Proof.Frame
import SpsiMaster.App.Proof.Observe
import SpsiMaster.App.Proof.LinkStep
import SpsiMaster.App.Proof.WarnEvents
import SpsiMaster.App.Proof.DeadLink
import SpsiMaster.App.Proof.WakeUp
import SpsiMaster.App.Proof.Verdict
import SpsiMaster.App.Proof.ButtonTest
import SpsiMaster.Radio.Proof.Transmission
import SpsiMaster.Radio.Proof.Watchdog
import SpsiMaster.Radio.Proof.RoundTrip
import SpsiMaster.Log.Store
import SpsiMaster.Log.File
import SpsiMaster.Log.Proof.Reset
import SpsiMaster.Log.Proof.Rotation
import SpsiMaster.Log.Proof.PowerLoss
import SpsiMaster.Log.Contention
import SpsiMaster.Log.Proof.Contention
import SpsiMaster.App.Proof.Alarm
import SpsiMaster.App.Proof.StatusLamps
import SpsiMaster.Lamp.AgileLed
import SpsiMaster.Lamp.Proof.Pattern
import SpsiMaster.Lamp.Command
import SpsiMaster.Lamp.Proof.LastCommand
import SpsiMaster.Radio.Proof.Chunks
import SpsiMaster.Radio.Proof.RegisterTable
import SpsiMaster.App.Proof.SegHistory
import SpsiMaster.Flash.Partition
import SpsiMaster.Flash.Proof.Partition
import SpsiMaster.Log.Flashwork
import SpsiMaster.Log.Proof.TextSizes
import SpsiMaster.App.Proof.Messages
import SpsiMaster.Button.AgileButton
import SpsiMaster.Button.Proof.Debounce
import SpsiMaster.Rtos.Proof.TimerThread
import SpsiMaster.Lib.ByteMem
import SpsiMaster.Lib.Tiling
import SpsiMaster.Rtos.Mem
import SpsiMaster.Rtos.Proof.HeapBlocks
import SpsiMaster.Rtos.Proof.HeapOps
import SpsiMaster.Rtos.Proof.HeapRuns
import SpsiMaster.Rtos.Kernel
import SpsiMaster.Rtos.Proof.Calls
import SpsiMaster.Rtos.Proof.Moves
import SpsiMaster.Rtos.Proof.Priority
import SpsiMaster.Rtos.Proof.Refinement
import SpsiMaster.Rtos.Proof.KernelRuns
import SpsiMaster.Rtos.Proof.IpcValues
