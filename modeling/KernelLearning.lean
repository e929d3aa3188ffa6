import KernelLearning.Interaction.Program
import KernelLearning.Interaction.Failure
import KernelLearning.Interaction.Runs
import KernelLearning.Interaction.Parallel
import KernelLearning.Interaction.Refinement
import KernelLearning.Bytes.Overlay
import KernelLearning.CSemantics.Word
import KernelLearning.CSemantics.Text
import KernelLearning.CSemantics.Numeral
import KernelLearning.CSemantics.Platform
import KernelLearning.CSemantics.GetOpt
import KernelLearning.CSemantics.Input
import KernelLearning.Veeprom.Interface
import KernelLearning.Veeprom.Library
import KernelLearning.Veeprom.Devices
import KernelLearning.Veeprom.GptNames
import KernelLearning.Veeprom.MtdNames
import KernelLearning.Veeprom.Sectors
import KernelLearning.Veeprom.Requests
import KernelLearning.Veeprom.Emmc
import KernelLearning.Veeprom.Atomicity
import KernelLearning.Veeprom.Bounds
import KernelLearning.Veeprom.Nor
import KernelLearning.Veeprom.Nand
import KernelLearning.Veeprom.Clear
import KernelLearning.Veeprom.Concurrency
import KernelLearning.Veeprom.Opening
import KernelLearning.OtaTool.Interface
import KernelLearning.OtaTool.Commands
import KernelLearning.OtaTool.UpdateFlag
import KernelLearning.OtaTool.ResetReason
import KernelLearning.OtaTool.Dispatch
import KernelLearning.OtaTool.Emmc
import KernelLearning.OtaTool.Sessions
import KernelLearning.Interaction.Executions
import KernelLearning.Interaction.SharedLock
import KernelLearning.Interaction.Counting
import KernelLearning.Interaction.Registry
import KernelLearning.Interaction.Pipes
import KernelLearning.Interaction.Tagged
import KernelLearning.Bytes.Copy
import KernelLearning.Bytes.Queue
import KernelLearning.Bytes.Blocks
import KernelLearning.Bytes.Residue
import KernelLearning.GlobalFifo.Device
import KernelLearning.GlobalFifo.Steps
import KernelLearning.GlobalFifo.Frames
import KernelLearning.GlobalFifo.Sequential
import KernelLearning.GlobalFifo.Discipline
import KernelLearning.GlobalFifo.WakeUps
import KernelLearning.ShellSemantics.Loops
import KernelLearning.ShellSemantics.Files
import KernelLearning.ShellSemantics.Script
import KernelLearning.ShellSemantics.Expansion
import KernelLearning.OtaTool.BootCheck
import KernelLearning.SafeBoot.UtilAuth
import KernelLearning.SafeBoot.HashSet
import KernelLearning.SafeBoot.Collisions
import KernelLearning.SafeBoot.Coverage
import KernelLearning.UpPartition.Host
import KernelLearning.UpPartition.Script
import KernelLearning.UpPartition.Upgrades
import KernelLearning.UpPartition.Phases
import KernelLearning.UpPartition.Gate
import KernelLearning.UpPartition.Transaction
import KernelLearning.I2cBus.Adapter
import KernelLearning.I2cBus.Interrupts
import KernelLearning.CSemantics.Rounding
import KernelLearning.I2cBus.Clock
import KernelLearning.I2cBus.Rates
import KernelLearning.I2cBus.Completion
import KernelLearning.I2cBus.Calls
import KernelLearning.I2cBus.Receiving
import KernelLearning.SelectServer.Server
import KernelLearning.SelectServer.Slots
import KernelLearning.SelectServer.Coverage
import KernelLearning.SelectServer.Isolation
import KernelLearning.EpollServer.Server
import KernelLearning.EpollServer.Isolation
import KernelLearning.SemBuffer.Threads
import KernelLearning.SemBuffer.Credits
import KernelLearning.SemBuffer.Completion
import KernelLearning.MutexCond.Threads
import KernelLearning.MutexCond.Lines
import KernelLearning.MutexCond.Handover
import KernelLearning.MutexCond.Stranding
import KernelLearning.MessageQueue.Receiver
import KernelLearning.MessageQueue.WakeUps
import KernelLearning.SafeBoot.Layout
import KernelLearning.UpPartition.FreeSpace
import KernelLearning.I2cUserland.PackAccess
import KernelLearning.WorkQueue.Driver
import KernelLearning.WorkQueue.Lifetime
import KernelLearning.Bytes.Addresses
import KernelLearning.CharDemo.Driver
import KernelLearning.CharDemo.Registers
import KernelLearning.PollServer.Server
import KernelLearning.PollServer.Table
import KernelLearning.PollServer.Pass
import KernelLearning.PollServer.Readiness
import KernelLearning.PollServer.Echo
import KernelLearning.PollServer.Exchange
import KernelLearning.PollServer.Conversation
import KernelLearning.FileTrees.Listing
import KernelLearning.FileTrees.Folder
import KernelLearning.SourceTransfer.Scripts
import KernelLearning.SourceTransfer.Transferred
import KernelLearning.SourceTransfer.RoundTrip
import KernelLearning.CSemantics.Loops
import KernelLearning.CSemantics.Arrays
import KernelLearning.Sorting.FastSort
import KernelLearning.CSemantics.Segments
import KernelLearning.CSemantics.Reordering
import KernelLearning.CSemantics.Gaps
import KernelLearning.CSemantics.Chains
import KernelLearning.Sorting.MergeSort
import KernelLearning.Sorting.ShellSort
import KernelLearning.Sorting.ShellGroups
import KernelLearning.Sorting.ShellPasses
import KernelLearning.Sorting.BubbleSort
import KernelLearning.Sorting.SelectSort
import KernelLearning.Sorting.InsertSort
import KernelLearning.Trees.Orders
import KernelLearning.BinaryNodes.Traversal
import KernelLearning.BinaryNodes.Creation
import KernelLearning.BinaryNodes.Statics
import KernelLearning.BinaryNodes.Program
import KernelLearning.LinkedLists.ListExperiment
import KernelLearning.LinkedLists.ListProgram
import KernelLearning.LinkedLists.SingleList
import KernelLearning.Mdio.Parsing
import KernelLearning.RwLock.Threads
import KernelLearning.RwLock.Holding
import KernelLearning.RwLock.Appending
import KernelLearning.SharedMemory.Processes
import KernelLearning.SharedMemory.Values
import KernelLearning.SharedMemory.Locking
import KernelLearning.LoadMonitor.Dump
import KernelLearning.LoadMonitor.Timer
import KernelLearning.IpcFifo.Pipe
import KernelLearning.IpcFifo.PipeExchange
