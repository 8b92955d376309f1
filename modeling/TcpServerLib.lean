import TcpServerLib.Model.ByteCircularBuffer
import TcpServerLib.Refinement.ByteCircularBuffer
import TcpServerLib.Machine.Framing
import TcpServerLib.Machine.Loop
import TcpServerLib.Model.TcpMsgDemarcar
import TcpServerLib.Soundness.Demarcation
import TcpServerLib.Soundness.FixedSizeDemarcar
import TcpServerLib.Soundness.VariableSizeDemarcar
import TcpServerLib.Soundness.AnnouncedLengths
import TcpServerLib.Machine.Program
import TcpServerLib.Model.Server
import TcpServerLib.Model.TcpClient
import TcpServerLib.Model.TcpClientDbManager
import TcpServerLib.Model.TcpClientServiceManager
import TcpServerLib.Machine.Path
import TcpServerLib.Model.TcpServerController
import TcpServerLib.Model.Run
import TcpServerLib.Refinement.ClientOperations
import TcpServerLib.Refinement.ServiceOperations
import TcpServerLib.Refinement.ControllerOperations
import TcpServerLib.Refinement.Acts
import TcpServerLib.Refinement.Effects
import TcpServerLib.Refinement.Frame
import TcpServerLib.Machine.References
import TcpServerLib.Soundness.OneReceiver
import TcpServerLib.Soundness.MessagesInFlight
import TcpServerLib.Soundness.ReferenceCounts
import TcpServerLib.Soundness.Notifications
import TcpServerLib.Soundness.ReceivePaths
import TcpServerLib.Machine.Triple
import TcpServerLib.Machine.Isolation
import TcpServerLib.Model.ServiceLoops
import TcpServerLib.Refinement.Listing
import TcpServerLib.Soundness.DisabledServices
import TcpServerLib.Soundness.ServiceRestart
import TcpServerLib.Machine.Actions
import TcpServerLib.Model.Administration
import TcpServerLib.Soundness.SharedBuffer
import TcpServerLib.Soundness.ServiceLifecycle
import TcpServerLib.Machine.CString
import TcpServerLib.Model.SerializedBuffer
import TcpServerLib.Model.StringUtil
import TcpServerLib.Model.CommandTree
import TcpServerLib.Model.CommandParser
import TcpServerLib.Model.Libcli
import TcpServerLib.Refinement.SerializedBuffer
import TcpServerLib.Refinement.CommandWalk
import TcpServerLib.Soundness.DecodedCommands
import TcpServerLib.Refinement.CommandBuild
import TcpServerLib.Soundness.ModePrefix
import TcpServerLib.Refinement.CommandBranch
import TcpServerLib.Soundness.ModePieces
import TcpServerLib.Machine.Monitor
import TcpServerLib.Model.ListenCalls
import TcpServerLib.Refinement.SilentOperations
import TcpServerLib.Soundness.SingleService
import TcpServerLib.Machine.Threads
import TcpServerLib.Machine.LockOrder
import TcpServerLib.Model.ServerThreads
import TcpServerLib.Refinement.LockedOperations
import TcpServerLib.Soundness.DeadlockFreedom
import TcpServerLib.Soundness.FlushLoop
import TcpServerLib.Soundness.WaitingFrames
import TcpServerLib.Soundness.FixedSizeCapacities
import TcpServerLib.Machine.Extension
import TcpServerLib.Model.MsgRecord
import TcpServerLib.Soundness.MsgRecords
import TcpServerLib.Soundness.KeyDeletion
import TcpServerLib.Machine.Schedule
import TcpServerLib.Model.Glthread
import TcpServerLib.Model.WheelTimer
import TcpServerLib.Refinement.WheelSlots
import TcpServerLib.Refinement.WheelOperations
import TcpServerLib.Refinement.WheelSchedule
import TcpServerLib.Refinement.WheelRequests
import TcpServerLib.Soundness.TimerFirings
import TcpServerLib.Soundness.CancelledExpiries
import TcpServerLib.Model.RequestSteps
import TcpServerLib.Soundness.TimerRequests
import TcpServerLib.Refinement.BranchFrame
import TcpServerLib.Soundness.DoExcursions
import TcpServerLib.Refinement.SessionRuns
import TcpServerLib.Refinement.ReturnedStatus
import TcpServerLib.Soundness.ScriptFiles
import TcpServerLib.Model.SlotArithmetic
import TcpServerLib.Soundness.SlotArithmetic
import TcpServerLib.Model.OptionArray
import TcpServerLib.Soundness.NameResolution
import TcpServerLib.Model.Application
import TcpServerLib.Machine.Words
import TcpServerLib.Model.TokenTable
import TcpServerLib.Refinement.TokenTable
import TcpServerLib.Soundness.Tokens
import TcpServerLib.Machine.LittleEndian
import TcpServerLib.Model.GrowingBuffer
import TcpServerLib.Refinement.GrowingBuffer
import TcpServerLib.Soundness.SerializedItems
import TcpServerLib.Soundness.BufferCalls
import TcpServerLib.Soundness.FullNames
import TcpServerLib.Machine.DottedQuad
import TcpServerLib.Model.TcpServerCli
import TcpServerLib.Refinement.CommandCall
import TcpServerLib.Soundness.ServerCreation
import TcpServerLib.Soundness.NegatedCommands
import TcpServerLib.Model.ConsoleName
import TcpServerLib.Soundness.RejectedCommands
import TcpServerLib.Machine.KeyedMembers
import TcpServerLib.Refinement.ClientKeys
import TcpServerLib.Soundness.ClientKeys
import TcpServerLib.Model.CourseByteCircularBuffer
import TcpServerLib.Soundness.CourseRing
import TcpServerLib.Soundness.RemainingTime
import TcpServerLib.Machine.DoublyLinked
import TcpServerLib.Model.GlthreadLinks
import TcpServerLib.Refinement.GlthreadLinks
import TcpServerLib.Soundness.IntrusiveLists
import TcpServerLib.Model.CommandHistory
import TcpServerLib.Soundness.HistoryReplay
import TcpServerLib.Model.ReplaceSubstring
import TcpServerLib.Refinement.ReplaceSubstring
import TcpServerLib.Soundness.SubstringReplacement
import TcpServerLib.Model.CommandListing
import TcpServerLib.Soundness.CommandListing
import TcpServerLib.Model.Timerlib
import TcpServerLib.Refinement.TimerCalls
import TcpServerLib.Soundness.TimerThreshold
import TcpServerLib.Soundness.TimerStops
import TcpServerLib.Soundness.TimerPauses
import TcpServerLib.Model.LinkedWheel
import TcpServerLib.Machine.StableSort
import TcpServerLib.Soundness.PriorityInsertion
import TcpServerLib.Machine.EnoughSteps
import TcpServerLib.Refinement.LinkedWheel
import TcpServerLib.Soundness.WheelLists
import TcpServerLib.Refinement.Agreement
import TcpServerLib.Soundness.OrderlyShutdown
import TcpServerLib.Machine.ParentForest
import TcpServerLib.Model.Registration
import TcpServerLib.Refinement.OptionSlots
import TcpServerLib.Refinement.Registration
import TcpServerLib.Refinement.InitLibcli
import TcpServerLib.Soundness.RegisteredTrees
import TcpServerLib.Soundness.RegistrationOrder
import TcpServerLib.Soundness.SecondNegations
import TcpServerLib.Soundness.RegistryInvariant
import TcpServerLib.Soundness.DemarcarCapacity
import TcpServerLib.Soundness.RegistrationPrograms
import TcpServerLib.Soundness.ServerCommands
