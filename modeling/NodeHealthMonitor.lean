import NodeHealthMonitor.Transition
import NodeHealthMonitor.ReportHistory
import NodeHealthMonitor.ByteStream
import NodeHealthMonitor.CString
import NodeHealthMonitor.LcData
import NodeHealthMonitor.LcDataCodec
import NodeHealthMonitor.TruncatedFile
import NodeHealthMonitor.FileSafety
import NodeHealthMonitor.NhmHelper
import NodeHealthMonitor.Watchdog
import NodeHealthMonitor.NhmMain
import NodeHealthMonitor.AppStatus
import NodeHealthMonitor.Statistics
import NodeHealthMonitor.Lifecycles
import NodeHealthMonitor.RunStatistics
import NodeHealthMonitor.Shutdowns
import NodeHealthMonitor.RunInvariant
import NodeHealthMonitor.RestartLimit
import NodeHealthMonitor.Userland
import NodeHealthMonitor.BusObservation
import NodeHealthMonitor.DBus
import NodeHealthMonitor.NhmSystemd
import NodeHealthMonitor.UnitMoves
import NodeHealthMonitor.SignalHandlers
import NodeHealthMonitor.Connection
import NodeHealthMonitor.UnitNames
import NodeHealthMonitor.Disconnection
import NodeHealthMonitor.SystemdSession
import NodeHealthMonitor.InitialState
import NodeHealthMonitor.MainLoop
import NodeHealthMonitor.RunTimeData
import NodeHealthMonitor.RestartCauses
import NodeHealthMonitor.PeerIndependence
import NodeHealthMonitor.ChangeAnnouncements
import NodeHealthMonitor.MessageReads
import NodeHealthMonitor.ObservationSetup
import NodeHealthMonitor.UnitObservation
import NodeHealthMonitor.FailedUnits
import NodeHealthMonitor.UnitRecovery
import NodeHealthMonitor.UnitFailures
import NodeHealthMonitor.FailedReads
import NodeHealthMonitor.OwnedMemory
import NodeHealthMonitor.LinkedList
import NodeHealthMonitor.RunTimeHeap
import NodeHealthMonitor.RunTimeLayout
import NodeHealthMonitor.RunTimeRefinement
import NodeHealthMonitor.ProgramRuns
import NodeHealthMonitor.MemorySafety
import NodeHealthMonitor.ProgramHistory
import NodeHealthMonitor.ProcessRuns
import NodeHealthMonitor.MemoryUse
import NodeHealthMonitor.UnitMemory
import NodeHealthMonitor.UserlandRuns
import NodeHealthMonitor.Configuration
import NodeHealthMonitor.ProgramExit
import NodeHealthMonitor.VersionString
import NodeHealthMonitor.CheckedBusses
import NodeHealthMonitor.AppIndependence
