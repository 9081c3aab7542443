import Lhre.Autonomy.Centerline
import Lhre.Autonomy.Chaining
import Lhre.Autonomy.CircuitProgress
import Lhre.Autonomy.ConeMap
import Lhre.Autonomy.ConeSides
import Lhre.Autonomy.Correctness.ConeAssociation
import Lhre.Autonomy.Correctness.ConeSides
import Lhre.Autonomy.Correctness.DeliveryOrder
import Lhre.Autonomy.Correctness.DrivableChains
import Lhre.Autonomy.Correctness.Estimator
import Lhre.Autonomy.Correctness.GeofenceAnchor
import Lhre.Autonomy.Correctness.HeartbeatSettle
import Lhre.Autonomy.Correctness.LidarRuns
import Lhre.Autonomy.Correctness.MissionInputs
import Lhre.Autonomy.Correctness.OptimalPairs
import Lhre.Autonomy.Correctness.PursuitCommands
import Lhre.Autonomy.Correctness.SafetyVerdicts
import Lhre.Autonomy.Correctness.ScoredLap
import Lhre.Autonomy.Correctness.SweptContact
import Lhre.Autonomy.CourseEnvelope
import Lhre.Autonomy.Ekf
import Lhre.Autonomy.LidarDetector
import Lhre.Autonomy.MissionManager
import Lhre.Autonomy.Pursuit
import Lhre.Autonomy.Safety
import Lhre.Autonomy.SafetyLoop
import Lhre.Autonomy.SafetyRuns
import Lhre.Bevo.Bytes
import Lhre.Bevo.Cand
import Lhre.Bevo.Correctness.Arrays
import Lhre.Bevo.Correctness.Bitfields
import Lhre.Bevo.Correctness.ColumnOrder
import Lhre.Bevo.Correctness.DamagedPosition
import Lhre.Bevo.Correctness.GatePassage
import Lhre.Bevo.Correctness.LapCount
import Lhre.Bevo.Correctness.LapEnergy
import Lhre.Bevo.Correctness.Mux
import Lhre.Bevo.Correctness.PacketIds
import Lhre.Bevo.Correctness.Resolution
import Lhre.Bevo.Correctness.Scalars
import Lhre.Bevo.Correctness.ScreenOverride
import Lhre.Bevo.DashScreen
import Lhre.Bevo.Dashd
import Lhre.Bevo.Gateway
import Lhre.Bevo.Ipc
import Lhre.Bevo.Loaded
import Lhre.Bevo.Loggerd
import Lhre.Bevo.Publishd
import Lhre.Bevo.Writes
import Lhre.Can.BitWalk
import Lhre.Can.Codec
import Lhre.Can.Messages
import Lhre.Can.VcuEncodings
import Lhre.Can.VcuMessages
import Lhre.CanSpec.Correctness.DerivedTypes
import Lhre.CanSpec.Correctness.FrameLayout
import Lhre.CanSpec.Correctness.IdLedger
import Lhre.CanSpec.Correctness.WireManifest
import Lhre.CanSpec.Fields
import Lhre.CanSpec.Frames
import Lhre.CanSpec.Ir
import Lhre.CanSpec.Ledger
import Lhre.CanSpec.Reordering
import Lhre.CanSpec.Sharing
import Lhre.CanSpec.Validator
import Lhre.CanSpec.Wire
import Lhre.CarStatus.Correctness.Debounce
import Lhre.CarStatus.Processor
import Lhre.Codegen.CanLib
import Lhre.Codegen.Correctness.Reencode
import Lhre.Codegen.Correctness.RoundTrip
import Lhre.Codegen.Correctness.RxDispatch
import Lhre.Codegen.DecodeTable
import Lhre.Codegen.Payload
import Lhre.Codegen.RxHeader
import Lhre.Codegen.Telemetry
import Lhre.Codegen.Wire
import Lhre.DriveDay.Alerts
import Lhre.DriveDay.Convert
import Lhre.DriveDay.Correctness.LapJoints
import Lhre.DriveDay.Correctness.LapsConserved
import Lhre.DriveDay.Correctness.MovingAverage
import Lhre.DriveDay.Correctness.SectorSums
import Lhre.DriveDay.Correctness.SegmentTiles
import Lhre.DriveDay.Laps
import Lhre.DriveDay.Rebuild
import Lhre.DriveDay.Sectors
import Lhre.DriveDay.Segments
import Lhre.DriveDay.TimeAverage
import Lhre.Drivers.CanInbox
import Lhre.Drivers.Correctness.GateSchedule
import Lhre.Drivers.Correctness.LineEditor
import Lhre.Drivers.Debounce
import Lhre.Drivers.Math
import Lhre.Drivers.RateGate
import Lhre.Drivers.RxSlot
import Lhre.Drivers.Shell
import Lhre.Drivers.Stm32Can
import Lhre.Drivers.System
import Lhre.Drivers.UsbCdc
import Lhre.Ingest.Correctness.PartitionCover
import Lhre.Ingest.DbWorker
import Lhre.Ingest.Partitions
import Lhre.LogSync.Coherence
import Lhre.LogSync.Correctness.QueueIntegrity
import Lhre.LogSync.Correctness.Requests
import Lhre.LogSync.Correctness.RetryCount
import Lhre.LogSync.Correctness.TerminalStates
import Lhre.Motec.AutoSplit
import Lhre.Motec.Correctness.CommonGrid
import Lhre.Motec.Correctness.LdMetadata
import Lhre.Motec.Correctness.LdRoundTrip
import Lhre.Motec.Correctness.Leadership
import Lhre.Motec.Correctness.SplitRanges
import Lhre.Motec.Correctness.ZipRoundTrip
import Lhre.Motec.Ld
import Lhre.Motec.LdFile
import Lhre.Motec.Presence
import Lhre.Motec.PresenceLeader
import Lhre.Theory.Assignment
import Lhre.Theory.BitLayout
import Lhre.Theory.Blocks
import Lhre.Theory.ByteFile
import Lhre.Theory.CString
import Lhre.Theory.Confirmation
import Lhre.Theory.Dict
import Lhre.Theory.DisjointForest
import Lhre.Theory.Float32
import Lhre.Theory.Framing
import Lhre.Theory.GreedyMatching
import Lhre.Theory.Grouping
import Lhre.Theory.Journal
import Lhre.Theory.Kalman
import Lhre.Theory.LastWriter
import Lhre.Theory.Lines
import Lhre.Theory.ListPass
import Lhre.Theory.Mailbox
import Lhre.Theory.Overlap
import Lhre.Theory.Plane
import Lhre.Theory.Polyline
import Lhre.Theory.Reordering
import Lhre.Theory.ReplayBuffer
import Lhre.Theory.Ring
import Lhre.Theory.Spells
import Lhre.Theory.Steps
import Lhre.Theory.Tiling
import Lhre.Theory.TokenMatch
import Lhre.Theory.Trace
import Lhre.Theory.WrapClock
import Lhre.Trackside.Correctness.SessionSync
import Lhre.Trackside.SessionRegistry
import Lhre.Vcu.App
import Lhre.Vcu.ControlLoop
import Lhre.Vcu.Correctness.BrakeLatch
import Lhre.Vcu.Correctness.DriveEntry
import Lhre.Vcu.Correctness.FrameRanges
import Lhre.Vcu.Correctness.Freshness
import Lhre.Vcu.Correctness.LatchPersistence
import Lhre.Vcu.Correctness.LaunchAbort
import Lhre.Vcu.Correctness.ModeRelay
import Lhre.Vcu.Correctness.ModeRequests
import Lhre.Vcu.Correctness.Overthrottle
import Lhre.Vcu.Correctness.RegenLimits
import Lhre.Vcu.Correctness.TorqueCaps
import Lhre.Vcu.Correctness.TorqueGate
import Lhre.Vcu.Correctness.TorqueReducers
import Lhre.Vcu.Correctness.TrimAuthority
import Lhre.Vcu.Correctness.Watchdog
import Lhre.Vcu.CriticalFrames
import Lhre.Vcu.DiagFrames
import Lhre.Vcu.FaultStore
import Lhre.Vcu.Faults
import Lhre.Vcu.Io
import Lhre.Vcu.LatchHandoff
import Lhre.Vcu.Launch
import Lhre.Vcu.Params
import Lhre.Vcu.Pedals
import Lhre.Vcu.Regen
import Lhre.Vcu.Sensors
import Lhre.Vcu.StateMachine
import Lhre.Vcu.Tasks
import Lhre.Vcu.TickFacts
import Lhre.Vcu.Torque
import Lhre.Vcu.VehicleRx
import Lhre.Viewer.Correctness.LiveHandlers
import Lhre.Viewer.Correctness.LiveHistory
import Lhre.Viewer.LiveStream
