import Loa.PartialUpdate
import Loa.OperationProgram
import Loa.FailingCall
import Loa.SharedProgram
import Loa.TransitionRun
import Loa.RecordAccount
import Loa.BlockCode
import Loa.ErrorDiffusion
import Loa.FifoChannel
import Loa.NewestDrain
import Loa.TicketQueue
import Loa.PointerMemory
import Loa.LayeredWrites
import Loa.SampledSignal
import Loa.MachineInteger
import Loa.DigitalLine
import Loa.LeastSquares
import Loa.PublishGate
import Loa.TextSearch
import Loa.RustText
import Loa.RustWords
import Loa.RustFloat
import Loa.RustFormat
import Loa.RustDouble
import Loa.Base64Url
import Loa.FileDirectory
import Loa.WholeReplacement
import Loa.JsonValue
import Loa.JsonPrinter
import Loa.WireMessages
import Loa.WireContract
import Loa.WireInbound
import Loa.WireExactness
import Loa.WireFraming
import Loa.OledRenderState
import Loa.OledFeedBatching
import Loa.OledGlass
import Loa.OledPanel
import Loa.OledFrame
import Loa.FrameBits
import Loa.PanelMemory
import Loa.GlassThread
import Loa.LineDrawing
import Loa.SmallFonts
import Loa.BitmapLayout
import Loa.OledFace
import Loa.FaceRenderer
import Loa.OledLoop
import Loa.RingDaemon
import Loa.RingEncode
import Loa.RingDither
import Loa.RingTells
import Loa.RingRenderer
import Loa.OneShotTells
import Loa.OneShotHistory
import Loa.RingPictures
import Loa.RingLight
import Loa.NiggleTicks
import Loa.RingProcess
import Loa.SenseDaemons
import Loa.DhtDecoder
import Loa.DhtLine
import Loa.SonarEcho
import Loa.BaroCompensation
import Loa.BaroRead
import Loa.FaultSweep
import Loa.FaultEvaluate
import Loa.CortexState
import Loa.BaroTrend
import Loa.MotionLevel
import Loa.MotionFires
import Loa.SensorGates
import Loa.MergeCarriage
import Loa.CortexVerbs
import Loa.CortexVault
import Loa.CortexVaultFiles
import Loa.CortexVaultBoot
import Loa.CortexDoor
import Loa.VaultSeal
import Loa.VaultWipe
import Loa.JournalFiles
import Loa.JournalAccount
import Loa.SealMap
import Loa.FernetFormat
import Loa.JournalAtomicity
import Loa.StatusWriters
import Loa.StatusTurns
import Loa.StatusCollision
import Loa.CortexBuild
import Loa.CortexStore
import Loa.CortexProcess
import Loa.CortexEffects
import Loa.SettingsAdoption
import Loa.PreviousWriter
import Loa.DoorMachine
import Loa.CortexFeed
import Loa.ConditionAgreement
import Loa.InboundEvents
import Loa.MoodDelivery
import Loa.StoreOutage
import Loa.SettingsFlush
import Loa.BootSettings
import Loa.CustomText
import Loa.StoreFlag
import Loa.HeldFrames
import Loa.ConsoleModel
import Loa.ConsoleCommand
import Loa.ThrottleReaders
import Loa.InitAnswers
import Loa.LateJoiner
import Loa.SensorChain
import Loa.SensorStaleness
import Loa.FaultVerdict
import Loa.FaultProcess
import Loa.FaultPace
import Loa.ReportFile
import Loa.SweepReport
import Loa.ReportCache
import Loa.SampledBlink
import Loa.MatrixPanel
import Loa.AlertLight
import Loa.EdgeWakeup
import Loa.InboxWakeup
import Loa.ConsoleKeys
import Loa.ProbeCommand
import Loa.CellText
import Loa.AmigaFont
import Loa.PainPage
import Loa.RestartResync
import Loa.DriftingGate
import Loa.SenseRecovery
