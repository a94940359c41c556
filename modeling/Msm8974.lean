import Msm8974.Library.Runs
import Msm8974.Library.Traces
import Msm8974.Library.PriorityQueue
import Msm8974.Utils.LinkedList
import Msm8974.Utils.LocHeap
import Msm8974.Utils.LocHeapQueue
import Msm8974.Utils.LocTimer
import Msm8974.Utils.LocTimerExpiry
import Msm8974.LocApi.AgpsMachine
import Msm8974.LocApi.AgpsNotification
import Msm8974.LocApi.AgpsNif
import Msm8974.LocApi.AgpsInvariant
import Msm8974.LocApi.AgpsReachable
import Msm8974.LocApi.AgpsAccounting
import Msm8974.LocApi.DSMachine
import Msm8974.LocApi.AgpsResubscribe
import Msm8974.LocApi.DSHandles
import Msm8974.LocApi.DSWaiting
import Msm8974.LocApi.LocEng
import Msm8974.LocApi.LocEngMute
import Msm8974.LocApi.LocEngNi
import Msm8974.LocApi.NiCoherence
import Msm8974.LocApi.NiAttribution
import Msm8974.LocApi.NiTiming
import Msm8974.LocApi.NiDelivery
import Msm8974.Library.Monitors
import Msm8974.LocApi.AgpsEngineUp
import Msm8974.LocApi.AgpsWorld
import Msm8974.LocApi.AgpsRouting
import Msm8974.LocApi.LocEngEffects
import Msm8974.LocApi.LocEngRestart
import Msm8974.LocApi.LocEngAiding
import Msm8974.LocApi.LocEngSingleShot
import Msm8974.LocApi.LocServer
import Msm8974.LocApi.LocServerReplay
import Msm8974.LocApi.ConfigUpdate
import Msm8974.LocApi.DSEffects
import Msm8974.LocApi.DSRetries
import Msm8974.LocApi.NiPayload
import Msm8974.Library.Fifo
import Msm8974.Utils.MsgQ
import Msm8974.Utils.MsgQDelivery
import Msm8974.Utils.MsgTaskOwnership
import Msm8974.Utils.LocTimerArming
import Msm8974.Utils.LocTimerObjects
import Msm8974.Utils.LocTimerLedger
import Msm8974.Utils.LocTimerLifecycle
import Msm8974.Utils.LocTimerRaces
import Msm8974.Library.Packing
import Msm8974.Dtbtool.ChipList
import Msm8974.Dtbtool.Combine
import Msm8974.Dtbtool.Collecting
import Msm8974.Dtbtool.DirectoryOrder
import Msm8974.Dtbtool.Layout
import Msm8974.Liblight.Lights
import Msm8974.Liblight.Arbitration
import Msm8974.LocApi.DmnConn
import Msm8974.LocApi.DmnConnRecovery
import Msm8974.LocApi.DmnConnHandler
import Msm8974.LocApi.DmnConnReceived
import Msm8974.Library.Chains
import Msm8974.Utils.ListMemory
import Msm8974.Utils.ListRefinement
import Msm8974.Utils.LocThread
import Msm8974.Utils.LocThreadOwnership
import Msm8974.Utils.LocCfg
import Msm8974.Utils.LocCfgReading
import Msm8974.Find7Parts.KeyHandler
import Msm8974.Liblight.BlinkArithmetic
import Msm8974.LocApi.DmnConnFraming
import Msm8974.LocApi.AgpsObjects
import Msm8974.LocApi.AgpsDeletion
import Msm8974.LocApi.AgpsSubscribers
import Msm8974.LocApi.AgpsExactness
import Msm8974.LocApi.AgpsObjectRefinement
import Msm8974.LocApi.AgpsIdentity
import Msm8974.Utils.LocHeapShape
import Msm8974.Utils.LocTimerPrecision
import Msm8974.Utils.LocTimerDeadline
import Msm8974.Dtbtool.ChipMemory
import Msm8974.Dtbtool.ChipInfoExtraction
import Msm8974.Dtbtool.WriteResults
import Msm8974.Dtbtool.BoardLookup
import Msm8974.Library.DelimitedText
import Msm8974.LocApi.NmeaNumbers
import Msm8974.LocApi.Nmea
import Msm8974.LocApi.NmeaSentences
import Msm8974.LocApi.NmeaFields
import Msm8974.LocApi.NmeaCache
import Msm8974.LocApi.NmeaGsv
import Msm8974.LocApi.NmeaReading
import Msm8974.LocApi.NmeaCoordinates
import Msm8974.LocApi.NmeaTrack
import Msm8974.Library.Slots
import Msm8974.Core.LocApiBase
import Msm8974.Core.AdapterRegistry
import Msm8974.Core.EventRegistration
import Msm8974.Library.PercentEncoding
import Msm8974.LocApi.UserAgent
import Msm8974.Library.BitCount
import Msm8974.Library.Loops
import Msm8974.Utils.LocMiscUtils
import Msm8974.Utils.LocTrimSpace
import Msm8974.Utils.LocSplitString
import Msm8974.LocApi.CertInstall
import Msm8974.Utils.LocCfgValues
import Msm8974.Utils.LocCfgLines
import Msm8974.Utils.LocCfgUpdate
import Msm8974.Core.LocApiAddress
import Msm8974.LocApi.DmnConnFlush
import Msm8974.LocApi.ChipsetSerial
import Msm8974.LocApi.XtraUserAgent
import Msm8974.Library.Fairness
import Msm8974.LocApi.Thelper
import Msm8974.LocApi.ThelperHandshake
import Msm8974.LocApi.ThelperShutdown
import Msm8974.Camerawrapper.FixedSetParams
import Msm8974.Camerawrapper.StringOwnership
import Msm8974.Utils.MsgQMonitor
import Msm8974.Utils.MsgQRefinement
import Msm8974.Utils.MsgQProgress
import Msm8974.Library.Registers
import Msm8974.LocApi.LocEngReinit
import Msm8974.LocApi.ConfigAgreement
import Msm8974.LocApi.ConfigSettling
import Msm8974.LocApi.SessionRecovery
import Msm8974.Library.Service
import Msm8974.Utils.LocTimerProgress
import Msm8974.Utils.LocTimerStatics
