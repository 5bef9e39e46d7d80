import IcsGateway.Lib.Effect
import IcsGateway.Lib.Layout
import IcsGateway.Lib.RecordReuse
import IcsGateway.Base.Var
import IcsGateway.Base.Convert
import IcsGateway.Base.Fields
import IcsGateway.Common.ComConfig
import IcsGateway.Common.ConfigRoundTrip
import IcsGateway.Common.ConfigElements
import IcsGateway.Common.WatchDog
import IcsGateway.Manager.DownlinkHandler
import IcsGateway.Lib.Transition
import IcsGateway.Manager.RelayControl
import IcsGateway.Manager.RelayRun
import IcsGateway.Manager.CloudResponse
import IcsGateway.Bridge.Bridge
import IcsGateway.Bridge.Report
import IcsGateway.Bridge.Threads
import IcsGateway.Bridge.ExactlyOnce
import IcsGateway.Lib.JsonText
import IcsGateway.M2C.Downlink
import IcsGateway.M2C.Consume
import IcsGateway.Base.Json
import IcsGateway.M2C.Replies
import IcsGateway.Manager.TwoDecoders
import IcsGateway.Common.WatchDogSync
import IcsGateway.Common.Timer
import IcsGateway.Common.TimerRounds
import IcsGateway.Common.TimerThreads
import IcsGateway.Common.RegistrationConfig
import IcsGateway.M2C.DataSet
import IcsGateway.M2C.Initialize
import IcsGateway.Common.RedisParser
import IcsGateway.Common.RedisGrammar
import IcsGateway.Lib.Chunks
import IcsGateway.Common.RedisStream
import IcsGateway.Common.RedisBounds
import IcsGateway.Common.NetConfig
import IcsGateway.Common.ConfigHistory
import IcsGateway.Common.ConfigEntries
import IcsGateway.Common.MyLogger
import IcsGateway.Common.NetHost
import IcsGateway.Common.HostsFile
import IcsGateway.Common.ComSysNetwork
import IcsGateway.Common.LoadOutcome
import IcsGateway.Common.NetCommit
import IcsGateway.Common.NetStanza
import IcsGateway.Lib.JsonFrame
import IcsGateway.Lib.Quoting
import IcsGateway.Util.It5Cfg
import IcsGateway.Common.Numerals
import IcsGateway.Common.ComUrl
import IcsGateway.Common.Split
import IcsGateway.Lib.Placeholders
import IcsGateway.Lib.Recurrence
import IcsGateway.Common.StrMakeUp
import IcsGateway.M2MSensor.DS18B20
import IcsGateway.M2MSensor.SensorDevice
import IcsGateway.Common.WatchDogTimes
import IcsGateway.Common.WatchDogMessage
import IcsGateway.Manager.StatusInd
import IcsGateway.Common.StrRemove
import IcsGateway.Common.TimerStart
import IcsGateway.Lib.InputStream
import IcsGateway.Common.StrTo
import IcsGateway.Common.ComSysInfo
import IcsGateway.Lib.Backtracking
import IcsGateway.Common.ParseHost
import IcsGateway.Common.Checksum
import IcsGateway.Common.ComPinger
import IcsGateway.Common.Reachability
import IcsGateway.Lib.Calendar
import IcsGateway.Lib.FixedWidth
import IcsGateway.Common.Timestamps
import IcsGateway.Common.SubstituteStr
import IcsGateway.Common.Utility
import IcsGateway.Manager.MacAddress
import IcsGateway.Common.LogPrint
import IcsGateway.Common.TimeServers
import IcsGateway.Util.KeyPath
import IcsGateway.Lib.Ledger
import IcsGateway.M2C.M2CMQTT
import IcsGateway.Manager.Consumer
import IcsGateway.System.CloudLink
import IcsGateway.System.LinkRun
import IcsGateway.System.LinkDelivery
import IcsGateway.System.LinkService
import IcsGateway.System.LinkRelays
import IcsGateway.Lib.StoreRules
import IcsGateway.System.Pipeline
import IcsGateway.Common.ComQueue
import IcsGateway.System.Provenance
import IcsGateway.Lib.Throttle
import IcsGateway.Manager.ManagerWatchDog
import IcsGateway.System.AuditTrail
import IcsGateway.System.AuditRun
import IcsGateway.Common.LogThread
import IcsGateway.Lib.CrashRuns
import IcsGateway.Manager.RelayCrash
import IcsGateway.Lib.KeyedList
import IcsGateway.Util.ConfigStore
