import Tdm.Common.CompleteSend
import Tdm.Common.Deal
import Tdm.Common.DealEffect
import Tdm.Common.DealReach
import Tdm.Common.DealStores
import Tdm.Common.DeviceNumber
import Tdm.Common.ExactRead
import Tdm.Common.KeyValue
import Tdm.Common.LogChannel
import Tdm.Common.LogDescriptors
import Tdm.Common.LogProtocol
import Tdm.Common.Node
import Tdm.Common.Registry
import Tdm.Common.RegistryRun
import Tdm.Common.RegistryTheorems
import Tdm.Common.ReplyBounds
import Tdm.Common.ReplyFormat
import Tdm.Common.SimPool
import Tdm.Common.Sockets
import Tdm.Common.Verdict
import Tdm.Common.VpnRecord
import Tdm.Config.AllTrim
import Tdm.Config.ConfigFile
import Tdm.Config.ConfigSearch
import Tdm.Config.ReadString
import Tdm.Device.Accept
import Tdm.Device.AccessAuth
import Tdm.Device.AnswerFrames
import Tdm.Device.Command
import Tdm.Device.Descriptors
import Tdm.Device.DeviceLog
import Tdm.Device.Dispatch
import Tdm.Device.Features
import Tdm.Device.FlowLog
import Tdm.Device.Footprints
import Tdm.Device.GrantedLogin
import Tdm.Device.HandlerStores
import Tdm.Device.Handlers
import Tdm.Device.HexCodec
import Tdm.Device.Identity
import Tdm.Device.Independence
import Tdm.Device.LogBounds
import Tdm.Device.LogRecords
import Tdm.Device.LoggedHandlers
import Tdm.Device.LoginFrame
import Tdm.Device.LoginHistory
import Tdm.Device.LoginStores
import Tdm.Device.Minutes
import Tdm.Device.ReadEvents
import Tdm.Device.Recv
import Tdm.Device.RecvBounds
import Tdm.Device.RecvPayload
import Tdm.Device.RecvTheorems
import Tdm.Device.Rekey
import Tdm.Device.Relay
import Tdm.Device.Settings
import Tdm.Device.SpeedConfig
import Tdm.Device.Startup
import Tdm.Device.TTLength
import Tdm.Device.TrailerNumber
import Tdm.Device.Transmission
import Tdm.Device.Web
import Tdm.Device.WebTargets
import Tdm.Device.WebText
import Tdm.Lib.CArray
import Tdm.Lib.CNumber
import Tdm.Lib.CString
import Tdm.Lib.Calendar
import Tdm.Lib.CircularList
import Tdm.Lib.Critical
import Tdm.Lib.Custody
import Tdm.Lib.Fifo
import Tdm.Lib.Footprint
import Tdm.Lib.Keyed
import Tdm.Lib.Layout
import Tdm.Lib.LinkedQueue
import Tdm.Lib.Loop
import Tdm.Lib.Progress
import Tdm.Lib.QuotedRecord
import Tdm.Lib.Stations
import Tdm.Lib.Stores
import Tdm.Lib.System
import Tdm.Lib.Tagged
import Tdm.Lib.TextOrder
import Tdm.Server.Connections
import Tdm.Server.ConnectionsProgress
import Tdm.Server.ConnectionsTheorems
import Tdm.Thread.Blocks
import Tdm.Thread.Dispatch
import Tdm.Thread.Ownership
import Tdm.Thread.ThreadInit
import Tdm.Thread.Traffic
import Tdm.Thread.Workers
import Tdm.Thread.WorkersFlow
import Tdm.Thread.WorkersInvariant
import Tdm.Thread.WorkersProgress
import Tdm.Thread.WorkersRun
import Tdm.Thread.WorkersTheorems
import Tdm.Threadpool.Pool
import Tdm.Threadpool.PoolControl
import Tdm.Threadpool.PoolFifo
import Tdm.Threadpool.PoolInvariant
import Tdm.Threadpool.PoolJobs
import Tdm.Threadpool.PoolProgress
import Tdm.Threadpool.PoolRun
import Tdm.Threadpool.PoolShutdown
import Tdm.Threadpool.PoolTheorems
import Tdm.Time.AddDays
import Tdm.Time.AddMonth
import Tdm.Time.AddMonths
import Tdm.Time.AddSeconds
import Tdm.Time.Compare
import Tdm.Time.Daylight
import Tdm.Time.Intervals
import Tdm.Time.Lunar
import Tdm.Time.MonthDays
import Tdm.Time.TimeText
import Tdm.Time.Timecomm
import Tdm.Time.TimetValid
