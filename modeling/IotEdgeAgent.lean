import IotEdgeAgent.Library.Base128
import IotEdgeAgent.Library.Binary64
import IotEdgeAgent.Library.ByteFormat
import IotEdgeAgent.Library.ByteWalk
import IotEdgeAgent.Library.Items
import IotEdgeAgent.Library.Collect
import IotEdgeAgent.Library.Crc
import IotEdgeAgent.Library.Custody
import IotEdgeAgent.Library.Descent
import IotEdgeAgent.Library.Loops
import IotEdgeAgent.Library.Feed
import IotEdgeAgent.Library.Keys
import IotEdgeAgent.Library.Logged
import IotEdgeAgent.Library.Runs
import IotEdgeAgent.Library.Separated
import IotEdgeAgent.Library.Strings
import IotEdgeAgent.Library.Tickets
import IotEdgeAgent.Library.Utf8
import IotEdgeAgent.Dlt698.Checksum
import IotEdgeAgent.Dlt698.FcsTable
import IotEdgeAgent.Dlt698.BurstErrors
import IotEdgeAgent.Dlt698.DataLen
import IotEdgeAgent.Dlt698.DataFormat
import IotEdgeAgent.Dlt698.DataLenExact
import IotEdgeAgent.Dlt698.LengthField
import IotEdgeAgent.Dlt698.LinkFrame
import IotEdgeAgent.Dlt698.Request
import IotEdgeAgent.Dlt698.Response
import IotEdgeAgent.Dlt698.ResponseBounds
import IotEdgeAgent.Dlt698.Extraction
import IotEdgeAgent.Dlt698.Payload
import IotEdgeAgent.Dlt698.Nesting
import IotEdgeAgent.Dlt698.ChecksumWork
import IotEdgeAgent.Dlt698.Conversion
import IotEdgeAgent.Dlt698.TwoWalks
import IotEdgeAgent.Dlt698.ReadingValues
import IotEdgeAgent.Dlt698.TextRoom
import IotEdgeAgent.Dlt698.UnitText
import IotEdgeAgent.Dlt698.CrossTalk
import IotEdgeAgent.Protocol.Manager
import IotEdgeAgent.Channel.RequestThread
import IotEdgeAgent.Channel.Attribution
import IotEdgeAgent.Channel.Delivery
import IotEdgeAgent.Channel.Timeline
import IotEdgeAgent.Channel.Outstanding
import IotEdgeAgent.Channel.Timeouts
import IotEdgeAgent.Channel.Unsolicited
import IotEdgeAgent.Channel.Polls
import IotEdgeAgent.Channel.FreezeWindow
import IotEdgeAgent.Channel.TimedMode
import IotEdgeAgent.Channel.PollingRate
import IotEdgeAgent.Channel.RoundRobin
import IotEdgeAgent.Serial.SerialIo
import IotEdgeAgent.Serial.Transmit
import IotEdgeAgent.Serial.TransmitLoop
import IotEdgeAgent.Serial.Receive
import IotEdgeAgent.Serial.Descriptors
import IotEdgeAgent.Mqtt.RetryLogic
import IotEdgeAgent.Mqtt.Client
import IotEdgeAgent.Mqtt.QueueAndStore
import IotEdgeAgent.Mqtt.Retention
import IotEdgeAgent.Mqtt.Replay
import IotEdgeAgent.Mqtt.PublishCallbacks
import IotEdgeAgent.Mqtt.Drawing
import IotEdgeAgent.Mqtt.PacketIds
import IotEdgeAgent.Mqtt.Transport
import IotEdgeAgent.Mqtt.Session
import IotEdgeAgent.Mqtt.SessionInvariant
import IotEdgeAgent.Mqtt.Spacing
import IotEdgeAgent.Mqtt.BackOff
import IotEdgeAgent.Mqtt.Connecting
import IotEdgeAgent.Mqtt.GivingUp
import IotEdgeAgent.Mqtt.SqliteStore
import IotEdgeAgent.Mqtt.FailedSubscribe
import IotEdgeAgent.Agent.Parson
import IotEdgeAgent.Agent.ModelParsers
import IotEdgeAgent.Agent.MissingStrings
import IotEdgeAgent.Agent.CharArrays
import IotEdgeAgent.Agent.ChannelTexts
import IotEdgeAgent.Agent.Binding
import IotEdgeAgent.Agent.IotMain
import IotEdgeAgent.Agent.ModelOrder
import IotEdgeAgent.Agent.ChannelHistory
import IotEdgeAgent.Agent.Ownership
import IotEdgeAgent.Agent.IoteaClient
import IotEdgeAgent.Agent.BrokerAddress
import IotEdgeAgent.Agent.Subscription
import IotEdgeAgent.Agent.IoteaConnect
import IotEdgeAgent.Agent.GivingUp
import IotEdgeAgent.Agent.DataCreate
import IotEdgeAgent.Agent.ScheduleTables
import IotEdgeAgent.Agent.ScheduleIndices
import IotEdgeAgent.Agent.RequestTexts
import IotEdgeAgent.Modbus.Master
import IotEdgeAgent.Modbus.Requests
import IotEdgeAgent.Modbus.Response
import IotEdgeAgent.Modbus.Values
import IotEdgeAgent.Agent.RejectedModels
import IotEdgeAgent.Retry.RetryControl
import IotEdgeAgent.Retry.RecordedTime
import IotEdgeAgent.Retry.WaitTimes
import IotEdgeAgent.Umqtt.Codec
import IotEdgeAgent.Umqtt.CodecInvariant
import IotEdgeAgent.Umqtt.Stream
import IotEdgeAgent.Umqtt.Packets
import IotEdgeAgent.Umqtt.Receive
import IotEdgeAgent.Umqtt.Reception
import IotEdgeAgent.Umqtt.Publishing
import IotEdgeAgent.Umqtt.Subscribing
import IotEdgeAgent.Umqtt.Connect
import IotEdgeAgent.Umqtt.KeepAlive
import IotEdgeAgent.Json.Value
import IotEdgeAgent.Json.Documents
import IotEdgeAgent.Json.Parser
import IotEdgeAgent.Json.Quoted
import IotEdgeAgent.Json.RoundTrip
import IotEdgeAgent.Json.Accepted
import IotEdgeAgent.Json.Utf8
import IotEdgeAgent.Json.Utf8Strings
import IotEdgeAgent.Json.Payload
import IotEdgeAgent.Modbus.Noise
