import RocketMQ.Base.Run
import RocketMQ.Base.Simulation
import RocketMQ.Base.ReentrantLock
import RocketMQ.Base.CasLoop
import RocketMQ.Base.KeyedMap
import RocketMQ.Base.LogCursor
import RocketMQ.Base.MaxRegister
import RocketMQ.Base.Custody
import RocketMQ.Base.Bytes
import RocketMQ.Base.ByteOrder
import RocketMQ.Base.Decimal
import RocketMQ.Base.Json
import RocketMQ.Base.JsonText
import RocketMQ.Base.Loop
import RocketMQ.Base.FairShares
import RocketMQ.Base.KeySort
import RocketMQ.Base.RefillGate
import RocketMQ.Base.Objects
import RocketMQ.Base.Search
import RocketMQ.Base.Segments
import RocketMQ.Base.WriteLog
import RocketMQ.Base.SerialOrder
import RocketMQ.Base.Streaming
import RocketMQ.Base.Substring
import RocketMQ.Message.MessageQueue
import RocketMQ.Message.Message
import RocketMQ.Message.MessageDecoder
import RocketMQ.Message.PropertyBlock
import RocketMQ.Message.DecodeRecords
import RocketMQ.Message.DecodeSafety
import RocketMQ.Message.MessageId
import RocketMQ.Common.VirtualEnv
import RocketMQ.Transport.RemotingCommand
import RocketMQ.Common.RefCount
import RocketMQ.Common.ThreadPool
import RocketMQ.Common.TimerThread
import RocketMQ.Transport.SendCmd
import RocketMQ.Transport.ResponseTable
import RocketMQ.Transport.ProcessData
import RocketMQ.Transport.ResponseDelivery
import RocketMQ.Transport.AsyncCompletion
import RocketMQ.Transport.TcpTransport
import RocketMQ.Transport.Reassembly
import RocketMQ.Transport.FrameExtraction
import RocketMQ.Transport.TransportTable
import RocketMQ.Transport.TornWrite
import RocketMQ.Transport.ShrinkBuffer
import RocketMQ.Factory.BrokerTable
import RocketMQ.Factory.SubscribeAddress
import RocketMQ.Factory.TryLock
import RocketMQ.Factory.TopicRoute
import RocketMQ.Factory.RouteUpdate
import RocketMQ.Factory.RouteNeed
import RocketMQ.Factory.CleanOfflineBroker
import RocketMQ.Factory.LiveAddresses
import RocketMQ.Factory.RouteChange
import RocketMQ.Factory.PublishQueues
import RocketMQ.Factory.OrderTopicConf
import RocketMQ.Factory.DefaultRoute
import RocketMQ.Factory.Lifecycle
import RocketMQ.Factory.FactoryMoves
import RocketMQ.Factory.FactoryLifetime
import RocketMQ.Factory.Heartbeat
import RocketMQ.Consumer.ProcessQueue
import RocketMQ.Consumer.OffsetStore
import RocketMQ.Consumer.IncreaseOnly
import RocketMQ.Consumer.PullFromWhere
import RocketMQ.Common.MQException
import RocketMQ.Common.TimerTaskManager
import RocketMQ.Common.Validators
import RocketMQ.Message.TopicLength
import RocketMQ.Consumer.PullMessage
import RocketMQ.Consumer.PullLoop
import RocketMQ.Consumer.Concurrently
import RocketMQ.Consumer.Transaction
import RocketMQ.Consumer.Orderly
import RocketMQ.Consumer.OrderlyAutoCommit
import RocketMQ.Consumer.OrderlyStranded
import RocketMQ.Consumer.OrderlyReferences
import RocketMQ.Consumer.TakePut
import RocketMQ.Consumer.MessageCount
import RocketMQ.Consumer.BufferCount
import RocketMQ.Consumer.FlowControl
import RocketMQ.Consumer.DroppedOffset
import RocketMQ.Consumer.OffsetHandOver
import RocketMQ.Consumer.Allocate
import RocketMQ.Consumer.AtLeastOnce
import RocketMQ.Consumer.GroupRebalance
import RocketMQ.Consumer.ConsumerIds
import RocketMQ.Consumer.RebalanceTable
import RocketMQ.Consumer.QueueDelivery
import RocketMQ.Consumer.QueueOrder
import RocketMQ.Consumer.QueuesByBroker
import RocketMQ.Consumer.RebalanceByTopic
import RocketMQ.Consumer.ConsumeBatches
import RocketMQ.Consumer.ConsumeResult
import RocketMQ.Producer.TopicPublishInfo
import RocketMQ.Producer.Send
import RocketMQ.Producer.SendAcknowledged
import RocketMQ.Producer.SendBody
import RocketMQ.Producer.SendRotation
import RocketMQ.Producer.FindPublishInfo
import RocketMQ.Producer.SelectQueue
import RocketMQ.Protocol.CommandCustomHeader
import RocketMQ.Consumer.SubscriptionData
import RocketMQ.Common.OutBuffer
import RocketMQ.Common.Compression
import RocketMQ.Common.FilterAPI
import RocketMQ.Common.SplitPieces
import RocketMQ.Common.PublicIp
import RocketMQ.Consumer.FilterAgain
import RocketMQ.Consumer.RetryTopic
import RocketMQ.Protocol.RemotingCommand
import RocketMQ.Protocol.RouteBody
import RocketMQ.Protocol.DecodeFrame
import RocketMQ.Protocol.DecodeHeader
import RocketMQ.Protocol.FrameRoundTrip
import RocketMQ.Protocol.EmittedTexts
import RocketMQ.Protocol.OnewayMark
import RocketMQ.Common.RecursiveMutex
import RocketMQ.Common.Monitor
import RocketMQ.Common.ServiceThread
import RocketMQ.Consumer.PullMessageService
import RocketMQ.Consumer.RebalanceService
import RocketMQ.Transport.EventLoop
import RocketMQ.Transport.WaitResponse
import RocketMQ.Consumer.OrderlyLock
