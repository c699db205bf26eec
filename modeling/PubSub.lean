import PubSub.Foundations.Transition
import PubSub.Foundations.DataRefinement
import PubSub.Foundations.Termination
import PubSub.Foundations.RunLog
import PubSub.Foundations.BoundedFifo
import PubSub.Foundations.LockOrder
import PubSub.Foundations.LinkedStore
import PubSub.Foundations.Traversal
import PubSub.Foundations.Ring
import PubSub.Foundations.CString
import PubSub.Foundations.SizedCalls
import PubSub.Foundations.Framing
import PubSub.Foundations.Outcome
import PubSub.Foundations.Decimal
import PubSub.Foundations.Tokens
import PubSub.Foundations.TerminatedStream
import PubSub.Common
import PubSub.Client.CommandCreation
import PubSub.Broker.MessageQueue
import PubSub.Broker.OutgoingBuffer
import PubSub.Broker.QueueRefinement
import PubSub.Broker.Sending
import PubSub.Broker.SocketList
import PubSub.Broker.Threads
import PubSub.Broker.BufferInvariant
import PubSub.Broker.BufferRefinement
import PubSub.Broker.Conservation
import PubSub.Broker.Pipeline
import PubSub.Broker.ShutDown
import PubSub.Broker.QueueLoop
import PubSub.Broker.BufferLoops
import PubSub.Broker.WakeUps
import PubSub.Broker.LockOrder
import PubSub.Broker.Delivery
import PubSub.Broker.CommandExecution
import PubSub.Broker.MainLoop
import PubSub.Broker.LinkedLists
import PubSub.Broker.BrokerMemory
import PubSub.Broker.CountedList
import PubSub.Broker.PollingPass
import PubSub.Broker.Teardown
import PubSub.Broker.SubscriberBound
import PubSub.Broker.Segmentation
import PubSub.Broker.ReceiveBounds
import PubSub.Broker.Dispatch
import PubSub.Broker.Containment
import PubSub.Broker.Responses
import PubSub.Broker.Progress
import PubSub.Broker.Draining
import PubSub.Broker.Stopping
import PubSub.Broker.Service
import PubSub.Broker.Serving
import PubSub.Broker.Subscriptions
import PubSub.Broker.ListCalls
import PubSub.Broker.Broadcasting
import PubSub.Broker.Receiving
import PubSub.Broker.Walking
import PubSub.Broker.Delivering
import PubSub.Broker.Connections
import PubSub.StatsManager.NotificationHandling
import PubSub.StatsManager.FileUpdating
import PubSub.StatsManager.StatsBuffer
import PubSub.StatsManager.FileFailures
import PubSub.StatsManager.StatsFile
import PubSub.StatsManager.MainLoop
import PubSub.StatsManager.Counting
import PubSub.StatsManager.Abandoning
import PubSub.StatsManager.Accounting
import PubSub.Client.ClientLoop
import PubSub.Client.ReceiveBounds
import PubSub.Client.Demultiplexing
import PubSub.Conversing
import PubSub.Answering
import PubSub.Subscribing
import PubSub.Agreement
import PubSub.Reporting
import PubSub.Statistics
