import Connio.SyncSlots
import Connio.Transaction
import Connio.UnlockedAbort
import Connio.Progress
import Connio.Abort
import Connio.Duplex
import Connio.Cancelling
import Connio.Send
import Connio.Throttle
import Connio.ReadSplit
import Connio.ReadApi
import Connio.AsyncApi
import Connio.SslDisconnect
import Connio.SyncApi
import Connio.OutboundOrder
import Connio.Messages
import Connio.ListenerShutdown
import Connio.SocketCallbacks
import Connio.ListenerChildren
import Connio.ListenerRecordsInv
import Connio.PollExpiry
import Connio.PollLifetime
import Connio.ThreadStarts
import Connio.EventLockDiscipline
import Connio.Traversal
import Connio.HandleShutdown
import Connio.HandleAlloc
import Connio.ListenerCalls
import Connio.ListenerBook
import Connio.ListenerRemoval
import Connio.SocFactory
import Connio.EventTimersRun
import Connio.Recycle
import Connio.RecycleInv
import Connio.Session
import Connio.Stream
import Connio.StreamInv
import Connio.Secured
import Connio.StartTls
import Connio.TimeoutWheel
import Connio.ReadToConn
import Connio.EatPeek
import Connio.WriteRuns
import Connio.CountedRuns
import Connio.SslErrors
import Connio.Disconnects
import Connio.SummaryCounts
import Connio.Connects
import Connio.Accepting
import Connio.ServerCertificate
import Connio.ListenerRestart
import Connio.ListenerSweep
import Connio.ListenerExpiry
import Connio.FileWriterEos
import Connio.Formatted
import Connio.ClientBuffer
import Connio.LogMessage
import Connio.ConnList
import Connio.AcceptEvents
import Connio.TimeoutLinks
import Connio.TimeoutRefinement
import Connio.Traces
import Connio.TraceBuffer
import Connio.TraceFile
import Connio.ThreadLogs
import Connio.FormattedMemory
import Connio.LeakReport
import Connio.CallbackAccount
import Connio.Settling
import Connio.FileTransfer
import Connio.PollService
import Connio.CompletionPort
import Connio.PortListenerKill
