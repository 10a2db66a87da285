import MultithreadedChat.Foundation.TransitionSystem
import MultithreadedChat.Foundation.ConditionVariable
import MultithreadedChat.Foundation.CriticalSections
import MultithreadedChat.Foundation.Demand
import MultithreadedChat.Foundation.Commutation
import MultithreadedChat.Foundation.LinkedList
import MultithreadedChat.Foundation.ChainTable
import MultithreadedChat.Foundation.CString
import MultithreadedChat.Foundation.Words
import MultithreadedChat.Foundation.ByteBuffer
import MultithreadedChat.Foundation.Fifo
import MultithreadedChat.Foundation.ChainedSet
import MultithreadedChat.Foundation.CheckedArray
import MultithreadedChat.Foundation.ActivityLog
import MultithreadedChat.Foundation.StackMemory
import MultithreadedChat.Foundation.Mailbox
import MultithreadedChat.Foundation.Rendezvous
import MultithreadedChat.Command
import MultithreadedChat.Queue
import MultithreadedChat.MessageWords
import MultithreadedChat.QueueFifo
import MultithreadedChat.QueueWakeups
import MultithreadedChat.CommandMemory
import MultithreadedChat.WireFormat
import MultithreadedChat.Listener
import MultithreadedChat.Intake
import MultithreadedChat.Server.Monitor
import MultithreadedChat.Server.MonitorCounters
import MultithreadedChat.Server.MonitorProgress
import MultithreadedChat.Server.ClientList
import MultithreadedChat.Server.Handlers
import MultithreadedChat.Server.Registry
import MultithreadedChat.Server.Sequential
import MultithreadedChat.Server.History
import MultithreadedChat.Server.ChatService
import MultithreadedChat.Server.Identity
import MultithreadedChat.Server.ManagerPass
import MultithreadedChat.Server.SilentClients
import MultithreadedChat.Server.JoinedText
import MultithreadedChat.Server.WholeWords
import MultithreadedChat.Server.TypedText
import MultithreadedChat.Server.ResponseBuffers
import MultithreadedChat.Server.Privacy
import MultithreadedChat.Server.Workers
import MultithreadedChat.Server.ListSections
import MultithreadedChat.Server.UnstampedList
import MultithreadedChat.Server.Concurrent
import MultithreadedChat.Server.WholeSections
import MultithreadedChat.Server.GuardedList
import MultithreadedChat.Server.LiveNodes
import MultithreadedChat.Server.Provenance
import MultithreadedChat.Server.Program
import MultithreadedChat.Server.Seniority
import MultithreadedChat.Server.KickAuthority
import MultithreadedChat.Server.StaleNodes
import MultithreadedChat.Server.WorkerSteps
import MultithreadedChat.Server.Inactivity
import MultithreadedChat.Server.WorkerPool
import MultithreadedChat.Server.BroadcastOrder
import MultithreadedChat.Server.HistoryRace
import MultithreadedChat.Server.Joining
import MultithreadedChat.Client.MuteTable
import MultithreadedChat.Client.MuteChains
import MultithreadedChat.Client.Handlers
import MultithreadedChat.Client.MessageLog
import MultithreadedChat.Client.Joiners
import MultithreadedChat.Client.Relay
import MultithreadedChat.Client.Muting
import MultithreadedChat.Client.NameAgreement
import MultithreadedChat.Client.LengthBudget
import MultithreadedChat.Client.InputThreads
import MultithreadedChat.Client.Sections
import MultithreadedChat.Client.ResponseOrder
import MultithreadedChat.Client.JoinBuffer
import MultithreadedChat.Client.HandlerOrder
import MultithreadedChat.Client.Display
import MultithreadedChat.Client.Program
import MultithreadedChat.ChatNetwork
import MultithreadedChat.Conversation
import MultithreadedChat.ChatSystem
import MultithreadedChat.ArgumentArrays
