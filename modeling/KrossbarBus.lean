import KrossbarBus.Transition.Run
import KrossbarBus.Transition.History
import KrossbarBus.Collections.Table
import KrossbarBus.Collections.Mutex
import KrossbarBus.Matching.Segments
import KrossbarBus.Matching.Positions
import KrossbarBus.Hub.ServiceNames
import KrossbarBus.Hub.NameMatching
import KrossbarBus.Hub.FileSystem
import KrossbarBus.Hub.PathComponents
import KrossbarBus.Hub.Permissions
import KrossbarBus.Hub.ServiceFiles
import KrossbarBus.Hub.Messages
import KrossbarBus.Hub.Machine
import KrossbarBus.Hub.Steps
import KrossbarBus.Hub.Ownership
import KrossbarBus.Hub.RegistryHistory
import KrossbarBus.Hub.ContextLock
import KrossbarBus.Transition.Backlog
import KrossbarBus.Hub.PendingConnections
import KrossbarBus.Hub.StaleWaiters
import KrossbarBus.Hub.RequestHandling
import KrossbarBus.Hub.WaitingLine
import KrossbarBus.Hub.RequestLedger
import KrossbarBus.Hub.Answers
import KrossbarBus.Hub.Authorization
import KrossbarBus.Lib.State
import KrossbarBus.Lib.StateConvergence
import KrossbarBus.Lib.Service
import KrossbarBus.Lib.ServiceSteps
import KrossbarBus.Lib.Connect
import KrossbarBus.Hub.Offers
import KrossbarBus.Bus.Machine
import KrossbarBus.Lib.Handshakes
import KrossbarBus.Bus.Steps
import KrossbarBus.Bus.Wiring
import KrossbarBus.Bus.Calls
import KrossbarBus.Bus.Pairs
import KrossbarBus.Hub.Responses
import KrossbarBus.Hub.WrongEndpoints
import KrossbarBus.Hub.WaitingConnects
import KrossbarBus.Hub.Panics
import KrossbarBus.Hub.Unwraps
import KrossbarBus.Lib.Tracking
import KrossbarBus.Lib.Cancellation
import KrossbarBus.Lib.Clients
import KrossbarBus.Lib.SharedClients
import KrossbarBus.Lib.Event
import KrossbarBus.Lib.Reconnects
import KrossbarBus.Lib.Endpoints
import KrossbarBus.Lib.Serving
import KrossbarBus.Lib.Streams
import KrossbarBus.Lib.Conversations
import KrossbarBus.Lib.OutgoingCalls
import KrossbarBus.Broadcast.History
import KrossbarBus.Lib.Signal
import KrossbarBus.Lib.Emissions
import KrossbarBus.Hub.Withdrawals
import KrossbarBus.Hub.ConnectionChecks
import KrossbarBus.Collections.Drain
import KrossbarBus.Lib.AbandonedBroadcasts
import KrossbarBus.Lib.StateValues
import KrossbarBus.Bus.HubConnect
import KrossbarBus.Bus.Registrations
import KrossbarBus.Lib.AwaitedConnects
import KrossbarBus.Lib.HubOutcomes
import KrossbarBus.Transition.Inevitability
import KrossbarBus.Lib.Client
import KrossbarBus.Lib.PeerCalls
import KrossbarBus.Lib.LostPeers
import KrossbarBus.Hub.NamePatterns
import KrossbarBus.Monitor.ShortNames
import KrossbarBus.Hub.RegisteredNames
import KrossbarBus.Lib.Run
import KrossbarBus.Lib.UnserializableCalls
import KrossbarBus.Collections.Totals
import KrossbarBus.Hub.Progress
import KrossbarBus.Lib.StreamOrigins
import KrossbarBus.Hub.SocketPairs
import KrossbarBus.Bus.Peers
import KrossbarBus.Rendezvous.Machine
import KrossbarBus.Hub.Rendezvous
import KrossbarBus.Lib.Methods
import KrossbarBus.Lib.Invocations
import KrossbarBus.Connect.Session
import KrossbarBus.Connect.Commands
import KrossbarBus.Connect.Transcripts
import KrossbarBus.Bus.SocketPath
import KrossbarBus.Bus.Succession
import KrossbarBus.Bus.SharedPath
import KrossbarBus.Hub.RegistrationChecks
import KrossbarBus.Hub.Sections
import KrossbarBus.Matching.Wildcards
import KrossbarBus.Hub.PatternAlgebra
import KrossbarBus.Hub.WideningEdits
import KrossbarBus.Lib.Progress
import KrossbarBus.Lib.KeptPeers
import KrossbarBus.Lib.ServingProgress
import KrossbarBus.Lib.AwaitedCalls
import KrossbarBus.Bus.Underway
import KrossbarBus.Bus.Progress
import KrossbarBus.Collections.Places
import KrossbarBus.Linearization.Histories
import KrossbarBus.Lib.RemoteCalls
import KrossbarBus.Lib.HandedOnce
import KrossbarBus.Lib.Linearizability
