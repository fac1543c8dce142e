import CasualGame.Lib.Index
import CasualGame.Lib.Ledger
import CasualGame.Lib.Loop
import CasualGame.Lib.Run
import CasualGame.Lib.Relate
import CasualGame.Lib.Writes
import CasualGame.Lobby.Deck
import CasualGame.Lobby.Types
import CasualGame.Lobby.CalcRound
import CasualGame.Lobby.Rules
import CasualGame.Lobby.PairLoop
import CasualGame.Lobby.Settlement
import CasualGame.Lobby.Losers
import CasualGame.Lobby.RowScoring
import CasualGame.Lobby.Conservation
import CasualGame.Lobby.SpecialBrands
import CasualGame.Lobby.LosersShape
import CasualGame.Lobby.SeatOrder
import CasualGame.Lobby.Dealing
import CasualGame.Lobby.Messages
import CasualGame.Lobby.ClientManager
import CasualGame.Lobby.Room
import CasualGame.Lobby.Handlers
import CasualGame.Lobby.RoomSteps
import CasualGame.Lobby.LobbySteps
import CasualGame.Lobby.PlayedHands
import CasualGame.Lobby.AllRounds
import CasualGame.Lobby.WorldFrames
import CasualGame.Lobby.Admission
import CasualGame.Lobby.TimerLoop
import CasualGame.Lobby.Deals
import CasualGame.Lobby.LobbyActs
import CasualGame.Lobby.Logins
import CasualGame.Lobby.RoomMoves
import CasualGame.Lobby.Bookkeeping
import CasualGame.Lobby.Votes
import CasualGame.Lobby.Seats
import CasualGame.Lobby.Balances
import CasualGame.Lobby.TwoRuns
import CasualGame.Lobby.TwoLobbies
import CasualGame.Lobby.HiddenHands
import CasualGame.Lobby.Isolation
import CasualGame.Lobby.EndOfVote
import CasualGame.Lib.InFlight
import CasualGame.Lib.Backlog
import CasualGame.Lib.Blocks
import CasualGame.Lib.Framing
import CasualGame.Lib.LittleEndian
import CasualGame.Net.CircularQueue
import CasualGame.Net.TcpPacket
import CasualGame.Net.Parsing
import CasualGame.Net.ConnectionBuffer
import CasualGame.Net.Reader
import CasualGame.Net.Segmentation
import CasualGame.Net.ReadEvents
import CasualGame.Net.Closing
import CasualGame.Net.Sending
import CasualGame.Net.WriteEvents
import CasualGame.Net.Broadcast
import CasualGame.Net.Delivery
import CasualGame.Relay.TcpMessage
import CasualGame.Relay.Routing
import CasualGame.Relay.Gateway
import CasualGame.Relay.PublicPackets
import CasualGame.Relay.ToClients
import CasualGame.Sessions.LoginProtocol
import CasualGame.Sessions.Users
import CasualGame.Sessions.SessionSteps
import CasualGame.Sessions.OneSession
import CasualGame.Sessions.RepeatedLogin
import CasualGame.Sessions.ConnectionIds
import CasualGame.Lobby.SortedCards
import CasualGame.Lobby.Standings
import CasualGame.Lobby.Classifiers
import CasualGame.Lobby.ThreeCards
import CasualGame.Lobby.HeadRow
import CasualGame.Lib.SwapRemove
import CasualGame.Componet.FastTravelUnorderedMap
import CasualGame.Lib.Radix
import CasualGame.Lobby.RankGroups
import CasualGame.Lobby.FiveCards
import CasualGame.Lobby.PokerOrder
import CasualGame.Lib.Text
import CasualGame.Protocol.MessageCodes
import CasualGame.Lib.Decoding
import CasualGame.Componet.Values
import CasualGame.Componet.Serialize
import CasualGame.Componet.RoundTrip
import CasualGame.Base.ProcessId
import CasualGame.Base.PrivateConnectionChecker
import CasualGame.Base.Handshake
import CasualGame.Base.TcpConnectionManager
import CasualGame.Lobby.Multiplicities
import CasualGame.Lobby.PairScan
import CasualGame.Lib.Paths
import CasualGame.Lib.While
import CasualGame.Net.Draining
import CasualGame.Net.ExactParsing
import CasualGame.Lib.Reads
import CasualGame.Relay.InsidePacket
import CasualGame.Net.HttpPacket
import CasualGame.Net.HttpReadEvents
import CasualGame.Net.HttpFields
import CasualGame.Base.HttpConnectionManager
import CasualGame.Lib.Fifo
import CasualGame.Net.ByteFifo
import CasualGame.Componet.Event
import CasualGame.Componet.Timer
import CasualGame.Lib.Recency
import CasualGame.Componet.LimitedSizeUnorderedMapCache
import CasualGame.Componet.RawBuffer
import CasualGame.Componet.Overwriting
import CasualGame.Componet.MalformedInput
import CasualGame.Componet.TimerSchedules
import CasualGame.Componet.AStar
import CasualGame.Componet.PathSearch
import CasualGame.Componet.CheapestPath
import CasualGame.Lib.Ring
import CasualGame.Componet.CircularQueue
import CasualGame.Componet.LockFreeCircularQueueSPSC
import CasualGame.Net.QueueCalls
import CasualGame.Lib.Locks
import CasualGame.Componet.LockFreeCircularQueueMPMC
import CasualGame.Componet.ManyCalls
import CasualGame.Componet.ManyThreads
import CasualGame.Lib.Splitting
import CasualGame.Componet.StringKit
import CasualGame.Lib.Decimal
import CasualGame.Componet.Format
import CasualGame.Componet.IntegerTexts
import CasualGame.Net.Endpoint
import CasualGame.Net.SocketOwnership
import CasualGame.Net.Network
import CasualGame.Relay.Forwarding
import CasualGame.Lib.Slots
import CasualGame.Coroutine.Scheduler
import CasualGame.Coroutine.Rounds
import CasualGame.Componet.Logger
import CasualGame.Componet.StoppedWriter
import CasualGame.Sessions.OpenConnections
import CasualGame.Base.ProcessConfig
import CasualGame.Base.FlashSandboxHandler
import CasualGame.Base.TcpClient
import CasualGame.Base.Process
import CasualGame.Base.JoinThreads
import CasualGame.Http.UrlCode
import CasualGame.Http.HttpParse
import CasualGame.Http.HeaderEnd
import CasualGame.Http.RequestTarget
