import Qunet.Lib.Machine
import Qunet.Lib.Reorder
import Qunet.Lib.Channel
import Qunet.Message.Types
import Qunet.Message.QunetMessage
import Qunet.Message.RoundTrip
import Qunet.Transport.Error
import Qunet.Transport.Keepalive
import Qunet.Udp.ReliableStore
import Qunet.Udp.ReliableSteps
import Qunet.Udp.Reordering
import Qunet.Udp.Duplicates
import Qunet.Udp.AckSafety
import Qunet.Lib.Pieces
import Qunet.Udp.FragmentStore
import Qunet.Udp.Reassembly
import Qunet.Util.StatTracker
import Qunet.Udp.Transport
import Qunet.Udp.Receiving
import Qunet.Udp.Ordering
import Qunet.Udp.AckBounds
import Qunet.Udp.Sending
import Qunet.Udp.Fragmenting
import Qunet.Udp.Handshake
import Qunet.Message.Tiling
import Qunet.Udp.ControlMessages
import Qunet.Udp.HandshakeChunks
import Qunet.Lib.ByteQueue
import Qunet.Stream.Transport
import Qunet.Stream.Framing
import Qunet.Connection.Error
import Qunet.Stream.Progress
import Qunet.Lib.Task
import Qunet.Connection.State
import Qunet.Connection.Socket
import Qunet.Connection.Connecting
import Qunet.Connection.Worker
import Qunet.Connection.ConnectSteps
import Qunet.Connection.Rules
import Qunet.Connection.StateInvariant
import Qunet.Connection.Reconnecting
import Qunet.Connection.Reporting
import Qunet.Connection.Delivery
import Qunet.Connection.Disconnecting
import Qunet.Message.Iterating
import Qunet.Message.Lengths
import Qunet.Database.QunetDatabase
import Qunet.Quic.Stream
import Qunet.Quic.Closing
import Qunet.Connection.PlainSteps
import Qunet.Connection.History
import Qunet.Stream.Closed
import Qunet.Connection.PeerClosed
import Qunet.Connection.Compressing
import Qunet.Udp.Loss
import Qunet.Connection.SimulatedDrops
import Qunet.Udp.OutOfOrder
import Qunet.Udp.Retransmitting
import Qunet.Udp.FragmentExpiry
import Qunet.Database.WellFormed
import Qunet.Udp.ChunkCopies
import Qunet.Connection.PresetHeaders
import Qunet.Connection.Ports
import Qunet.Connection.Destinations
import Qunet.Util.SlidingBuffer
import Qunet.Util.Snapshot
import Qunet.Connection.PingRanking
import Qunet.Connection.UrlBounds
import Qunet.Connection.Families
import Qunet.Connection.UrlPath
import Qunet.Connection.Debounce
import Qunet.Ping.Pinger
import Qunet.Ping.Callbacks
import Qunet.Ping.PingCache
import Qunet.Udp.Channel
import Qunet.Udp.Recovery
import Qunet.Udp.Settling
import Qunet.Udp.Timer
import Qunet.Stream.Session
import Qunet.Quic.Session
import Qunet.Quic.SendAll
import Qunet.Udp.Wire
import Qunet.Udp.Rounds
import Qunet.Udp.Parties
import Qunet.Udp.Session
import Qunet.Connection.Dictionaries
import Qunet.Connection.Agreement
import Qunet.Dns.Resolver
import Qunet.Dns.Answers
