import Rakro.Infra.Program
import Rakro.Infra.Simulation
import Rakro.Infra.Bytes
import Rakro.Infra.Turns
import Rakro.Infra.Holdings
import Rakro.Infra.Transition
import Rakro.Infra.Records
import Rakro.Infra.Fuel
import Rakro.Infra.Oracle
import Rakro.Infra.Budget
import Rakro.Infra.Erasing
import Rakro.Internal.Int24
import Rakro.Internal.BufferCompany
import Rakro.Internal.RentedObjects
import Rakro.Internal.BufferThreads
import Rakro.Internal.BinaryBuffer
import Rakro.Packet.PacketId
import Rakro.Packet.FrameSet
import Rakro.Packet.Ack
import Rakro.Packet.Nack
import Rakro.Packet.Connected
import Rakro.Packet.Unconnected
import Rakro.Server.World
import Rakro.Server.ServerClient
import Rakro.Server.ClientRouter
import Rakro.Server.Server
import Rakro.Roundtrip.Cursor
import Rakro.Roundtrip.Integer
import Rakro.Roundtrip.FrameInfo
import Rakro.Roundtrip.Ack
import Rakro.Roundtrip.Nack
import Rakro.Roundtrip.Sequence
import Rakro.Roundtrip.Connected
import Rakro.Roundtrip.Unconnected
import Rakro.Roundtrip.ReadyBuffer
import Rakro.Roundtrip.Strings
import Rakro.Roundtrip.NetworkOrder
import Rakro.Properties.AllPackets
import Rakro.Properties.Codec
import Rakro.Properties.TypedAccess
import Rakro.Properties.Peeking
import Rakro.Properties.Backing
import Rakro.Properties.Ownership
import Rakro.Properties.PoolLevel
import Rakro.Properties.PoolConservation
import Rakro.Properties.ConcurrentRent
import Rakro.Properties.RenterWaits
import Rakro.Properties.Effect
import Rakro.Properties.ProcessData
import Rakro.Properties.OrderedDelivery
import Rakro.Properties.FrameLoop
import Rakro.Properties.FrameSet
import Rakro.Properties.CompleteParsing
import Rakro.Properties.BodySlices
import Rakro.Spec.SequenceWindow
import Rakro.Properties.Window
import Rakro.Properties.AtMostOnce
import Rakro.Properties.FrameReturns
import Rakro.Properties.NoLoss
import Rakro.Properties.RouteReturns
import Rakro.Properties.ServerStep
import Rakro.Properties.Handshake
import Rakro.Properties.HandlePacket
import Rakro.Properties.Raises
import Rakro.Properties.OrderChannels
import Rakro.Properties.Outgoing
import Rakro.Properties.Acknowledged
import Rakro.Properties.SequencedDelivery
import Rakro.Properties.CounterWrap
import Rakro.Properties.Reconnect
import Rakro.Properties.Readings
import Rakro.Properties.ElapsedTime
import Rakro.Properties.OwnedViews
import Rakro.Properties.Twins
import Rakro.Properties.Mirrors
import Rakro.Properties.Isolation
import Rakro.Properties.AllOrNothing
import Rakro.Properties.Arithmetic24
import Rakro.Properties.Retransmission
import Rakro.Properties.Lanes
import Rakro.Properties.RecordHighs
import Rakro.Properties.Termination
import Rakro.Properties.ProcessAck
import Rakro.Properties.Rejected
import Rakro.Properties.Echo
import Rakro.Properties.AnyMagic
import Rakro.Properties.Replies
import Rakro.Properties.PacketReplies
import Rakro.Properties.Conversation
import Rakro.Properties.Instrument
import Rakro.Spec.ConnectionTable
import Rakro.Properties.Sessions
import Rakro.Properties.Availability
import Rakro.Properties.Served
import Rakro.Properties.NoLeak
import Rakro.Properties.Preconditions
import Rakro.Properties.ServerPreconditions
import Rakro.Properties.Retained
import Rakro.Properties.ServerWindow
