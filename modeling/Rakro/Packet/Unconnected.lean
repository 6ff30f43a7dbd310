import Rakro.Packet.Connected

/-!
# The messages before the connection

What an address and the server send each other until the address is connected. The server only reads
the requests and only writes the replies, and where the source throws on the other direction, so does
the codec here.
-/

namespace Rakro

/-! ## The magic bytes -/

/-- `std::array<uint8_t, 16>`, the type of the constant `Magic`. -/
def MagicType : Type := Vector UInt8 16

/-- `Magic`, which marks the messages of an address that is not connected. -/
def magic : MagicType :=
  #v[0x00, 0xff, 0xff, 0x00, 0xfe, 0xfe, 0xfe, 0xfe, 0xfd, 0xfd, 0xfd, 0xfd, 0x12, 0x34, 0x56, 0x78]

/-- `count` reads whose results are dropped. -/
def discard {α : Type} (method : BufM α) : (count : Nat) → BufM PUnit
  | 0 => pure ⟨⟩
  | count + 1 => do
    let _ ← method
    discard method count

/-- The reader takes any sixteen bytes for the magic ones, and the writer always writes those. -/
instance : BinaryData MagicType where
  write _ := magic.toList.forM writeByte
  read := do
    discard nextByte 16
    return magic
  size _ := 16

/-! ## Pings -/

/-- A ping from anyone. -/
structure UnconnectedPing where
  time : UInt64 := 0
  clientGuid : UInt64 := 0
  deriving DecidableEq, Repr

instance : BinaryData UnconnectedPing where
  write self := do
    write self.time
    write magic
    write self.clientGuid
  read := do
    let time ← readNext UInt64
    let _ ← readNext MagicType
    let clientGuid ← readNext UInt64
    return { time, clientGuid }
  size _ := 16 + 16

/-- The answer to an `UnconnectedPing`, with what the server calls itself. -/
structure UnconnectedPong where
  time : UInt64
  serverGuid : UInt64
  serverId : StdString
  deriving DecidableEq, Repr

instance : BinaryData UnconnectedPong where
  write self := do
    write PacketId.unconnectedPong.toUnderlying
    write self.time
    write self.serverGuid
    write magic
    write self.serverId
  read := throw (.logicError "Unhandled")
  size
    | some pong => 16 + 8 * 2 + (BinaryData.size (some pong.serverId) + 1) + 2
    | none => 16 + 8 * 2 + 2 + 2

/-! ## The first request -/

/-- The first request, which states the protocol version and tries an MTU. -/
structure OpenConnectionRequest1 where
  protoVersion : UInt8
  mtu : UInt16 := 0
  deriving DecidableEq, Repr

/-- The length of the datagram is what its sender wants for an MTU. -/
instance : BinaryData OpenConnectionRequest1 where
  write _ := throw (.logicError "Unimplemented")
  read := do
    let _ ← readNext MagicType
    let protoVersion ← readNext UInt8
    let buffer ← get
    let mtu := UInt16.ofNat buffer.bytes.length
    discard (readNext UInt8) buffer.remaining
    return { protoVersion, mtu }
  size _ := 100

/-- The answer to an `OpenConnectionRequest1` of the server's own version. -/
structure OpenConnectionReply1 where
  serverGuid : UInt64 := 0xDEADC0DE
  mtu : UInt16 := 0
  deriving DecidableEq, Repr

instance : BinaryData OpenConnectionReply1 where
  write self := do
    write PacketId.openConnectionReply1.toUnderlying
    write magic
    write self.serverGuid
    write false
    write self.mtu
  read := throw (.logicError "unimplemented")
  size _ := 16 + 2 + 16

/-- The answer to an `OpenConnectionRequest1` of another version. -/
structure IncompatibleProtocol where
  clientProtocol : UInt8 := 0
  serverGuid : UInt64 := 0
  deriving DecidableEq, Repr

instance : BinaryData IncompatibleProtocol where
  write self := do
    write PacketId.incompatibleProtocol.toUnderlying
    write self.clientProtocol
    write magic
    write self.serverGuid
  read := throw (.logicError "unimplemented")
  size _ := 1 + 1 + 16 + 8

/-! ## The second request -/

/-- The second request, which settles the MTU and makes the client. -/
structure OpenConnectionRequest2 where
  mtu : UInt16 := 0
  clientGuid : UInt64 := 0
  deriving DecidableEq, Repr

instance : BinaryData OpenConnectionRequest2 where
  write _ := throw (.logicError "Unimplemented")
  read := do
    let _ ← readNext MagicType
    let _ ← readNext RakAddress
    let mtu ← readNext UInt16
    let clientGuid ← readNext UInt64
    return { mtu, clientGuid }
  size _ := 33

/-- The answer to an `OpenConnectionRequest2`. -/
structure OpenConnectionReply2 where
  serverGuid : UInt64 := 0xDEADC0DE
  mtu : UInt16 := 0
  clientAddress : RakAddress := { ip := 0, port := 0 }
  deriving DecidableEq, Repr

instance : BinaryData OpenConnectionReply2 where
  write self := do
    write PacketId.openConnectionReply2.toUnderlying
    write magic
    write self.serverGuid
    write self.clientAddress
    write self.mtu
    write false
  read := throw (.logicError "unimplemented")
  size _ := 8 + 2 + 7 + 16 + 1 + 1

end Rakro
