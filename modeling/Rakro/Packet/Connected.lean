import Rakro.Internal.BinaryBuffer
import Rakro.Packet.PacketId
import Mathlib.Data.UInt

/-!
# The messages of a connected peer

Addresses and the messages that travel inside frames. Where the source throws on a direction it does
not implement, so does the codec here.
-/

namespace Rakro

open Infra

/-- `IPV4Addr`: the two fields of `sockaddr_in` that its comparison looks at, as they lie there. -/
structure IPV4Addr where
  sAddr : UInt32 := 0
  sinPort : UInt16 := 0
  deriving DecidableEq, Repr

/-- `RakAddress`: an address as the messages carry it. -/
structure RakAddress where
  ip : UInt32
  port : UInt16
  deriving DecidableEq, Repr

namespace RakAddress

/-- The fields of the socket address, reinterpreted as host integers. -/
def fromIpv4 (address : IPV4Addr) : RakAddress where
  ip := address.sAddr
  port := address.sinPort

/-- The tag byte 4, then the address and the port. Anything else is no address. -/
def readTagged : BufM (Option RakAddress) := do
  let tag ← nextByte
  if tag ≠ 4 then pure none
  else do
    let ip ← readNext UInt32
    let port ← readNext UInt16
    return some { ip, port }

/-- `from_bytes`, which decodes through a buffer of its own over the slice. -/
def fromBytes (address : Bytes) : Except Exn (Option RakAddress) :=
  if address.length < 7 then .ok none
  else
    match readTagged.run (.ofRented { memory := address }) with
    | .ok rakAddress _ => .ok rakAddress
    | .error e _ => .error e

end RakAddress

instance : BinaryData RakAddress where
  write self := do
    write (4 : UInt8)
    write self.ip
    write self.port
  read := do
    let tag ← readNextPeak UInt8
    if tag ≠ 4 then throw (.runtimeError "invalid IP")
    else do
      let b ← get
      match RakAddress.fromBytes b.remainingSlice with
      | .ok (some address) => pure address
      | .ok none => throw .badOptionalAccess
      | .error e => throw e
  size _ := 7

/-- The first message of a connected peer, which asks for the connection proper. -/
structure ConnectionRequest where
  clientGuid : UInt64
  requestTimestamp : UInt64
  secure : Bool := false
  deriving DecidableEq, Repr

instance : BinaryData ConnectionRequest where
  write _ := throw (.logicError "unimplemented")
  read := do
    let clientGuid ← readNext UInt64
    let requestTimestamp ← readNext UInt64
    let secure ← readNext Bool
    return { clientGuid, requestTimestamp, secure }
  size _ := 10

/-- The answer to a `ConnectionRequest`. -/
structure ConnectionRequestAccepted where
  clientAddress : RakAddress
  clientReqTime : UInt64 := 0
  serverUpTime : UInt64 := 0
  deriving DecidableEq, Repr

instance : BinaryData ConnectionRequestAccepted where
  write self := do
    write PacketId.connectionRequestAccepted.toUnderlying
    write self.clientAddress
    write (0 : UInt16)
    (List.replicate 20 ({ ip := 0xFFFFFFFF, port := 19132 } : RakAddress)).forM write
    write self.clientReqTime
    write self.serverUpTime
  read := throw (.logicError "unimplemented")
  size _ := 7 + 2 + 7 * 20 + 8 + 8 + 1

/-- A ping inside a frame. -/
structure ConnectedPing where
  timeSinceStart : UInt64 := 0
  deriving DecidableEq, Repr

instance : BinaryData ConnectedPing where
  write _ := throw (.logicError "unimplemented")
  read := do return { timeSinceStart := ← readNext UInt64 }
  size _ := 8

/-- The answer to a `ConnectedPing`, with the ping's time and the server's. -/
structure ConnectedPong where
  timeSinceStart : UInt64 := 0
  timeSinceServerStart : UInt64 := 0
  deriving DecidableEq, Repr

instance : BinaryData ConnectedPong where
  write self := do
    write self.timeSinceStart
    write self.timeSinceServerStart
  read := throw (.logicError "Unimplemented")
  size _ := 16

end Rakro
