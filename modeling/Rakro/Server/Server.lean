import Rakro.Packet.Unconnected
import Rakro.Server.ClientRouter

/-!
# `RakServer`

The listener takes one datagram after the other from the socket. It answers the messages of addresses
that are about to connect itself and routes the others to the connected clients. Nothing handles an
exception on the way, so one that is thrown is the end of the run.
-/

namespace Rakro

open Infra

/-- `ServerConfig`. -/
structure ServerConfig where
  rentedBufferCount : Nat := 512
  rentedBufferSize : Nat := 2048
  rentedBlockBufferCount : Nat := 4
  deriving DecidableEq, Repr

/--
The server: its version, name and guid, the addresses between their two requests, the instrument,
the time of its start and the router.
-/
structure RakServer where
  protocolVersion : UInt8 := 6
  serverId : Option StdString := none
  serverGuid : UInt64 := 0xDEADC0DEAF012313
  midConnectionClients : AList fun _ : IPV4Addr => SemiConnectedClient := ∅
  instrument : Option DebugInstrument := none
  serverStartTime : UInt64 := 0
  router : ClientRouter := {}

/-- A server as its constructor leaves it, but for the settings. -/
def RakServer.IsFresh (server : RakServer) : Prop :=
  server =
    { protocolVersion := server.protocolVersion, serverId := server.serverId
      serverGuid := server.serverGuid, instrument := server.instrument
      serverStartTime := server.serverStartTime }

/-- The server and its surroundings. The buffer pool `renter` is the one of its clients. -/
structure ServerWorld where
  this : RakServer := {}
  host : Host

/-- A program on the server and its host. -/
abbrev ServerM := EStateM Exn ServerWorld

/-- The server that the constructor makes of a configuration. -/
def ServerWorld.new (config : ServerConfig) (ndebug : Bool) (clock : Clock) : ServerWorld where
  host :=
    { ndebug, clock
      company := .new config.rentedBufferCount config.rentedBufferSize
        config.rentedBlockBufferCount }

/-! ## Reaching outside -/

/-- A method of the router. -/
def onRouter {α : Type} (method : RouterM α) : ServerM α := fun w =>
  match method.run { router := w.this.router, host := w.host } with
  | .ok a rw => .ok a { this := { w.this with router := rw.router }, host := rw.host }
  | .error e rw => .error e { this := { w.this with router := rw.router }, host := rw.host }

/-- A method of the pool. -/
def modifyCompany (f : BufferCompany → BufferCompany) : ServerM PUnit :=
  modify fun w => { w with host := { w.host with company := f w.host.company } }

/-- A method of a local buffer. -/
def readFrom {α : Type} (buffer : BinaryBuffer) (method : BufM α) : ServerM (α × BinaryBuffer) :=
  fun w =>
    match method.run buffer with
    | .ok a buffer' => .ok (a, buffer') w
    | .error e _ => .error e w

/-- A method that writes into the memory behind a buffer. -/
def writeInto (buffer : BinaryBuffer) (method : BufM PUnit) : ServerM BinaryBuffer := do
  let (_, buffer) ← readFrom buffer method
  modifyCompany (·.keep buffer.realBuffer)
  pure buffer

/-- Notes an event in the trace. -/
def serverEmit (event : Event) : ServerM PUnit :=
  modify fun w => { w with host := { w.host with trace := w.host.trace ++ [event] } }

/-- `if (this->instrument) instrument->call(...)`. -/
def serverDebug (call : DebugCall) : ServerM PUnit := do
  if (← get).this.instrument.isSome then serverEmit (.debug call) else pure ⟨⟩

/-- `send_to`: the instrument sees the bytes before the socket takes them. -/
def serverSendTo (buffer : Bytes) (address : IPV4Addr) (sendingPacket : PacketId) :
    ServerM PUnit := do
  serverDebug (.onSend buffer sendingPacket.toUnderlying address)
  serverEmit (.sent buffer address)

/-! ## The messages of an address that connects -/

/-- `trival_packets`: the ids that anyone may send. -/
def trivalPackets : List UInt8 :=
  [PacketId.unconnectedPing1.toUnderlying, PacketId.unconnectedPing2.toUnderlying,
    PacketId.openConnectionRequest1.toUnderlying, PacketId.openConnectionRequest2.toUnderlying]

/-- `is_trivial_packet`, which peeks at the id. -/
def isTrivialPacket (buffer : BinaryBuffer) : ServerM Bool := do
  let (id, _) ← readFrom buffer (readNextPeak UInt8)
  return id ∈ trivalPackets

/-- The `case` of a ping. Its answer goes into the same buffer. -/
def unconnectedPing (buffer : BinaryBuffer) (address : IPV4Addr) : ServerM BinaryBuffer := do
  let (_, buffer) ← readFrom buffer (readNext UnconnectedPing)
  match (← get).this.serverId with
  | none => throw (.undefined "dereference of a null pointer")
  | some serverId => do
    let time ← onRouter routerTime
    let pong : UnconnectedPong := { time, serverId, serverGuid := (← get).this.serverGuid }
    let buffer ← writeInto buffer.clear (write pong)
    serverSendTo buffer.consumedSlice address .unconnectedPong
    pure buffer

/-- The reply to a first request: of a version that the server does not speak, or of its own. -/
def replyOne (ocr : OpenConnectionRequest1) (server : RakServer) : BufM PUnit :=
  if ocr.protoVersion ≠ server.protocolVersion then
    write
      ({ clientProtocol := ocr.protoVersion, serverGuid := server.serverGuid } :
        IncompatibleProtocol)
  else write ({ serverGuid := server.serverGuid, mtu := ocr.mtu } : OpenConnectionReply1)

/-- Whatever the reply was, the address is on its way to connect. -/
def openConnectionRequest1 (buffer : BinaryBuffer) (address : IPV4Addr) : ServerM BinaryBuffer := do
  let (ocr, buffer) ← readFrom buffer (readNext OpenConnectionRequest1)
  let buffer ← writeInto buffer.clear (replyOne ocr (← get).this)
  serverSendTo buffer.consumedSlice address .openConnectionReply1
  let connectionTime ← onRouter routerTime
  modify fun w =>
    { w with this :=
        { w.this with
          midConnectionClients :=
            w.this.midConnectionClients.insert address { connectionTime, mtu := ocr.mtu } } }
  pure buffer

/-- The `case` of a second request. Its answer goes into the same buffer. -/
def openConnectionRequest2 (buffer : BinaryBuffer) (address : IPV4Addr) : ServerM BinaryBuffer := do
  let (ocr2, buffer) ← readFrom buffer (readNext OpenConnectionRequest2)
  let server := (← get).this
  match server.midConnectionClients.lookup address with
  -- Means this address hasnt sent ocr1
  | none => pure buffer
  | some mid => do
    onRouter (connectClient address mid ocr2.clientGuid server.instrument server.serverStartTime)
    let reply : OpenConnectionReply2 :=
      { serverGuid := server.serverGuid, mtu := ocr2.mtu, clientAddress := .fromIpv4 address }
    let buffer ← writeInto buffer.clear (write reply)
    serverSendTo buffer.consumedSlice address .openConnectionReply2
    pure buffer

/-- Returns whether the packet has been handled, and the buffer as it is then. -/
def handlePacket (buffer : BinaryBuffer) (address : IPV4Addr) : ServerM (Bool × BinaryBuffer) := do
  let (id, buffer) ← readFrom buffer (readNext UInt8)
  match PacketId.ofByte id with
  | some .unconnectedPing1 => return (true, ← unconnectedPing buffer address)
  | some .openConnectionRequest1 => return (true, ← openConnectionRequest1 buffer address)
  | some .openConnectionRequest2 => return (true, ← openConnectionRequest2 buffer address)
  | _ => return (false, buffer)

/-! ## The listener -/

/-- What the socket has for a call of `recvfrom`: an error code of its own, or a datagram. -/
inductive Arrival
  | failed (errorCode : Int)
  | datagram (bytes : Bytes) (address : IPV4Addr)
  deriving DecidableEq, Repr

/-- `WSAEMSGSIZE`: the datagram is longer than the buffer. -/
def wsaEMsgSize : Int := 10040

/-- `WSAETIMEDOUT`: nothing has come for a while. -/
def wsaETimedOut : Int := 10060

/-- A datagram that is longer than the buffer fills it and is reported as an error. -/
def recvValue (rawData : RentedBuffer) :
    Arrival → ServerM (RentedBuffer × Except Int (Nat × IPV4Addr))
  | .failed errorCode => pure (rawData, .error errorCode)
  | .datagram bytes address => do
    let leng := rawData.memory.length
    let rawData := { rawData with memory := bytes.take leng ++ rawData.memory.drop bytes.length }
    modifyCompany (·.keep rawData)
    pure (rawData, if leng < bytes.length then .error wsaEMsgSize else .ok (bytes.length, address))

/-- The destructor of a buffer. -/
def serverRelease (buffer : RentedBuffer) : ServerM PUnit := modifyCompany (·.destroy buffer)

/-- `this->renter.rent()`. -/
def serverRent : ServerM RentedBuffer := do
  match (← get).host.company.rent with
  | .ok (rawData, company) => do
    modifyCompany fun _ => company
    pure rawData
  | .error e => throw e

/-- The loop up to the datagram: nothing on an error it passes over and when it is empty. -/
def nextDatagram (arrival : Arrival) : ServerM (Option (BinaryBuffer × IPV4Addr)) := do
  let rawData ← serverRent
  match ← recvValue rawData arrival with
  | (rawData, .error errorCode) => do
    if errorCode = wsaEMsgSize ∨ errorCode = wsaETimedOut then do
      serverRelease rawData
      pure none
    else throw (.runtimeError ("Unknown socket error! " ++ toString errorCode))
  | (rawData, .ok (leng, address)) => do
    -- empty packet, might be a scanner
    if leng < 1 then do
      serverRelease rawData
      pure none
    else
      match BinaryBuffer.ofRentedLimit rawData leng with
      | .ok buffer => pure (some (buffer, address))
      | .error e => throw e

/-- `std::format("{:x}", byte)`. -/
def toHex (byte : UInt8) : String := String.ofList (Nat.toDigits 16 byte.toNat)

/-- The rest of a round of the loop. -/
def dispatch (buffer : BinaryBuffer) (address : IPV4Addr) : ServerM PUnit := do
  if ← isTrivialPacket buffer then do
    let (handled, buffer) ← handlePacket buffer address
    if handled then serverRelease buffer.realBuffer
    else do
      serverEmit (.printed ("Unhandled packet: " ++ toHex (buffer.bytes.headD 0)))
      serverRelease buffer.realBuffer
  else onRouter (route address buffer)

/-- A round of the loop of `process_packets`. -/
def RakServer.receive (arrival : Arrival) : ServerM PUnit := do
  match ← nextDatagram arrival with
  | none => pure ⟨⟩
  | some (buffer, address) => dispatch buffer address

/-- `start`: what the new thread does in front of the loop. -/
def RakServer.start : ServerM PUnit := do
  let serverStartTime ← onRouter routerTime
  modify fun w => { w with this := { w.this with serverStartTime } }

/-- `update_debugger`, in front of the start. A client gets the instrument when it connects. -/
def RakServer.updateDebugger (debugger : Option DebugInstrument) : ServerM PUnit :=
  modify fun w => { w with this := { w.this with instrument := debugger } }

/--
What happens to a server that has been started. A call of `update_debugger` behind the start is no
step: it destroys the instrument that the connected clients point to.
-/
inductive ServerStep
  /-- A round of the listener's loop. -/
  | receive (arrival : Arrival)
  /-- `update_server_id` is called. -/
  | updateServerId (id : StdString)
  deriving DecidableEq, Repr

/-- What the server does in a step. -/
def ServerStep.run : ServerStep → ServerM PUnit
  | .receive arrival => RakServer.receive arrival
  | .updateServerId id => modify fun w => { w with this := { w.this with serverId := some id } }

/-! ## Datagrams as values

A packet that is stored is a view of the buffer its datagram came in, and others may write to that
buffer later. Here a datagram is copied before it is dispatched, so that a stored packet stays what
it was. The rest is the loop as it is.
-/

/-- A copy of the buffer, outside of the pool. -/
def BinaryBuffer.copied (b : BinaryBuffer) : BinaryBuffer := { b with home := none, owner := none }

/-- A datagram with the readings of the clock while it is processed. -/
structure TimedDatagram where
  bytes : Bytes
  address : IPV4Addr
  clock : Clock

/-- A round of the listener's loop, on a copy of the datagram. -/
def TimedDatagram.process (d : TimedDatagram) : ServerM PUnit := do
  modify fun w => { w with host := { w.host with clock := d.clock } }
  match ← nextDatagram (.datagram d.bytes d.address) with
  | none => pure ⟨⟩
  | some (buffer, address) => do
    dispatch buffer.copied address
    serverRelease buffer.realBuffer

end Rakro
