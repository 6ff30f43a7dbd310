import Rakro.Server.World
import Rakro.Packet.Ack
import Rakro.Packet.Connected

/-!
# `RakroServerClient`

What the server does with a datagram of a connected peer, from the bytes to the replies. A loop of
the source takes the fuel its termination needs; `Exn.diverges` stands for running out of it.
-/

namespace Rakro

open Infra

/-! ## Sending -/

/--
`make_header`. The number is the next one expected from the peer, not one of the client's own.
-/
def makeHeader : ClientM FrameHeader := do
  return { sequenceNumber := (← get).this.nextExpectedSeq }

/-- `ack_buffer.insert`: an entry that is there already stays, and the new buffer is destroyed. -/
def insertAckBuffer (index : UInt24) (buffer : BinaryBuffer) : ClientM PUnit := do
  if index ∈ (← get).this.ackBuffer then release buffer
  else modifyThis fun client => { client with ackBuffer := client.ackBuffer.insert index buffer }

/-- The bytes of a datagram around the consumed bytes of a payload. -/
def writeFramed (header : FrameHeader) (info : FrameInfo) (payload : Bytes) : BufM PUnit := do
  write header
  write info
  payload.forM writeByte

/-- The end of the send buffer's scope. A reliable datagram stays until it is acknowledged. -/
def keepSent (rely : FrameReliability) (sendBuffer : BinaryBuffer) : ClientM PUnit := do
  if isReliable rely then do
    let index := (← get).this.sendingRelyFrameIndex
    modifyThis fun client => { client with sendingRelyFrameIndex := index.incr }
    insertAckBuffer index sendBuffer
  else release sendBuffer

/--
`ready_buffer`: the written part of `buffer` in a frame set of its own, which is kept when it is to
be resent.
-/
def readyBuffer (buffer : BinaryBuffer) (rely : FrameReliability) : ClientM Bytes := do
  let sendBuffer ← rent
  let (_, sendBuffer) ← guarded sendBuffer do
    let header ← makeHeader
    let framed ←
      onSendBuffer sendBuffer (writeFramed header (makeInfo rely buffer) buffer.consumedSlice)
    emit (.ready header rely (← get).this.sendingRelyFrameIndex)
    pure framed
  keepSent rely sendBuffer
  pure sendBuffer.consumedSlice

/-- `send_to`: the instrument sees the bytes before the socket takes them. -/
def sendTo (buffer : Bytes) : ClientM PUnit := do
  let address := (← get).this.address
  debug (.onSend buffer (buffer.headD 0) address)
  emit (.sent buffer address)

/-! ## Messages -/

/-- The answer to a connection request. -/
def acceptConnection (packetInfo : ConnectionRequest) : ClientM PUnit := do
  let now ← timeSinceEpoch
  let client := (← get).this
  let response : ConnectionRequestAccepted :=
    { clientAddress := .fromIpv4 client.address
      clientReqTime := packetInfo.requestTimestamp
      serverUpTime := now - client.serverStartTime }
  let sendBuffer ← rent
  owning sendBuffer do
    let (_, sendBuffer) ← onSendBuffer sendBuffer (write response)
    sendTo (← readyBuffer sendBuffer .reliable)

/-- The `case` of a `ConnectionRequest`. -/
def connectionRequest (buffer : BinaryBuffer) : ClientM PUnit := do
  let (packetInfo, _) ← onBuffer buffer (readNext ConnectionRequest)
  modifyThis fun client => { client with guid := packetInfo.clientGuid }
  -- We cant handle security
  if packetInfo.secure then pure ⟨⟩ else acceptConnection packetInfo

/-- The answer to a ping or a pong, written into `sendBuffer`, and the rest of `buffer`. -/
def answerPing (buffer sendBuffer : BinaryBuffer) : ClientM (BinaryBuffer × BinaryBuffer) :=
  if buffer.remaining = 8 then do
    let (ping, buffer) ← onBuffer buffer (readNext ConnectedPing)
    let now ← timeSinceEpoch
    let pong : ConnectedPong :=
      { timeSinceStart := ping.timeSinceStart
        timeSinceServerStart := now - (← get).this.serverStartTime }
    let (_, sendBuffer) ← onSendBuffer sendBuffer (write pong)
    pure (buffer, sendBuffer)
  else if buffer.remaining = 16 then do
    let (pong, buffer) ← onBuffer buffer (readNext ConnectedPong)
    let (_, sendBuffer) ←
      onSendBuffer sendBuffer (write ({ timeSinceStart := pong.timeSinceStart } : ConnectedPing))
    pure (buffer, sendBuffer)
  else pure (buffer, sendBuffer)

/-- The `default` case, which only the instrument hears of. -/
def unhandled (buffer : BinaryBuffer) : ClientM PUnit := do
  debug (.unhandledClientPacket buffer.remainingSlice (← get).this.address)

/-- The case sends whatever it has written and, without a `break`, runs into the default. -/
def connectedPingPong (buffer : BinaryBuffer) : ClientM PUnit := do
  let sendBuffer ← rent
  let buffer ← owning sendBuffer do
    let (buffer, sendBuffer) ← answerPing buffer sendBuffer
    sendTo (← readyBuffer sendBuffer .unreliable)
    pure buffer
  unhandled buffer

/-- The `switch` over the message id. -/
def switchData (packetId : UInt8) (buffer : BinaryBuffer) : ClientM PUnit :=
  match PacketId.ofByte packetId with
  | some .connectionRequest => connectionRequest buffer
  -- by this point the client is connected already
  | some .newIncommingConnection => pure ⟨⟩
  | some .connectedPingPong => connectedPingPong buffer
  | _ => unhandled buffer

/-- `process_data`: the payload of a frame, by its id. -/
def processData (buffer : BinaryBuffer) : ClientM PUnit :=
  owning buffer do
    emit (.data buffer.remainingSlice)
    debug (.onClientRecv buffer.remainingSlice)
    let (packetId, buffer) ← onBuffer buffer (readNext UInt8)
    switchData packetId buffer

/-! ## Frames -/

/-- `ordered_buffer_next_packets[channel]`. -/
def orderedNext (channel : UInt8) : ClientM UInt32 := do
  match (← get).this.orderedBufferNextPackets[channel.toNat]? with
  | some next => pure next
  | none => throw (.undefined "index past the end of ordered_buffer_next_packets")

/-- `sequenced_packets_next_packet[channel]`. -/
def sequencedNext (channel : UInt8) : ClientM UInt32 := do
  match (← get).this.sequencedPacketsNextPacket[channel.toNat]? with
  | some next => pure next
  | none => throw (.undefined "index past the end of sequenced_packets_next_packet")

/-- `ordered_buffer_next_packets[channel]++`, behind a read of the same element. -/
def bumpOrdered (channel : UInt8) : ClientM PUnit := do
  let next ← orderedNext channel
  modifyThis fun client =>
    { client with
      orderedBufferNextPackets :=
        client.orderedBufferNextPackets.setIfInBounds channel.toNat (next + 1) }

/-- `sequenced_packets_next_packet[channel] = value`. -/
def setSequenced (channel : UInt8) (value : UInt32) : ClientM PUnit :=
  modifyThis fun client =>
    { client with
      sequencedPacketsNextPacket :=
        client.sequencedPacketsNextPacket.setIfInBounds channel.toNat value }

/-- The loop that processes stored packets. Its key is that of the packet it has just taken out. -/
def drain (orderChannel : UInt8) : Nat → OrderKey → ClientM PUnit
  | 0, _ => throw .diverges
  | fuel + 1, key => do
    match (← get).this.outOfOrderPacketBuffer.lookup key with
    | none => pure ⟨⟩
    | some val => do
      modifyThis fun client =>
        { client with outOfOrderPacketBuffer := client.outOfOrderPacketBuffer.erase key }
      -- the view is of memory that others may have written to meanwhile
      processData (val.rawData.reload (← get).host.company)
      match val.packetInfo.orderInfo with
      | none => throw (.undefined "dereference of an empty optional")
      | some orderInfo => do
        bumpOrdered orderChannel
        drain orderChannel fuel (constructOrderKey orderChannel orderInfo.orderFrameIndex)

/-- A frame that is stored already. -/
def alreadyStored (packetData : BinaryBuffer) (info : FrameInfo) (orderInfo : OrderInformation) :
    ClientM PUnit := do
  debug (.unexpectedExistOfDataInOofBuffer packetData.bytes info)
  release packetData
  match (← get).this.debugger with
  | some debugger =>
    if debugger.unexpectedExistOfDataInOofBuffer packetData.bytes info then throw message
    else pure ⟨⟩
  | none => throw message
where
  message : Exn :=
    .logicError ("Out-of-order key already exists in ordering, in the "
      ++ toString orderInfo.orderChannel.toNat ++ " channel, and of index "
      ++ toString orderInfo.orderFrameIndex.getValue.toNat)

/--
The branch of ordered frames. A buffer it returns goes on to the `process_data` behind the branch,
moved from or not; `none` is an early `return`.
-/
def processOrdered (packetData : BinaryBuffer) (info : FrameInfo) (orderInfo : OrderInformation) :
    ClientM (Option BinaryBuffer) := do
  let orderChannel := orderInfo.orderChannel
  let index := orderInfo.orderFrameIndex.getValue
  let key := constructOrderKey orderChannel orderInfo.orderFrameIndex
  let next ← orderedNext orderChannel
  if next = index then do
    -- This is the packet we wanted next
    bumpOrdered orderChannel
    processData packetData
    drain orderChannel ((← get).this.outOfOrderPacketBuffer.keys.length + 1) key
    pure (some packetData.movedFrom)
  else if index < next then do
    -- Means it arrived later than another packet
    release packetData
    pure none
  else do
    setSequenced orderChannel 0
    if key ∈ (← get).this.outOfOrderPacketBuffer then do
      alreadyStored packetData info orderInfo
      pure none
    else do
      modifyThis fun client =>
        { client with
          outOfOrderPacketBuffer := client.outOfOrderPacketBuffer.insert key
            { rawData := packetData, packetInfo := info } }
      pure (some packetData.movedFrom)

/-- The branch of sequenced frames. -/
def processSequenced (packetData : BinaryBuffer) (info : FrameInfo) (sequenceIndex : UInt24) :
    ClientM PUnit := do
  debug (.warningLog
    "Recived a sequenced packet, this implementation is not sound and may break")
  rakroAssert info.orderInfo.isSome
  match info.orderInfo with
  | none => throw (.undefined "dereference of an empty optional")
  | some orderInfo => do
    let expected ← sequencedNext orderInfo.orderChannel
    let next ← orderedNext orderInfo.orderChannel
    if expected ≤ sequenceIndex.getValue ∧ next ≤ orderInfo.orderFrameIndex.getValue then do
      setSequenced orderInfo.orderChannel (sequenceIndex.getValue + 1)
      processData packetData
    else do
      debug (.onOutOfOrderSeqRecv packetData.bytes info expected)
      release packetData

/-- What an unsequenced frame goes through before the `process_data` at the end. -/
def orderFrame (packetData : BinaryBuffer) (info : FrameInfo) : ClientM (Option BinaryBuffer) :=
  match info.orderInfo with
  | some orderInfo => processOrdered packetData info orderInfo
  | none => pure (some packetData)

/-- `process_frame`: a sequenced frame, or one in the order of its channel, or any other. -/
def processFrame (packetData : BinaryBuffer) (info : FrameInfo) : ClientM PUnit := do
  emit (.frame info packetData.bytes)
  match info.sequenceFrameIndex with
  | some sequenceIndex => processSequenced packetData info sequenceIndex
  | none => do
    match ← orderFrame packetData info with
    | some packetData => processData packetData
    | none => pure ⟨⟩

/-! ## Datagrams -/

/-- `ack_buffer.erase(id)`. -/
def eraseAckBuffer (id : UInt24) : ClientM PUnit := do
  match (← get).this.ackBuffer.lookup id with
  | none => pure ⟨⟩
  | some buffer => do
    modifyThis fun client => { client with ackBuffer := client.ackBuffer.erase id }
    release buffer

/-- `process_ack`: the datagrams that the peer has got are let go. -/
def processAck (buffer : BinaryBuffer) : ClientM PUnit :=
  owning buffer do
    let (ack, _) ← onBuffer buffer (readNext Ack)
    match ack.allPackets with
    | some ids => ids.forM eraseAckBuffer
    | none => throw .diverges

/-- `for (; current < seq; current++) missing_packets.insert(current.get_value())`. -/
def recordMissing (seq : UInt24) : Nat → UInt24 → Finset UInt24 → Option (Finset UInt24)
  | 0, _, _ => none
  | fuel + 1, current, missing =>
    if current < seq then recordMissing seq fuel current.incr (insert ⟨current.getValue⟩ missing)
    else some missing

/-- The end of a round of the frame loop. Fragments are skipped. -/
def handFrame (buffer : BinaryBuffer) (header : FrameInfo) : ClientM PUnit :=
  if header.fragmentInfo.isSome then emit (.printed "Unhandled frame type, fragment!")
  else processFrame buffer header

/-- The frame loop. A round reads a frame header of three bytes or more. -/
def frameLoop : Nat → BinaryBuffer → ClientM PUnit
  | 0, _ => throw .diverges
  | fuel + 1, packetData =>
    if 4 < packetData.remaining then do
      let (header, packetData) ← onBuffer packetData (readNext FrameInfo)
      let leng := header.bodyLeng.toNat
      let nextPacketSlice := packetData.remainingSlice
      emit (.slice packetData.index leng packetData.size)
      match BinaryBuffer.ofRentedLimit
          { memory := nextPacketSlice, home := packetData.cursorHome } leng with
      | .error e => throw e
      | .ok buffer => do
        handFrame buffer header
        frameLoop fuel (packetData.skipn leng)
    else pure ⟨⟩

/-- `else if (sequence_number > next_expected_seq)`. -/
def recordGap (seq expected : UInt24) : ClientM PUnit := do
  let missing := (← get).this.missingPackets
  if expected < seq then
    match recordMissing seq (2 ^ 24) (expected.add ⟨1⟩) missing with
    | some missing => modifyThis fun client => { client with missingPackets := missing }
    | none => throw .diverges
  else pure ⟨⟩

/-- The gap before `seq` is recorded, and the counter moves on by one. -/
def advanceWindow (seq expected : UInt24) : ClientM PUnit := do
  recordGap seq expected
  modifyThis fun client => { client with nextExpectedSeq := expected.incr }

/-- A datagram of the frame set branch, behind its header. -/
def processFrames (seq : UInt24) (packetData : BinaryBuffer) : ClientM PUnit := do
  let expected := (← get).this.nextExpectedSeq
  if seq < expected then pure ⟨⟩
  else do
    advanceWindow seq expected
    frameLoop (packetData.size + 1) packetData

/-- A datagram of the frame set branch. -/
def processFrameSet (packetData : BinaryBuffer) : ClientM PUnit := do
  let (frameHeader, packetData) ← onBuffer packetData (readNext FrameHeader)
  processFrames frameHeader.sequenceNumber packetData

/-- `process_packet`: a datagram of the client, by its first byte. -/
def processPacket (packetData : BinaryBuffer) : ClientM PUnit := do
  let (data, packetData) ← guarded packetData (onBuffer packetData (readNextPeak UInt8))
  if data &&& validFrameMask ≠ validFrameMask then release packetData
  else if validMaxFrameId < data then
    match PacketId.ofByte data with
    | some .nack => do
      emit (.printed "Unhandled NACK")
      release packetData
    | some .ack => processAck packetData
    | _ => release packetData
  else owning packetData (processFrameSet packetData)

/-! ## How the acknowledgement buffer runs -/

section Run

variable {w : World} {index : UInt24} {b : BinaryBuffer}

/-- With a datagram under its number there already, another one is destroyed. -/
theorem run_insertAckBuffer_taken (h : index ∈ w.this.ackBuffer) :
    (insertAckBuffer index b).run w = (release b).run w := by
  unfold insertAckBuffer
  rw [run_get_bind, if_pos h]

theorem run_insertAckBuffer_new (h : index ∉ w.this.ackBuffer) :
    (insertAckBuffer index b).run w =
      .ok ⟨⟩ { w with this := { w.this with ackBuffer := w.this.ackBuffer.insert index b } } := by
  unfold insertAckBuffer
  rw [run_get_bind, if_neg h]
  rfl

theorem run_eraseAckBuffer_none (h : w.this.ackBuffer.lookup index = none) :
    (eraseAckBuffer index).run w = .ok ⟨⟩ w := by
  unfold eraseAckBuffer
  rw [run_get_bind, h]
  rfl

/-- A datagram that is erased gives its buffer back. -/
theorem run_eraseAckBuffer_some (h : w.this.ackBuffer.lookup index = some b) :
    (eraseAckBuffer index).run w = .ok ⟨⟩ (after (release b)
      { w with this := { w.this with ackBuffer := w.this.ackBuffer.erase index } }) := by
  unfold eraseAckBuffer
  rw [run_get_bind, h]
  rfl

end Run

end Rakro
