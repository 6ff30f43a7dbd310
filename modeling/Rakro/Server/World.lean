import Rakro.Packet.Connected
import Rakro.Packet.FrameSet
import Mathlib.Data.List.AList
import Mathlib.Data.Finset.Insert

/-!
# The state a client method runs on

`RakroServerClient` and what its methods reach outside of it: the buffer pool, the clock, the socket
and the debug instrument. Sends and calls are recorded in a trace, oldest first. The trace also
records the calls of `process_frame` and `process_data`, the body views of the frame loop and the
headers that `ready_buffer` has made, which leave no mark of their own.
-/

namespace Rakro

open Infra

/-- A call of the debug instrument. -/
inductive DebugCall
  | onSend (data : Bytes) (packet : UInt8) (address : IPV4Addr)
  | onClientRecv (data : Bytes)
  | onOutOfOrderSeqRecv (data : Bytes) (info : FrameInfo) (expectedValue : UInt32)
  | warningLog (warning : String)
  | unexpectedExistOfDataInOofBuffer (data : Bytes) (info : FrameInfo)
  | unhandledClientPacket (data : Bytes) (address : IPV4Addr)
  deriving DecidableEq, Repr

/-- What happens that can be seen outside the state: calls, datagrams, hooks and texts. -/
inductive Event
  /-- `process_frame(buffer, info)` is called. -/
  | frame (info : FrameInfo) (body : Bytes)
  /-- `process_data(buffer)` is called. -/
  | data (payload : Bytes)
  /-- The frame loop takes `leng` bytes at `cursor` of a datagram of `size` bytes for a body. -/
  | slice (cursor leng size : Nat)
  /-- A datagram is ready. `index` is what `sending_rely_frame_index` was when it was made. -/
  | ready (header : FrameHeader) (rely : FrameReliability) (index : UInt24)
  /-- The socket sends. -/
  | sent (bytes : Bytes) (address : IPV4Addr)
  | printed (line : String)
  | debug (call : DebugCall)
  deriving DecidableEq, Repr

/--
`IRakServerDebugInstrument`, one that looks on. Its calls are recorded; the only answer the client
looks at says whether to throw on a frame that is stored already. The hooks of the source get the
bytes and the address to write to, and they may throw; an instrument here does neither.
-/
structure DebugInstrument where
  unexpectedExistOfDataInOofBuffer : Bytes → FrameInfo → Bool := fun _ _ => true

/-- `OrderKey`, the strong type over `uint32_t`. -/
structure OrderKey where
  val : UInt32
  deriving DecidableEq, Repr

/-- Clips the order channel to 5 bits. -/
def constructOrderKey (orderChannel : UInt8) (orderIndex : UInt24) : OrderKey :=
  ⟨orderChannel.toUInt32 <<< 27 ||| orderIndex.getValue⟩

/-- A frame that waits for the ones before it. -/
structure PacketInformation where
  rawData : BinaryBuffer := {}
  packetInfo : FrameInfo := {}
  deriving DecidableEq, Repr

/-- `MAX_ORDER_CHANNELS`. -/
def maxOrderChannels : Nat := 32

/-- The server's side of a connection. -/
structure RakroServerClient where
  nextExpectedSeq : UInt24 := {}
  sendingRelyFrameIndex : UInt24 := {}
  guid : UInt64 := 0
  debugger : Option DebugInstrument := none
  mtu : UInt16 := 0
  address : IPV4Addr := {}
  lastPacket : UInt64
  serverStartTime : UInt64 := 0
  missingPackets : Finset UInt24 := ∅
  ackBuffer : AList fun _ : UInt24 => BinaryBuffer := ∅
  /-- The next expected order number of each channel. -/
  orderedBufferNextPackets : Vector UInt32 maxOrderChannels := .replicate _ 0
  /-- Packets which arrived earlier than expected. -/
  outOfOrderPacketBuffer : AList fun _ : OrderKey => PacketInformation := ∅
  /-- The next expected sequence number of each channel. -/
  sequencedPacketsNextPacket : Vector UInt32 maxOrderChannels := .replicate _ 0

/-- A client as its constructor leaves it. -/
def RakroServerClient.IsFresh (client : RakroServerClient) : Prop :=
  client =
    { guid := client.guid, debugger := client.debugger, mtu := client.mtu
      address := client.address, lastPacket := client.lastPacket
      serverStartTime := client.serverStartTime }

/-- The readings that the calls of `time_since_epoch()` return, one after the other. -/
abbrev Clock := Nat → UInt64

/-- What the clients share. `ndebug` says whether the build defines `NDEBUG`. -/
structure Host where
  ndebug : Bool := false
  company : BufferCompany
  clock : Clock := fun _ => 0
  trace : List Event := []

/-- A client and its surroundings. -/
structure World where
  this : RakroServerClient
  host : Host

/-- A program on a client and its host. -/
abbrev ClientM := EStateM Exn World

/-! ## Reaching outside -/

/-- The client changes, the host does not. -/
def modifyThis (f : RakroServerClient → RakroServerClient) : ClientM PUnit :=
  modify fun w => { w with this := f w.this }

/-- The host changes, the client does not. -/
def modifyHost (f : Host → Host) : ClientM PUnit :=
  modify fun w => { w with host := f w.host }

/-- Notes an event in the trace. -/
def emit (event : Event) : ClientM PUnit :=
  modifyHost fun host => { host with trace := host.trace ++ [event] }

/-- `if (this->debugger) this->debugger->call(...)`. -/
def debug (call : DebugCall) : ClientM PUnit := do
  if (← get).this.debugger.isSome then emit (.debug call) else pure ⟨⟩

/-- `detail::time_since_epoch()`. -/
def timeSinceEpoch : ClientM UInt64 :=
  modifyGet fun w =>
    (w.host.clock 0, { w with host := { w.host with clock := fun n => w.host.clock (n + 1) } })

/-- `BinaryBuffer(this->company->rent())`. -/
def rent : ClientM BinaryBuffer := do
  match (← get).host.company.rent with
  | .ok (buffer, company) =>
    modifyHost fun host => { host with company := company }
    pure (.ofRented buffer)
  | .error e => throw e

/-- The destructor of a buffer. -/
def release (buffer : BinaryBuffer) : ClientM PUnit :=
  modifyHost fun host => { host with company := host.company.destroy buffer.realBuffer }

/-- A buffer that is destroyed when an exception leaves the scope. -/
def guarded {α : Type} (buffer : BinaryBuffer) (body : ClientM α) : ClientM α := fun w =>
  match body.run w with
  | .ok a w' => .ok a w'
  | .error e w' => .error e (after (release buffer) w')

/-- A buffer that is destroyed at the end of the scope, however it is left. -/
def owning {α : Type} (buffer : BinaryBuffer) (body : ClientM α) : ClientM α := do
  let a ← guarded buffer body
  release buffer
  pure a

/-- The state in which the memory behind a buffer is what has been written into it. -/
def World.flushed (w : World) (buffer : BinaryBuffer) : World :=
  { w with host := { w.host with company := w.host.company.keep buffer.realBuffer } }

/-- A method of a local buffer. -/
def onBuffer {α : Type} (buffer : BinaryBuffer) (method : BufM α) :
    ClientM (α × BinaryBuffer) := fun w =>
  match method.run buffer with
  | .ok a buffer' => .ok (a, buffer') w
  | .error e _ => .error e w

/-- A method that writes into a rented buffer. -/
def onSendBuffer {α : Type} (buffer : BinaryBuffer) (method : BufM α) :
    ClientM (α × BinaryBuffer) := fun w =>
  match method.run buffer with
  | .ok a buffer' => .ok (a, buffer') (w.flushed buffer')
  | .error e buffer' => .error e (w.flushed buffer')

/--
`rakro_assert(condition)`. Behind the check of the condition the macro has an `assert(false)` of its
own, which only a build with `NDEBUG` leaves out.
-/
def rakroAssert (condition : Bool) : ClientM PUnit := do
  if condition && (← get).host.ndebug then pure ⟨⟩ else throw .assertion

/-! ## How the primitives run -/

/-- The state with one more entry in the trace. -/
def World.log (w : World) (event : Event) : World :=
  { w with host := { w.host with trace := w.host.trace ++ [event] } }

/-- The entry for a datagram that `ready_buffer` makes in the state `w`. -/
def World.readyEvent (w : World) (rely : FrameReliability) : Event :=
  .ready ⟨w.this.nextExpectedSeq⟩ rely w.this.sendingRelyFrameIndex

section Run

variable {α : Type} {w : World}

@[simp] theorem run_modifyThis (f : RakroServerClient → RakroServerClient) :
    (modifyThis f).run w = .ok ⟨⟩ { w with this := f w.this } := rfl

@[simp] theorem run_emit (event : Event) :
    (emit event).run w
      = .ok ⟨⟩ { w with host := { w.host with trace := w.host.trace ++ [event] } } := rfl

@[simp] theorem run_release (buffer : BinaryBuffer) :
    (release buffer).run w
      = .ok ⟨⟩
          { w with host := { w.host with company := w.host.company.destroy buffer.realBuffer } } :=
  rfl

/-- The state after the clock has been read once. -/
def World.tick (w : World) : World :=
  { w with host := { w.host with clock := fun n => w.host.clock (n + 1) } }

/-- The clock is read once. -/
theorem run_timeSinceEpoch : timeSinceEpoch.run w = .ok (w.host.clock 0) w.tick := rfl

/-- A buffer that is rented is wrapped. -/
theorem run_rent_ok {buffer : RentedBuffer} {company : BufferCompany}
    (h : w.host.company.rent = .ok (buffer, company)) :
    rent.run w = .ok (.ofRented buffer) { w with host := { w.host with company := company } } := by
  unfold rent
  rw [run_get_bind]
  dsimp only
  rw [h]
  rfl

/-- Where the pool has none, the rent raises. -/
theorem run_rent_error {e : Exn} (h : w.host.company.rent = .error e) :
    rent.run w = .error e w := by
  unfold rent
  rw [run_get_bind]
  rw [h]
  rfl

/-- The buffer comes back as the method leaves it. -/
theorem run_onBuffer_ok {method : BufM α} {b b' : BinaryBuffer} {a : α}
    (h : method.run b = .ok a b') : (onBuffer b method).run w = .ok (a, b') w := by
  show (match method.run b with | .ok a b' => _ | .error e _ => _) = _
  rw [h]

/-- Behind an exception the host is as it was. -/
theorem run_onBuffer_error {method : BufM α} {b b' : BinaryBuffer} {e : Exn}
    (h : method.run b = .error e b') : (onBuffer b method).run w = .error e w := by
  show (match method.run b with | .ok a b' => _ | .error e _ => _) = _
  rw [h]

/-- What is written into the buffer is in the pool's memory. -/
theorem run_onSendBuffer_ok {method : BufM α} {b b' : BinaryBuffer} {a : α}
    (h : method.run b = .ok a b') : (onSendBuffer b method).run w = .ok (a, b') (w.flushed b') := by
  show (match method.run b with | .ok a b' => _ | .error e b' => _) = _
  rw [h]

theorem run_onSendBuffer_error {method : BufM α} {b b' : BinaryBuffer} {e : Exn}
    (h : method.run b = .error e b') :
    (onSendBuffer b method).run w = .error e (w.flushed b') := by
  show (match method.run b with | .ok a b' => _ | .error e b' => _) = _
  rw [h]

theorem onBuffer_eq_ok {method : BufM α} {b : BinaryBuffer} {r : α × BinaryBuffer} {w' : World}
    (h : (onBuffer b method).run w = .ok r w') : method.run b = .ok r.1 r.2 ∧ w' = w := by
  cases hm : method.run b with
  | ok a b' => rw [run_onBuffer_ok hm] at h; cases h; exact ⟨rfl, rfl⟩
  | error e b' => rw [run_onBuffer_error hm] at h; cases h

/-- A body that returns keeps its buffer. -/
theorem run_guarded_ok {body : ClientM α} {b : BinaryBuffer} {a : α} {w' : World}
    (h : body.run w = .ok a w') : (guarded b body).run w = .ok a w' := by
  show (match body.run w with | .ok a w' => _ | .error e w' => _) = _
  rw [h]

/-- An exception gives it back. -/
theorem run_guarded_error {body : ClientM α} {b : BinaryBuffer} {e : Exn} {w' : World}
    (h : body.run w = .error e w') :
    (guarded b body).run w = .error e (after (release b) w') := by
  show (match body.run w with | .ok a w' => _ | .error e w' => _) = _
  rw [h]

/-- The buffer is given back behind the body. -/
theorem run_owning_ok {body : ClientM α} {b : BinaryBuffer} {a : α} {w' : World}
    (h : body.run w = .ok a w') :
    (owning b body).run w = .ok a (after (release b) w') :=
  run_bind_of_ok (run_guarded_ok h)

theorem run_owning_error {body : ClientM α} {b : BinaryBuffer} {e : Exn} {w' : World}
    (h : body.run w = .error e w') :
    (owning b body).run w = .error e (after (release b) w') :=
  run_bind_of_error (run_guarded_error h)

/-- The destructor runs on either way out of the scope. -/
theorem after_owning (b : BinaryBuffer) (body : ClientM α) :
    after (owning b body) w = after (release b) (after body w) := by
  cases h : body.run w with
  | ok a w' => rw [after_of_ok (run_owning_ok h), after_of_ok h]
  | error e w' => rw [after_of_error (run_owning_error h), after_of_error h]

/-- Giving it back does not fail. -/
theorem succeeds_owning (b : BinaryBuffer) (body : ClientM α) :
    Succeeds (owning b body) w ↔ Succeeds body w := by
  cases h : body.run w with
  | ok a w' => exact iff_of_true ⟨_, _, run_owning_ok h⟩ ⟨_, _, h⟩
  | error e w' =>
    exact iff_of_false (not_succeeds_of_error (run_owning_error h)) (not_succeeds_of_error h)

end Run

end Rakro
