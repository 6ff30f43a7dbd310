import Rakro.Server.ServerClient
import Rakro.Roundtrip.FrameInfo

/-!
# The server's own datagrams

`ready_buffer` puts a header, a frame header without optional fields and the payload one after the
other. Read back with the readers of this repository, the payload is whole. The sequence number has
lost its low byte and the reliability is gone.
-/

namespace Rakro

open Infra BinaryBuffer

/-! ## Reading a datagram of one frame -/

/-- `n` bytes, one after the other. -/
def readBytes : Nat → BufM Bytes
  | 0 => pure []
  | n + 1 => do
    let byte ← nextByte
    let bytes ← readBytes n
    return byte :: bytes

/-- A header, a frame header and the body it announces. -/
def readDatagram : BufM (FrameHeader × FrameInfo × Bytes) := do
  let header ← readNext FrameHeader
  let info ← readNext FrameInfo
  let body ← readBytes info.bodyLeng.toNat
  return (header, info, body)

theorem consumes_readBytes : ∀ bs : Bytes, Consumes (readBytes bs.length) bs bs
  | [] => Consumes.pure []
  | x :: bs => (consumes_nextByte x).bind ((consumes_readBytes bs).map (x :: ·))

/-- The header of a frame set is read from its four bytes. -/
theorem consumes_frameHeader (id : UInt8) {bs : Bytes} (h : bs.length = 3) :
    Consumes (readNext FrameHeader) (id :: bs)
      { sequenceNumber := UInt24.ofNat (ofLeBytes bs) } := by
  refine Consumes.readNext (show 1 ≤ 4 by decide) (show 4 ≤ (id :: bs).length by simp [h]) ?_
  exact (consumes_uint8 id).bind ((consumes_uint24 h).map fun seq =>
    ({ sequenceNumber := seq } : FrameHeader))

/-- It is written without the low byte of its number. -/
theorem emits_frameHeader (header : FrameHeader) :
    Emits (write header) (FrameInfo.packetId :: highBytes header.sequenceNumber) := by
  refine Emits.write (show 1 ≤ 3 by decide) ?_ ((emits_uint8 _).bind (emits_uint24 _))
  show 3 ≤ _
  rw [List.length_cons, length_highBytes]
  omega

/-- The bytes that `ready_buffer` sends. -/
def framedBytes (header : FrameHeader) (info : FrameInfo) (payload : Bytes) : Bytes :=
  (FrameInfo.packetId :: highBytes header.sequenceNumber) ++ (infoBytes info ++ payload)

theorem emits_framed (header : FrameHeader) (info : FrameInfo) (payload : Bytes) :
    Emits (writeFramed header info payload) (framedBytes header info payload) :=
  (emits_frameHeader header).bind ((emits_frameInfo info).bind (emits_forM payload))

/-- What the readers make of a framed payload without optional fields. -/
theorem consumes_framed (header : FrameHeader) {info : FrameInfo} {payload : Bytes}
    (hleng : info.bodyLeng.toNat < 8192) (hfields : fieldBytes info = [])
    (hpayload : payload.length = info.bodyLeng.toNat) :
    Consumes readDatagram (framedBytes header info payload)
      ({ sequenceNumber := UInt24.ofNat (header.sequenceNumber.toNat / 256) },
        { bodyLeng := info.bodyLeng }, payload) := by
  have hhead := consumes_frameHeader FrameInfo.packetId (length_highBytes header.sequenceNumber)
  rw [ofLeBytes_highBytes] at hhead
  have hinfo := consumes_written hleng
  have hbody := consumes_readBytes payload
  rw [hpayload] at hbody
  unfold framedBytes infoBytes
  rw [hfields, List.append_nil]
  exact hhead.bind (hinfo.bind (hbody.map _))

@[simp] theorem length_framedBytes (header : FrameHeader) (info : FrameInfo) (payload : Bytes) :
    (framedBytes header info payload).length = 4 + BinaryData.size (some info) + payload.length := by
  unfold framedBytes
  rw [List.length_append, List.length_append, length_infoBytes, List.length_cons, length_highBytes]
  omega

/-! ## `ready_buffer` -/

/-- The datagram that `ready_buffer` makes of a payload in the state `w`. -/
def readyBytes (w : World) (buffer : BinaryBuffer) (rely : FrameReliability) : Bytes :=
  framedBytes ⟨w.this.nextExpectedSeq⟩ (makeInfo rely buffer) buffer.consumedSlice

@[simp] theorem size_makeInfo (rely : FrameReliability) (buffer : BinaryBuffer) :
    BinaryData.size (some (makeInfo rely buffer)) = 3 := rfl

/-- What is made ready is seven bytes longer than its payload. -/
theorem length_readyBytes (w : World) {buffer : BinaryBuffer} (rely : FrameReliability)
    (h : buffer.index ≤ buffer.size) :
    (readyBytes w buffer rely).length = 7 + buffer.consumed := by
  unfold readyBytes
  rw [length_framedBytes, size_makeInfo, length_consumedSlice h]

theorem ofRented_eq_between (rented : RentedBuffer) :
    ofRented rented = (ofRented rented).between [] rented.memory := rfl

/-- The end of the scope never throws. -/
theorem keepSent_returns (rely : FrameReliability) (sent : BinaryBuffer) (w : World) :
    (keepSent rely sent).run w = .ok ⟨⟩ (after (keepSent rely sent) w) := by
  unfold keepSent
  cases isReliable rely with
  | false => rfl
  | true =>
    unfold insertAckBuffer
    rw [if_pos rfl]
    simp only [after, EStateM.run_bind, EStateM.run_get, run_modifyThis]
    split <;> rfl

theorem run_makeHeader {w : World} : makeHeader.run w = .ok ⟨w.this.nextExpectedSeq⟩ w := rfl

/-- A rented buffer with `enc` written into it. -/
def written (rented : RentedBuffer) (enc : Bytes) : BinaryBuffer :=
  (ofRented rented).between enc (rented.memory.drop enc.length)

/-- With room for it, what is written into a rented buffer is in the memory of the pool. -/
theorem run_onRented {m : BufM PUnit} {enc : Bytes} (hm : Emits m enc) {rented : RentedBuffer}
    (room : enc.length ≤ rented.memory.length) (w : World) :
    (onSendBuffer (ofRented rented) m).run w
      = .ok (⟨⟩, written rented enc) (w.flushed (written rented enc)) := by
  have h := hm.writes (ofRented rented) [] (rented.memory.take enc.length)
    (rented.memory.drop enc.length) (by rw [List.length_take]; exact Nat.min_eq_left room)
  rw [List.take_append_drop, ← ofRented_eq_between] at h
  exact run_onSendBuffer_ok h

theorem not_succeeds_onRented {m : BufM PUnit} {enc : Bytes} (hm : Emits m enc)
    (hlen : enc.length < 2 ^ 64) {rented : RentedBuffer}
    (room : ¬ enc.length ≤ rented.memory.length) (w : World) :
    ¬ Succeeds (onSendBuffer (ofRented rented) m) w := by
  obtain ⟨e, b', h⟩ := hm.overflows (ofRented rented) [] rented.memory
    (by rw [List.length_nil]; omega) (by omega)
  exact not_succeeds_of_error (run_onSendBuffer_error h)

/-- The state in which `ready_buffer` has written its datagram. -/
def World.framed (w : World) (company : BufferCompany) (rented : RentedBuffer) (out : Bytes) : World :=
  World.flushed { w with host := { w.host with company := company } } (written rented out)

/-- The body of the guarded scope: the header, the datagram and its entry in the trace. -/
theorem run_framed {w : World} {buffer : BinaryBuffer} {rely : FrameReliability}
    {rented : RentedBuffer} (company : BufferCompany)
    (room : (readyBytes w buffer rely).length ≤ rented.memory.length) :
    (makeHeader >>= fun header =>
        onSendBuffer (ofRented rented)
          (writeFramed header (makeInfo rely buffer) buffer.consumedSlice) >>= fun framed =>
        get >>= fun w => emit (.ready header rely w.this.sendingRelyFrameIndex) >>= fun _ =>
        pure framed).run { w with host := { w.host with company := company } } =
      .ok (⟨⟩, written rented (readyBytes w buffer rely))
        ((w.framed company rented (readyBytes w buffer rely)).log (w.readyEvent rely)) := by
  have hwrite := run_onRented (emits_framed ⟨w.this.nextExpectedSeq⟩ (makeInfo rely buffer)
    buffer.consumedSlice) room { w with host := { w.host with company := company } }
  refine (run_bind_of_ok run_makeHeader).trans ((run_bind_of_ok hwrite).trans ?_)
  refine (run_get_bind _ _).trans ?_
  exact run_bind_of_ok (run_emit _)

/-- With a buffer to rent and room in it, `ready_buffer` returns the datagram. -/
theorem run_readyBuffer {w : World} {buffer : BinaryBuffer} {rely : FrameReliability}
    {rented : RentedBuffer} {company : BufferCompany}
    (hrent : w.host.company.rent = .ok (rented, company))
    (room : (readyBytes w buffer rely).length ≤ rented.memory.length) :
    (readyBuffer buffer rely).run w = .ok (readyBytes w buffer rely)
      (after (keepSent rely (written rented (readyBytes w buffer rely)))
        ((w.framed company rented (readyBytes w buffer rely)).log (w.readyEvent rely))) := by
  unfold readyBuffer
  refine (run_bind_of_ok (run_rent_ok hrent)).trans ?_
  refine (run_bind_of_ok (run_guarded_ok (run_framed company room))).trans ?_
  show (keepSent rely (written rented (readyBytes w buffer rely)) >>= fun _ =>
    pure (written rented (readyBytes w buffer rely)).consumedSlice).run _ = _
  rw [run_bind_of_ok (keepSent_returns _ _ _), EStateM.run_pure]
  exact congrArg (EStateM.Result.ok · _) (between_consumedSlice _ _ _)

/-! ## Reading it back -/

/--
The datagram `out`, made for `payload` in the state `w`, comes apart into the sequence number of
`make_header`, the reliability asked for, the index allocated for it, the payload, and nothing else.
-/
def ParsesBack (w : World) (rely : FrameReliability) (payload out : Bytes) : Prop :=
  ∃ info b', readDatagram.run { bytes := out } = .ok (⟨w.this.nextExpectedSeq⟩, info, payload) b' ∧
    info.rely = rely ∧
    info.reliabilityIndex = (if isReliable rely then some w.this.sendingRelyFrameIndex else none) ∧
    b'.remaining = 0

/-- What the readers make of a datagram of `ready_buffer`. -/
theorem run_readDatagram_ready (w : World) {buffer : BinaryBuffer} (rely : FrameReliability)
    (hidx : buffer.index ≤ buffer.size) (hlen : buffer.consumed < 8192) :
    readDatagram.run { bytes := readyBytes w buffer rely } =
      .ok ({ sequenceNumber := UInt24.ofNat (w.this.nextExpectedSeq.toNat / 256) },
          { bodyLeng := UInt16.ofNat buffer.consumed }, buffer.consumedSlice)
        (({} : BinaryBuffer).between (readyBytes w buffer rely) []) := by
  have hleng : (UInt16.ofNat buffer.consumed).toNat = buffer.consumed := by
    rw [UInt16.toNat_ofNat']
    omega
  have hlt : (makeInfo rely buffer).bodyLeng.toNat < 8192 := by
    show (UInt16.ofNat buffer.consumed).toNat < 8192
    omega
  have hbody : buffer.consumedSlice.length = (makeInfo rely buffer).bodyLeng.toNat := by
    rw [length_consumedSlice hidx]
    exact hleng.symm
  have h := consumes_framed ⟨w.this.nextExpectedSeq⟩ hlt rfl hbody {} [] []
  rw [List.append_nil] at h
  exact h

/-- What is made ready parses back when its number is zero and it is not reliable. -/
theorem parsesBack_ready_iff (w : World) {buffer : BinaryBuffer} (rely : FrameReliability)
    (hidx : buffer.index ≤ buffer.size) (hlen : buffer.consumed < 8192)
    (hrely : rely = .reliable ∨ rely = .unreliable) :
    ParsesBack w rely buffer.consumedSlice (readyBytes w buffer rely) ↔
      w.this.nextExpectedSeq.toNat = 0 ∧ rely = .unreliable := by
  have hread := run_readDatagram_ready w rely hidx hlen
  rw [← ofNat_div_eq_iff]
  constructor
  · rintro ⟨info, b', hback, rfl, -, -⟩
    rw [hread] at hback
    injection hback with hval
    injection hval with hheader hrest
    injection hrest with hinfo
    refine ⟨congrArg FrameHeader.sequenceNumber hheader, ?_⟩
    rw [← hinfo]
  · rintro ⟨hseq, rfl⟩
    rw [hseq] at hread
    exact ⟨_, _, hread, rfl, rfl, by rw [between_remaining]; rfl⟩

/--
**A datagram of the server parses back exactly when its number is zero and it is unreliable.**

The 24-bit writer drops the low byte of the number, and neither the reliability nor its index is in
the frame header the reader sees.
-/
theorem readyBuffer_parsesBack_iff {w : World} {buffer : BinaryBuffer} {rely : FrameReliability}
    {rented : RentedBuffer} {company : BufferCompany} (hidx : buffer.index ≤ buffer.size)
    (hlen : 1 ≤ buffer.consumed ∧ buffer.consumed ≤ 8191)
    (hrely : rely = .reliable ∨ rely = .unreliable)
    (hrent : w.host.company.rent = .ok (rented, company))
    (room : 7 + buffer.consumed ≤ rented.memory.length) :
    (∃ out w', (readyBuffer buffer rely).run w = .ok out w' ∧
      ParsesBack w rely buffer.consumedSlice out) ↔
    w.this.nextExpectedSeq.toNat = 0 ∧ rely = .unreliable := by
  have hroom : (readyBytes w buffer rely).length ≤ rented.memory.length := by
    rw [length_readyBytes w rely hidx]; exact room
  rw [← parsesBack_ready_iff w rely hidx (by omega) hrely, run_readyBuffer hrent hroom]
  constructor
  · rintro ⟨out, w', hout, hback⟩
    cases hout
    exact hback
  · intro hback
    exact ⟨_, _, rfl, hback⟩

/-- A client that has received nothing yet, with one buffer of 16 bytes to rent. -/
def smallPool : World where
  this := { lastPacket := 0 }
  host := { company := .new 1 16 1 }

theorem smallPool_isFresh : smallPool.this.IsFresh := rfl

/-- A payload of one byte. -/
def oneByte : BinaryBuffer := { bytes := [7], index := 1 }

/-- The first unreliable datagram. -/
theorem readyBuffer_parsesBack_first :
    ∃ out w', (readyBuffer oneByte .unreliable).run smallPool = .ok out w' ∧
      ParsesBack smallPool .unreliable oneByte.consumedSlice out :=
  (readyBuffer_parsesBack_iff (by decide) ⟨by decide, by decide⟩ (.inr rfl) rfl
    (by decide)).mpr ⟨rfl, rfl⟩

/-- A reliable datagram of the same client reads back as an unreliable one. -/
theorem reliable_not_parsesBack :
    ¬ ∃ out w', (readyBuffer oneByte .reliable).run smallPool = .ok out w' ∧
      ParsesBack smallPool .reliable oneByte.consumedSlice out := by
  rintro ⟨out, w', hout, hback⟩
  rw [run_readyBuffer rfl (by decide)] at hout
  cases hout
  have h := (parsesBack_ready_iff smallPool .reliable (show oneByte.index ≤ oneByte.size by decide)
    (by decide) (.inl rfl)).mp hback
  cases h.2

end Rakro
