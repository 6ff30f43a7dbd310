import Rakro.Properties.FrameReturns

/-!
# What may be thrown

The exceptions of the codecs, of the replies and of the branches of `process_frame`, one method at a
time. What an ordered or sequenced frame throws besides is a matter of its channel: an access past
the end of the counters is the only exception that names them.
-/

namespace Rakro

open Infra

/-! ## The codecs -/

/-- The exceptions of replying to a message are among `E`. -/
structure AnswerFaults (E : Exn → Prop) : Prop where
  outOfRange : ∀ what, E (.outOfRange what)
  logicError : ∀ what, E (.logicError what)
  badOptionalAccess : E .badOptionalAccess
  blocked : E .blocked
  byte : E (.undefined "index past the end")
  block : E (.undefined "back() of an empty list")

namespace AnswerFaults

variable {α T : Type} {E : Exn → Prop}

/-- A check that fails raises one of the faults. -/
theorem boundsCheck (h : AnswerFaults E) (extra : Nat) : Raises E (boundsCheck extra) :=
  Raises.bind Raises.get fun _ => Raises.ite (Raises.throw (h.outOfRange _)) (Raises.pure _)

/-- Nothing else is raised by reading a byte. -/
theorem nextByte (h : AnswerFaults E) : Raises E nextByte := by
  refine Raises.bind (h.boundsCheck 1) fun _ => ?_
  refine Raises.bind Raises.get fun b => ?_
  refine Raises.bind (Raises.modify _) fun _ => ?_
  split
  · exact Raises.pure _
  · exact Raises.throw h.byte

theorem writeByte (h : AnswerFaults E) (val : UInt8) : Raises E (writeByte val) :=
  Raises.bind (h.boundsCheck 1) fun _ => Raises.bind Raises.get fun _ =>
    Raises.ite (.of_succeeds fun _ => ⟨_, _, rfl⟩) (Raises.throw h.byte)

theorem orBytes (h : AnswerFaults E) {w : Nat} : ∀ (left x : Nat) (value : BitVec w),
    Raises E (orBytes left x value)
  | 0, _, _ => Raises.pure _
  | left + 1, x, _ => Raises.bind h.nextByte fun _ => h.orBytes left (x + 1) _

theorem readIntegral (h : AnswerFaults E) (n : Nat) : Raises E (readIntegral n) :=
  Raises.bind (h.orBytes n 0 0) fun _ => Raises.pure _

theorem writeIntegral (h : AnswerFaults E) (n : Nat) (val : BitVec (8 * n)) :
    Raises E (writeIntegral n val) := Raises.forM h.writeByte _

variable [BinaryData T]

/-- A typed read raises what its check and its codec do. -/
theorem readNext (h : AnswerFaults E) (hread : Raises E (BinaryData.read : BufM T)) :
    Raises E (readNext T) := Raises.bind (h.boundsCheck _) fun _ => hread

theorem readNextPeak (h : AnswerFaults E) (hread : Raises E (BinaryData.read : BufM T)) :
    Raises E (readNextPeak T) := by
  refine Raises.bind (h.boundsCheck _) fun _ => ?_
  refine Raises.bind Raises.get fun _ => ?_
  refine Raises.bind hread fun _ => ?_
  refine Raises.bind (Raises.modify _) fun _ => ?_
  exact Raises.pure _

theorem write (h : AnswerFaults E) {val : T} (hwrite : Raises E (BinaryData.write val)) :
    Raises E (write val) := Raises.bind (h.boundsCheck _) fun _ => hwrite

theorem readUInt8 (h : AnswerFaults E) : Raises E (Rakro.readNext UInt8) :=
  h.readNext (Raises.bind (h.readIntegral 1) fun _ => Raises.pure _)

theorem readUInt16 (h : AnswerFaults E) : Raises E (Rakro.readNext UInt16) :=
  h.readNext (Raises.bind (h.readIntegral 2) fun _ => Raises.pure _)

theorem readUInt32 (h : AnswerFaults E) : Raises E (Rakro.readNext UInt32) :=
  h.readNext (Raises.bind (h.readIntegral 4) fun _ => Raises.pure _)

theorem readUInt64 (h : AnswerFaults E) : Raises E (Rakro.readNext UInt64) :=
  h.readNext (Raises.bind (h.readIntegral 8) fun _ => Raises.pure _)

theorem readBool (h : AnswerFaults E) : Raises E (Rakro.readNext Bool) :=
  h.readNext (Raises.bind h.nextByte fun _ => Raises.pure _)

theorem readUInt24 (h : AnswerFaults E) : Raises E (Rakro.readNext UInt24) :=
  h.readNext (Raises.bind (h.orBytes 3 0 0) fun _ => Raises.pure _)

theorem writeUInt8 (h : AnswerFaults E) (val : UInt8) : Raises E (Rakro.write val) :=
  h.write (h.writeIntegral 1 _)

theorem writeUInt16 (h : AnswerFaults E) (val : UInt16) : Raises E (Rakro.write val) :=
  h.write (h.writeIntegral 2 _)

theorem writeUInt32 (h : AnswerFaults E) (val : UInt32) : Raises E (Rakro.write val) :=
  h.write (h.writeIntegral 4 _)

theorem writeUInt64 (h : AnswerFaults E) (val : UInt64) : Raises E (Rakro.write val) :=
  h.write (h.writeIntegral 8 _)

theorem writeUInt24 (h : AnswerFaults E) (val : UInt24) : Raises E (Rakro.write val) :=
  h.write (Raises.forM h.writeByte _)

/-! ### The packets -/

theorem readIf {c : Bool} {m : BufM α} (hm : Raises E m) : Raises E (readIf c m) :=
  Raises.ite (Raises.bind hm fun _ => Raises.pure _) (Raises.pure _)

/-- The header of a frame raises no other fault. -/
theorem readFrameInfo (h : AnswerFaults E) : Raises E (Rakro.readNext FrameInfo) := by
  have horder : Raises E readOrderInformation :=
    Raises.bind h.readUInt24 fun _ => Raises.bind h.nextByte fun _ => Raises.pure _
  have hfragment : Raises E readFragmentInformation :=
    Raises.bind h.readUInt32 fun _ => Raises.bind h.readUInt16 fun _ =>
      Raises.bind h.readUInt32 fun _ => Raises.pure _
  refine h.readNext (Raises.bind h.nextByte fun _ => Raises.bind h.readUInt16 fun _ => ?_)
  refine Raises.bind (readIf h.readUInt24) fun _ => ?_
  refine Raises.bind (readIf h.readUInt24) fun _ => ?_
  refine Raises.bind (readIf horder) fun _ => ?_
  refine Raises.bind (readIf hfragment) fun _ => ?_
  exact Raises.pure _

theorem readRanges (h : AnswerFaults E) : ∀ length : Nat, Raises E (Ack.readRanges length)
  | 0 => Raises.pure _
  | length + 1 => Raises.bind h.readUInt24 fun _ => Raises.bind h.readUInt24 fun _ =>
      Raises.bind (h.readRanges length) fun _ => Raises.pure _

theorem readAck (h : AnswerFaults E) : Raises E (Rakro.readNext Ack) := by
  have hpeek : Raises E (Rakro.readNextPeak UInt8) :=
    h.readNextPeak (Raises.bind (h.readIntegral 1) fun _ => Raises.pure _)
  refine h.readNext (Raises.bind hpeek fun _ => Raises.bind h.readUInt8 fun _ => Raises.ite ?_ ?_)
  · exact Raises.bind h.readUInt16 fun _ => Raises.bind (h.readRanges _) fun _ => Raises.pure _
  · exact Raises.bind h.readUInt24 fun _ => Raises.pure _

theorem readConnectionRequest (h : AnswerFaults E) : Raises E (Rakro.readNext ConnectionRequest) :=
  h.readNext (Raises.bind h.readUInt64 fun _ => Raises.bind h.readUInt64 fun _ =>
    Raises.bind h.readBool fun _ => Raises.pure _)

theorem writeAddress (h : AnswerFaults E) (address : RakAddress) : Raises E (Rakro.write address) :=
  h.write (Raises.bind (h.writeUInt8 _) fun _ => Raises.bind (h.writeUInt32 _) fun _ =>
    h.writeUInt16 _)

theorem writeAccepted (h : AnswerFaults E) (response : ConnectionRequestAccepted) :
    Raises E (Rakro.write response) :=
  h.write (Raises.bind (h.writeUInt8 _) fun _ => Raises.bind (h.writeAddress _) fun _ =>
    Raises.bind (h.writeUInt16 _) fun _ => Raises.bind (Raises.forM h.writeAddress _) fun _ =>
      Raises.bind (h.writeUInt64 _) fun _ => h.writeUInt64 _)

theorem writeFramed (h : AnswerFaults E) (header : FrameHeader) (info : FrameInfo)
    (payload : Bytes) : Raises E (writeFramed header info payload) := by
  have hsome : ∀ {β : Type} {f : β → BufM PUnit}, (∀ v, Raises E (f v)) →
      ∀ val, Raises E (writeIfSome f val) := by
    intro β f hf val
    cases val with
    | none => exact Raises.pure _
    | some v => exact hf v
  refine Raises.bind (h.write ?_) fun _ => Raises.bind (h.write ?_) fun _ =>
    Raises.forM h.writeByte _
  · exact Raises.bind (h.writeUInt8 _) fun _ => h.writeUInt24 _
  · refine Raises.bind (h.writeUInt8 _) fun _ => Raises.bind (h.writeUInt16 _) fun _ => ?_
    refine Raises.bind (hsome h.writeUInt24 _) fun _ => ?_
    refine Raises.bind (hsome h.writeUInt24 _) fun _ => ?_
    refine Raises.bind (hsome (fun order => ?_) _) fun _ => hsome (fun fragment => ?_) _
    · exact Raises.bind (h.writeUInt24 _) fun _ => h.writeUInt8 _
    · exact Raises.bind (h.writeUInt32 _) fun _ => Raises.bind (h.writeUInt16 _) fun _ =>
        h.writeUInt32 _

end AnswerFaults

/-! ## The replies -/

section Primitives

variable {α : Type} {E : Exn → Prop}

theorem raises_onBuffer {b : BinaryBuffer} {method : BufM α} (h : Raises E method) :
    Raises E (onBuffer b method) := by
  intro w e w' herror
  cases hrun : method.run b with
  | ok a b' =>
    rw [run_onBuffer_ok hrun] at herror
    cases herror
  | error e' b' =>
    rw [run_onBuffer_error hrun] at herror
    cases herror
    exact h b _ _ hrun

theorem raises_onSendBuffer {b : BinaryBuffer} {method : BufM α} (h : Raises E method) :
    Raises E (onSendBuffer b method) := by
  intro w e w' herror
  cases hrun : method.run b with
  | ok a b' =>
    rw [run_onSendBuffer_ok hrun] at herror
    cases herror
  | error e' b' =>
    rw [run_onSendBuffer_error hrun] at herror
    cases herror
    exact h b _ _ hrun

theorem raises_guarded {b : BinaryBuffer} {body : ClientM α} (h : Raises E body) :
    Raises E (guarded b body) := by
  intro w e w' herror
  cases hrun : body.run w with
  | ok a w'' =>
    rw [run_guarded_ok hrun] at herror
    cases herror
  | error e' w'' =>
    rw [run_guarded_error hrun] at herror
    cases herror
    exact h w _ _ hrun

theorem raises_emit (event : Event) : Raises E (emit event) := Raises.modify _

theorem raises_release (b : BinaryBuffer) : Raises E (release b) := Raises.modify _

theorem raises_modifyThis (f : RakroServerClient → RakroServerClient) :
    Raises E (modifyThis f) := Raises.modify _

theorem raises_owning {b : BinaryBuffer} {body : ClientM α} (h : Raises E body) :
    Raises E (owning b body) :=
  Raises.bind (raises_guarded h) fun _ => Raises.bind (raises_release b) fun _ => Raises.pure _

theorem raises_debug (call : DebugCall) : Raises E (debug call) :=
  Raises.bind Raises.get fun _ => Raises.ite (raises_emit _) (Raises.pure _)

theorem raises_timeSinceEpoch : Raises E timeSinceEpoch :=
  .of_succeeds fun _ => succeeds_of_ok run_timeSinceEpoch

theorem raises_sendTo (bytes : Bytes) : Raises E (sendTo bytes) :=
  Raises.bind Raises.get fun _ => Raises.bind (raises_debug _) fun _ => raises_emit _

theorem raises_unhandled (b : BinaryBuffer) : Raises E (unhandled b) :=
  Raises.bind Raises.get fun _ => raises_debug _

end Primitives

namespace AnswerFaults

variable {E : Exn → Prop}

/-- The pool either has a buffer or throws one of three. -/
theorem of_rent_error (h : AnswerFaults E) {company : BufferCompany} {e : Exn}
    (herror : company.rent = .error e) : E e := by
  unfold BufferCompany.rent at herror
  split at herror
  · cases herror
  · split at herror
    · split at herror
      · cases herror
        exact h.block
      · cases herror
        exact h.blocked
    · split at herror
      · cases herror
      · cases herror
        exact h.badOptionalAccess

/-- A rent raises one of the faults, if any. -/
theorem rent (h : AnswerFaults E) : Raises E rent := by
  refine Raises.bind Raises.get fun w => ?_
  split
  · exact Raises.bind (Raises.modify _) fun _ => Raises.pure _
  · next e herror => exact Raises.throw (h.of_rent_error herror)

theorem keepSent (rely : FrameReliability) (sent : BinaryBuffer) :
    Raises E (keepSent rely sent) := by
  refine Raises.ite (Raises.bind Raises.get fun _ => Raises.bind (raises_modifyThis _) fun _ => ?_)
    (raises_release _)
  exact Raises.bind Raises.get fun _ => Raises.ite (raises_release _) (raises_modifyThis _)

/-- Making a datagram ready raises what renting and writing do. -/
theorem readyBuffer (h : AnswerFaults E) (b : BinaryBuffer) (rely : FrameReliability) :
    Raises E (readyBuffer b rely) := by
  refine Raises.bind h.rent fun _ => Raises.bind (raises_guarded ?_) fun _ =>
    Raises.bind (keepSent _ _) fun _ => Raises.pure _
  refine Raises.bind (Raises.bind Raises.get fun _ => Raises.pure _) fun _ => ?_
  refine Raises.bind (raises_onSendBuffer (h.writeFramed _ _ _)) fun _ => ?_
  refine Raises.bind Raises.get fun _ => ?_
  refine Raises.bind (raises_emit _) fun _ => ?_
  exact Raises.pure _

/-- A request raises what its reading and its answer do. -/
theorem connectionRequest (h : AnswerFaults E) (b : BinaryBuffer) :
    Raises E (connectionRequest b) := by
  refine Raises.bind (raises_onBuffer h.readConnectionRequest) fun _ =>
    Raises.bind (raises_modifyThis _) fun _ => Raises.ite (Raises.pure _) ?_
  refine Raises.bind raises_timeSinceEpoch fun _ => ?_
  refine Raises.bind Raises.get fun _ => ?_
  refine Raises.bind h.rent fun _ => ?_
  refine raises_owning ?_
  exact Raises.bind (raises_onSendBuffer (h.writeAccepted _)) fun _ =>
    Raises.bind (h.readyBuffer _ _) fun _ => raises_sendTo _

/-- The answer to a ping raises what reading and writing do. -/
theorem answerPing (h : AnswerFaults E) (b send : BinaryBuffer) : Raises E (answerPing b send) := by
  have hread : Raises E (Rakro.readNext ConnectedPing) :=
    h.readNext (Raises.bind h.readUInt64 fun _ => Raises.pure _)
  have hpong : ∀ pong : ConnectedPong, Raises E (Rakro.write pong) := fun pong =>
    h.write (Raises.bind (h.writeUInt64 _) fun _ => h.writeUInt64 _)
  refine Raises.ite ?_ (Raises.ite ?_ (Raises.pure _))
  · refine Raises.bind (raises_onBuffer hread) fun _ => ?_
    refine Raises.bind raises_timeSinceEpoch fun _ => ?_
    refine Raises.bind Raises.get fun _ => ?_
    refine Raises.bind (raises_onSendBuffer (hpong _)) fun _ => ?_
    exact Raises.pure _
  · -- neither direction of the other pair is implemented
    exact Raises.bind (raises_onBuffer (h.readNext (Raises.throw (h.logicError _)))) fun _ =>
      Raises.bind (raises_onSendBuffer (h.write (Raises.throw (h.logicError _)))) fun _ =>
        Raises.pure _

theorem connectedPingPong (h : AnswerFaults E) (b : BinaryBuffer) :
    Raises E (connectedPingPong b) := by
  refine Raises.bind h.rent fun _ => Raises.bind (raises_owning ?_) fun _ => raises_unhandled _
  refine Raises.bind (h.answerPing _ _) fun _ => ?_
  refine Raises.bind (h.readyBuffer _ _) fun _ => ?_
  refine Raises.bind (raises_sendTo _) fun _ => ?_
  exact Raises.pure _

theorem switchData (h : AnswerFaults E) (packetId : UInt8) (b : BinaryBuffer) :
    Raises E (switchData packetId b) := by
  unfold Rakro.switchData
  split
  · exact h.connectionRequest _
  · exact Raises.pure _
  · exact h.connectedPingPong _
  · exact raises_unhandled _

theorem processData (h : AnswerFaults E) (b : BinaryBuffer) : Raises E (processData b) :=
  raises_owning (Raises.bind (raises_emit _) fun _ => Raises.bind (raises_debug _) fun _ =>
    Raises.bind (raises_onBuffer h.readUInt8) fun _ => h.switchData _ _)

end AnswerFaults

/-! ## Frames -/

/-- The exceptions of a datagram whose frames are on channels that exist are among `E`. -/
structure FrameFaults (E : Exn → Prop) : Prop extends AnswerFaults E where
  assertion : E .assertion
  diverges : E .diverges
  optional : E (.undefined "dereference of an empty optional")
  view : E (.undefined "subspan past the end")

section Counters

variable {E : Exn → Prop} {channel : UInt8}

theorem raises_orderedNext (h : channel.toNat < maxOrderChannels) :
    Raises E (orderedNext channel) := .of_succeeds fun w => succeeds_of_ok (run_orderedNext h w)

theorem raises_sequencedNext (h : channel.toNat < maxOrderChannels) :
    Raises E (sequencedNext channel) :=
  .of_succeeds fun w => succeeds_of_ok (run_sequencedNext h w)

theorem raises_bumpOrdered (h : channel.toNat < maxOrderChannels) :
    Raises E (bumpOrdered channel) := Raises.bind (raises_orderedNext h) fun _ => raises_modifyThis _

end Counters

namespace FrameFaults

variable {E : Exn → Prop}

/-- The loop over the stored packets raises a frame's faults, by induction on its fuel. -/
theorem drain (h : FrameFaults E) {channel : UInt8} (hchannel : channel.toNat < maxOrderChannels) :
    ∀ (fuel : Nat) (key : OrderKey), Raises E (drain channel fuel key)
  | 0, _ => Raises.throw h.diverges
  | fuel + 1, key => by
    refine Raises.bind Raises.get fun w => ?_
    split
    · exact Raises.pure _
    · refine Raises.bind (raises_modifyThis _) fun _ => ?_
      refine Raises.bind Raises.get fun _ => ?_
      refine Raises.bind (h.processData _) fun _ => ?_
      split
      · exact Raises.throw h.optional
      · exact Raises.bind (raises_bumpOrdered hchannel) fun _ => h.drain hchannel fuel _

/-- A frame that is stored already may raise the refusal. -/
theorem alreadyStored (h : FrameFaults E) (b : BinaryBuffer) (info : FrameInfo)
    (order : OrderInformation) : Raises E (alreadyStored b info order) := by
  refine Raises.bind (raises_debug _) fun _ => ?_
  refine Raises.bind (raises_release b) fun _ => ?_
  refine Raises.bind Raises.get fun w => ?_
  split
  · exact Raises.ite (Raises.throw (h.logicError _)) (Raises.pure _)
  · exact Raises.throw (h.logicError _)

/-- An ordered frame on a channel in range raises a frame's faults. -/
theorem processOrdered (h : FrameFaults E) (b : BinaryBuffer) (info : FrameInfo)
    {order : OrderInformation} (hchannel : order.orderChannel.toNat < maxOrderChannels) :
    Raises E (processOrdered b info order) := by
  refine Raises.bind (raises_orderedNext hchannel) fun _ => Raises.ite ?_ (Raises.ite ?_ ?_)
  · refine Raises.bind (raises_bumpOrdered hchannel) fun _ => ?_
    refine Raises.bind (h.processData b) fun _ => ?_
    refine Raises.bind Raises.get fun _ => ?_
    refine Raises.bind (h.drain hchannel _ _) fun _ => ?_
    exact Raises.pure _
  · exact Raises.bind (raises_release b) fun _ => Raises.pure _
  · refine Raises.bind (raises_modifyThis _) fun _ => Raises.bind Raises.get fun _ =>
      Raises.ite ?_ ?_
    · exact Raises.bind (h.alreadyStored b info order) fun _ => Raises.pure _
    · exact Raises.bind (raises_modifyThis _) fun _ => Raises.pure _

theorem processSequenced (h : FrameFaults E) (b : BinaryBuffer) {info : FrameInfo}
    (hchannel : ∀ order ∈ info.orderInfo, order.orderChannel.toNat < maxOrderChannels)
    (index : UInt24) : Raises E (processSequenced b info index) := by
  refine Raises.bind (raises_debug _) fun _ => Raises.bind ?_ fun _ => ?_
  · exact Raises.bind Raises.get fun _ => Raises.ite (Raises.pure _) (Raises.throw h.assertion)
  · split
    · exact Raises.throw h.optional
    · next order horder =>
      have hlt := hchannel order horder
      refine Raises.bind (raises_sequencedNext hlt) fun _ => Raises.bind (raises_orderedNext hlt)
        fun _ => Raises.ite ?_ ?_
      · exact Raises.bind (raises_modifyThis _) fun _ => h.processData b
      · exact Raises.bind (raises_debug _) fun _ => raises_release b

theorem processFrame (h : FrameFaults E) (b : BinaryBuffer) {info : FrameInfo}
    (hchannel : ∀ order ∈ info.orderInfo, order.orderChannel.toNat < maxOrderChannels) :
    Raises E (processFrame b info) := by
  refine Raises.bind (raises_emit _) fun _ => ?_
  split
  · exact h.processSequenced b hchannel _
  · refine Raises.bind ?_ fun r => ?_
    · unfold orderFrame
      split
      · next order horder => exact h.processOrdered b info (hchannel order horder)
      · exact Raises.pure _
    · split
      · exact h.processData _
      · exact Raises.pure _

theorem raises_eraseAckBuffer (number : UInt24) : Raises E (eraseAckBuffer number) := by
  refine Raises.bind Raises.get fun w => ?_
  split
  · exact Raises.pure _
  · exact Raises.bind (raises_modifyThis _) fun _ => raises_release _

theorem processAck (h : FrameFaults E) (b : BinaryBuffer) : Raises E (processAck b) := by
  refine raises_owning (Raises.bind (raises_onBuffer h.readAck) ?_)
  rintro ⟨ack, b'⟩
  dsimp only
  split
  · exact Raises.forM raises_eraseAckBuffer _
  · exact Raises.throw h.diverges

/-- A datagram that is no frame set. -/
theorem processPacket (h : FrameFaults E) {b : BinaryBuffer} (hstart : b.index = 0)
    (hset : ∀ id seq rest, ¬ IsFrameSet b id seq rest) : Raises E (processPacket b) := by
  cases packetFront hstart with
  | short _ _ hrun =>
    intro w e w' herror
    cases (hrun w).symm.trans herror
    exact h.outOfRange _
  | ignored _ _ _ hrun =>
    rw [hrun]
    exact raises_release b
  | nack _ hrun =>
    rw [hrun]
    exact Raises.bind (raises_emit _) fun _ => raises_release b
  | ack _ hrun =>
    rw [hrun]
    exact h.processAck b
  | frameSet hframes => exact absurd hframes (hset _ _ _)

end FrameFaults

end Rakro
