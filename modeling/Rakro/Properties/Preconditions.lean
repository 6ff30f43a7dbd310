import Rakro.Infra.Confined
import Rakro.Infra.Holdings
import Rakro.Properties.OrderChannels
import Rakro.Properties.TypedAccess

/-!
# The preconditions that a datagram can break

Undefined is an access past the end of a view or of the counters of the channels, a slice past the
end, an empty optional that is dereferenced and the last of no blocks. For a client that stores
only what can be read, there are two of these left: a frame that announces a longer body than there
is, and a frame on a channel that does not exist. All else that a datagram does ends with a result
or with an exception that the source throws.
-/

namespace Rakro

open Infra BinaryBuffer

variable {ndebug : Bool}

/-! ## The states of a run -/

/-- The pool may have a block, and its buffers are not larger than an object can be. -/
structure Host.Ample (ndebug : Bool) (host : Host) : Prop where
  build : host.ndebug = ndebug
  blocks : 1 ≤ host.company.blockMaxCount
  size_lt : host.company.bufferSize < 2 ^ 63

/-- What a client stores has a place in the order, and its buffer can be read. -/
def RakroServerClient.StoresWhole (client : RakroServerClient) : Prop :=
  AllEntries (fun _ (val : PacketInformation) => val.packetInfo.orderInfo.isSome ∧
    val.rawData.InView) client.outOfOrderPacketBuffer

/-- The host is ample, and what the client stores is whole. -/
structure World.Orderly (ndebug : Bool) (w : World) : Prop where
  ample : w.host.Ample ndebug
  stored : w.this.StoresWhole

namespace BufferCompany

theorem keep_blockMaxCount (company : BufferCompany) (buffer : RentedBuffer) :
    (company.keep buffer).blockMaxCount = company.blockMaxCount := by
  unfold keep
  split <;> rfl

theorem destroy_blockMaxCount (company : BufferCompany) (buffer : RentedBuffer) :
    (company.destroy buffer).blockMaxCount = company.blockMaxCount := by
  unfold destroy ownerFree addFree
  split
  · split <;> rfl
  · rfl

theorem initBlock_blockMaxCount (company : BufferCompany) :
    company.initBlock.blockMaxCount = company.blockMaxCount := by
  unfold initBlock
  split
  · rfl
  · split <;> rfl

theorem rent_blockMaxCount {company company' : BufferCompany} {rented : RentedBuffer}
    (h : company.rent = .ok (rented, company')) :
    company'.blockMaxCount = company.blockMaxCount := by
  unfold rent at h
  split at h
  · cases h
    rfl
  · split at h
    · split at h <;> cases h
    · split at h
      · cases h
        exact company.initBlock_blockMaxCount
      · cases h

/-- A pool that may have a block has a last one when it is full. -/
theorem defined_of_rent_error {company : BufferCompany} {e : Exn}
    (hmax : 1 ≤ company.blockMaxCount) (h : company.rent = .error e) : Defined e := by
  unfold rent at h
  split at h
  · cases h
  · split at h
    · next hfull =>
      have hne : ¬ company.blocks.isEmpty := by
        rw [List.isEmpty_iff_length_eq_zero]
        omega
      rw [if_neg hne] at h
      cases h
      nofun
    · split at h
      · cases h
      · cases h
        nofun

end BufferCompany

/-- Another pool of the same size. -/
theorem Host.Ample.of_company {host host' : Host} (h : host.Ample ndebug)
    (hbuild : host'.ndebug = host.ndebug)
    (hmax : host'.company.blockMaxCount = host.company.blockMaxCount)
    (hsize : host'.company.bufferSize = host.company.bufferSize) : host'.Ample ndebug :=
  ⟨hbuild.trans h.build, hmax ▸ h.blocks, hsize ▸ h.size_lt⟩

/-- The view of rented memory. -/
theorem inView_ofRented {rented : RentedBuffer} (h : rented.memory.length < 2 ^ 63) :
    (ofRented rented).InView := ⟨Nat.zero_le _, h⟩

/-- A buffer that is moved from can still be read. -/
theorem BinaryBuffer.InView.movedFrom {b : BinaryBuffer} (h : b.InView) : b.movedFrom.InView :=
  ⟨h.index_le, h.size_lt⟩

/-- The bytes of a view may change, and not their number. -/
theorem BinaryBuffer.InView.reload {b : BinaryBuffer} (h : b.InView) (company : BufferCompany) :
    (b.reload company).InView := by
  unfold BinaryBuffer.reload
  split
  · exact ⟨h.index_le.trans_eq (company.length_load _ _).symm,
      (company.length_load _ _).trans_lt h.size_lt⟩
  · exact h

/-! ## The primitives -/

section Primitives

variable {α : Type} {E : Exn → Prop} {Q : α → Prop} {b : BinaryBuffer}

/-- An update of the host that leaves the build and the pool's bounds is confined. -/
theorem confined_modifyHost {f : Host → Host} (hbuild : ∀ host, (f host).ndebug = host.ndebug)
    (hmax : ∀ host, (f host).company.blockMaxCount = host.company.blockMaxCount)
    (hsize : ∀ host, (f host).company.bufferSize = host.company.bufferSize) :
    Confined (World.Orderly ndebug) E (fun _ => True) (modifyHost f) :=
  .modify fun _ hw => ⟨hw.ample.of_company (hbuild _) (hmax _) (hsize _), hw.stored⟩

theorem confined_emit (event : Event) :
    Confined (World.Orderly ndebug) E (fun _ => True) (emit event) :=
  confined_modifyHost (fun _ => rfl) (fun _ => rfl) fun _ => rfl

theorem confined_release (b : BinaryBuffer) :
    Confined (World.Orderly ndebug) E (fun _ => True) (release b) :=
  confined_modifyHost (fun _ => rfl) (fun host => host.company.destroy_blockMaxCount _)
    fun host => host.company.destroy_bufferSize _

theorem confined_debug (call : DebugCall) :
    Confined (World.Orderly ndebug) E (fun _ => True) (debug call) :=
  .get_bind fun _ _ => .ite (fun _ => confined_emit _) fun _ => .pure trivial

/-- An update of the client that stores whole packets is confined. -/
theorem confined_modifyThis {f : RakroServerClient → RakroServerClient}
    (hf : ∀ client : RakroServerClient, client.StoresWhole → (f client).StoresWhole) :
    Confined (World.Orderly ndebug) E (fun _ => True) (modifyThis f) :=
  .modify fun _ hw => ⟨hw.ample, hf _ hw.stored⟩

theorem confined_timeSinceEpoch :
    Confined (World.Orderly ndebug) E (fun _ => True) timeSinceEpoch where
  returns w a w' hw hrun := by
    cases run_timeSinceEpoch.symm.trans hrun
    exact ⟨⟨hw.ample.of_company rfl rfl rfl, hw.stored⟩, trivial⟩
  throws w e w' _ hrun := by cases run_timeSinceEpoch.symm.trans hrun

/-- A rented buffer can be read and written. -/
theorem confined_rent : Confined (World.Orderly ndebug) Defined InView rent where
  returns w b w' hw hrun := by
    cases hrent : w.host.company.rent with
    | ok r =>
      cases (run_rent_ok hrent).symm.trans hrun
      obtain ⟨hlen, hsize⟩ := BufferCompany.rent_eq_ok hrent
      exact ⟨⟨hw.ample.of_company rfl (BufferCompany.rent_blockMaxCount hrent) hsize, hw.stored⟩,
        inView_ofRented (hlen.trans_lt hw.ample.size_lt)⟩
    | error e => cases (run_rent_error hrent).symm.trans hrun
  throws w e w' hw hrun := by
    cases hrent : w.host.company.rent with
    | ok r => cases (run_rent_ok hrent).symm.trans hrun
    | error e' =>
      cases (run_rent_error hrent).symm.trans hrun
      exact BufferCompany.defined_of_rent_error hw.ample.blocks hrent

/-- A buffer that is read from stays one that can be read. -/
theorem confined_onBuffer {method : BufM α} (hm : Reading method) (hb : b.InView) :
    Confined (World.Orderly ndebug) Defined (fun r => r.2.InView) (onBuffer b method) where
  returns w r w' hw hrun := by
    obtain ⟨hmethod, rfl⟩ := onBuffer_eq_ok hrun
    have hview := (hm.safely b hb).1
    rw [after_of_ok hmethod] at hview
    exact ⟨hw, hview⟩
  throws w e w' hw hrun := by
    cases hmethod : method.run b with
    | ok a b' => cases (run_onBuffer_ok hmethod).symm.trans hrun
    | error e' b' =>
      cases (run_onBuffer_error hmethod).symm.trans hrun
      exact (hm.safely b hb).2.2 _ _ hmethod

theorem confined_onSendBuffer {method : BufM PUnit} (hm : Filling method) (hb : b.InView) :
    Confined (World.Orderly ndebug) Defined (fun r => r.2.InView) (onSendBuffer b method) where
  returns w r w' hw hrun := by
    cases hmethod : method.run b with
    | ok a b' =>
      cases (run_onSendBuffer_ok hmethod).symm.trans hrun
      have hview := (hm.safely b hb).1
      rw [after_of_ok hmethod] at hview
      exact ⟨⟨hw.ample.of_company rfl (BufferCompany.keep_blockMaxCount _ _)
        (BufferCompany.keep_bufferSize _ _), hw.stored⟩, hview⟩
    | error e b' => cases (run_onSendBuffer_error hmethod).symm.trans hrun
  throws w e w' hw hrun := by
    cases hmethod : method.run b with
    | ok a b' => cases (run_onSendBuffer_ok hmethod).symm.trans hrun
    | error e' b' =>
      cases (run_onSendBuffer_error hmethod).symm.trans hrun
      exact (hm.safely b hb).2.2 _ _ hmethod

theorem confined_guarded {body : ClientM α} (h : Confined (World.Orderly ndebug) E Q body) :
    Confined (World.Orderly ndebug) E Q (guarded b body) where
  returns w a w' hw hrun := by
    cases hbody : body.run w with
    | ok a' w₁ =>
      cases (run_guarded_ok hbody).symm.trans hrun
      exact h.returns w a w' hw hbody
    | error e w₁ => cases (run_guarded_error hbody).symm.trans hrun
  throws w e w' hw hrun := by
    cases hbody : body.run w with
    | ok a w₁ => cases (run_guarded_ok hbody).symm.trans hrun
    | error e' w₁ =>
      cases (run_guarded_error hbody).symm.trans hrun
      exact h.throws w _ _ hw hbody

theorem confined_owning {body : ClientM α} (h : Confined (World.Orderly ndebug) E Q body) :
    Confined (World.Orderly ndebug) E Q (owning b body) :=
  .bind (confined_guarded h) fun _ ha => .bind (confined_release b) fun _ _ => .pure ha

end Primitives

/-! ## Replies -/

section Replies

variable {b sent : BinaryBuffer}

theorem confined_keepSent (rely : FrameReliability) :
    Confined (World.Orderly ndebug) Defined (fun _ => True) (keepSent rely sent) := by
  refine .ite (fun _ => .get_bind fun w _ => ?_) fun _ => confined_release _
  refine .bind (confined_modifyThis fun _ => id) fun _ _ => .get_bind fun _ _ => ?_
  exact .ite (fun _ => confined_release _) fun _ => confined_modifyThis fun _ => id

theorem confined_readyBuffer (rely : FrameReliability) :
    Confined (World.Orderly ndebug) Defined (fun _ => True) (readyBuffer b rely) := by
  refine .bind confined_rent fun sent hsent => .bind (confined_guarded (Q := fun _ => True) ?_)
    fun _ _ => .bind (confined_keepSent rely) fun _ _ => .pure trivial
  refine .bind (Q := fun _ => True) (.get_bind fun _ _ => .pure trivial) fun header _ => ?_
  have hfilling : Filling (writeFramed header (makeInfo rely b) b.consumedSlice) :=
    .bind (filling_write header) (.bind (filling_write _) (.forM .writeByte _))
  refine .bind (confined_onSendBuffer hfilling hsent) fun _ _ => ?_
  refine .get_bind  fun _ _ => ?_
  refine .bind (confined_emit _) fun _ _ => ?_
  exact .pure trivial

theorem confined_sendTo (bytes : Bytes) :
    Confined (World.Orderly ndebug) Defined (fun _ => True) (sendTo bytes) :=
  .get_bind fun _ _ => .bind (confined_debug _) fun _ _ => confined_emit _

theorem confined_connectionRequest (hb : b.InView) :
    Confined (World.Orderly ndebug) Defined (fun _ => True) (connectionRequest b) := by
  refine .bind (confined_onBuffer (reading_readNext _) hb) fun r _ =>
    .bind (confined_modifyThis fun _ => id) fun _ _ => .ite (fun _ => .pure trivial) fun _ => ?_
  refine .bind confined_timeSinceEpoch fun _ _ => ?_
  refine .get_bind  fun _ _ => ?_
  refine .bind confined_rent fun sent hsent => ?_
  refine confined_owning ?_
  exact .bind (confined_onSendBuffer (filling_write _) hsent) fun _ _ =>
    .bind (confined_readyBuffer _) fun _ _ => confined_sendTo _

theorem confined_answerPing (hb : b.InView) (hsent : sent.InView) :
    Confined (World.Orderly ndebug) Defined (fun r => r.1.InView) (answerPing b sent) := by
  refine .ite (fun _ => ?_) fun _ => .ite (fun _ => ?_) fun _ => .pure hb
  · refine .bind (confined_onBuffer (reading_readNext _) hb) fun r hr => ?_
    refine .bind confined_timeSinceEpoch fun _ _ => ?_
    refine .get_bind  fun _ _ => ?_
    refine .bind (confined_onSendBuffer (filling_write _) hsent) fun _ _ => ?_
    exact .pure hr
  · exact .bind (confined_onBuffer (reading_readNext _) hb) fun r hr =>
      .bind (confined_onSendBuffer (filling_write _) hsent) fun _ _ => .pure hr

theorem confined_unhandled (b : BinaryBuffer) :
    Confined (World.Orderly ndebug) Defined (fun _ => True) (unhandled b) :=
  .get_bind fun _ _ => confined_debug _

theorem confined_connectedPingPong (hb : b.InView) :
    Confined (World.Orderly ndebug) Defined (fun _ => True) (connectedPingPong b) := by
  refine .bind confined_rent fun sent hsent => .bind (confined_owning (Q := InView) ?_)
    fun b' _ => confined_unhandled b'
  refine .bind (confined_answerPing hb hsent) fun r hr => ?_
  refine .bind (confined_readyBuffer _) fun _ _ => ?_
  refine .bind (confined_sendTo _) fun _ _ => ?_
  exact .pure hr

theorem confined_switchData (packetId : UInt8) (hb : b.InView) :
    Confined (World.Orderly ndebug) Defined (fun _ => True) (switchData packetId b) := by
  unfold switchData
  split
  · exact confined_connectionRequest hb
  · exact .pure trivial
  · exact confined_connectedPingPong hb
  · exact confined_unhandled b

/-- Whatever the payload is, all that is read and written is inside of a buffer. -/
theorem confined_processData (hb : b.InView) :
    Confined (World.Orderly ndebug) Defined (fun _ => True) (processData b) :=
  confined_owning (.bind (confined_emit _) fun _ _ => .bind (confined_debug _) fun _ _ =>
    .bind (confined_onBuffer (reading_readNext _) hb) fun r hr => confined_switchData r.1 hr)

end Replies

/-! ## Frames -/

/-- What is undefined about the exception, if anything is, is one of `B`. -/
def Only (B : String → Prop) (e : Exn) : Prop := ∀ what, e = .undefined what → B what

/-- A defined end is none of the undefined ones. -/
theorem Only.of_defined {B : String → Prop} {e : Exn} (h : Defined e) : Only B e :=
  fun what hwhat => absurd hwhat (h what)

theorem Only.mono {B C : String → Prop} (hBC : ∀ what, B what → C what) {e : Exn} (h : Only B e) :
    Only C e := fun what hwhat => hBC what (h what hwhat)

/-- What is undefined about an access to a counter of a channel that does not exist. -/
def FrameInfo.strayText (info : FrameInfo) : String :=
  if info.sequenceFrameIndex.isSome then "index past the end of sequenced_packets_next_packet"
  else "index past the end of ordered_buffer_next_packets"

section Frames

variable {α : Type} {B : String → Prop} {Q : α → Prop} {m : ClientM α} {b : BinaryBuffer}
  {info : FrameInfo} {order : OrderInformation}

/-- What has no undefined end has at most the allowed ones. -/
theorem confined_only (h : Confined (World.Orderly ndebug) Defined Q m) :
    Confined (World.Orderly ndebug) (Only B) Q m := h.mono (fun _ => id) fun _ => Only.of_defined

/-- What is read from a counter is in range, or it is undefined. -/
theorem confined_orderedNext (channel : UInt8) :
    Confined (World.Orderly ndebug)
      (Only fun what => maxOrderChannels ≤ channel.toNat ∧
        what = "index past the end of ordered_buffer_next_packets")
      (fun _ => channel.toNat < maxOrderChannels) (orderedNext channel) where
  returns w next w' hw hrun := by
    by_cases hchannel : channel.toNat < maxOrderChannels
    · cases (run_orderedNext hchannel w).symm.trans hrun
      exact ⟨hw, hchannel⟩
    · cases (run_orderedNext_fault (Nat.le_of_not_lt hchannel) w).symm.trans hrun
  throws w e w' _ hrun := by
    by_cases hchannel : channel.toNat < maxOrderChannels
    · cases (run_orderedNext hchannel w).symm.trans hrun
    · cases (run_orderedNext_fault (Nat.le_of_not_lt hchannel) w).symm.trans hrun
      rintro what ⟨⟩
      exact ⟨Nat.le_of_not_lt hchannel, rfl⟩

theorem confined_sequencedNext (channel : UInt8) :
    Confined (World.Orderly ndebug)
      (Only fun what => maxOrderChannels ≤ channel.toNat ∧
        what = "index past the end of sequenced_packets_next_packet")
      (fun _ => channel.toNat < maxOrderChannels) (sequencedNext channel) where
  returns w next w' hw hrun := by
    by_cases hchannel : channel.toNat < maxOrderChannels
    · cases (run_sequencedNext hchannel w).symm.trans hrun
      exact ⟨hw, hchannel⟩
    · cases (run_sequencedNext_fault (Nat.le_of_not_lt hchannel) w).symm.trans hrun
  throws w e w' _ hrun := by
    by_cases hchannel : channel.toNat < maxOrderChannels
    · cases (run_sequencedNext hchannel w).symm.trans hrun
    · cases (run_sequencedNext_fault (Nat.le_of_not_lt hchannel) w).symm.trans hrun
      rintro what ⟨⟩
      exact ⟨Nat.le_of_not_lt hchannel, rfl⟩

/-- In range, nothing about the counters is undefined. -/
theorem confined_orderedNext_defined {channel : UInt8} (h : channel.toNat < maxOrderChannels) :
    Confined (World.Orderly ndebug) Defined (fun _ => True) (orderedNext channel) :=
  (confined_orderedNext channel).mono (fun _ _ => trivial) fun _ he what hwhat =>
    absurd h (Nat.not_lt.mpr (he what hwhat).1)

theorem confined_bumpOrdered {channel : UInt8} (h : channel.toNat < maxOrderChannels) :
    Confined (World.Orderly ndebug) Defined (fun _ => True) (bumpOrdered channel) :=
  .bind (confined_orderedNext_defined h) fun _ _ => confined_modifyThis fun _ => id

/-- The loop over the stored packets has no undefined end, by induction on its fuel. -/
theorem confined_drain {channel : UInt8} (h : channel.toNat < maxOrderChannels) :
    ∀ (fuel : Nat) (key : OrderKey),
      Confined (World.Orderly ndebug) Defined (fun _ => True) (drain channel fuel key)
  | 0, _ => .throw nofun
  | fuel + 1, key => by
    refine .get_bind fun w hw => ?_
    split
    · exact .pure trivial
    · next val hval =>
      obtain ⟨hplaced, hview⟩ := hw.stored _ _ hval
      refine .bind (confined_modifyThis fun _ hclient => AllEntries.erase hclient key) fun _ _ => ?_
      refine .get_bind  fun _ _ => ?_
      refine .bind (confined_processData (hview.reload _)) fun _ _ => ?_
      split
      -- what is stored has a place
      · next hnone =>
        rw [hnone] at hplaced
        cases hplaced
      · exact .bind (confined_bumpOrdered h) fun _ _ => confined_drain h fuel _

theorem confined_alreadyStored (b : BinaryBuffer) (info : FrameInfo) (order : OrderInformation) :
    Confined (World.Orderly ndebug) Defined (fun _ => True) (alreadyStored b info order) := by
  refine .bind (confined_debug _) fun _ _ => ?_
  refine .bind (confined_release b) fun _ _ => ?_
  refine .get_bind  fun w _ => ?_
  split
  · exact .ite (fun _ => .throw nofun) fun _ => .pure trivial
  · exact .throw nofun

theorem confined_setSequenced (channel : UInt8) (value : UInt32) :
    Confined (World.Orderly ndebug) Defined (fun _ => True) (setSequenced channel value) :=
  confined_modifyThis fun _ => id

/-- An ordered frame breaks on a channel out of range only. -/
theorem confined_processOrdered (hb : b.InView) (horder : info.orderInfo = some order) :
    Confined (World.Orderly ndebug)
      (Only fun what => maxOrderChannels ≤ order.orderChannel.toNat ∧
        what = "index past the end of ordered_buffer_next_packets")
      (fun r => ∀ b' ∈ r, b'.InView) (processOrdered b info order) := by
  have hmoved : ∀ b' ∈ some b.movedFrom, b'.InView := by
    rintro b' ⟨⟩
    exact hb.movedFrom
  refine .bind (confined_orderedNext _) fun next hchannel => confined_only ?_
  refine .ite (fun _ => ?_) fun _ => .ite (fun _ => ?_) fun _ => ?_
  · refine .bind (confined_bumpOrdered hchannel) fun _ _ => ?_
    refine .bind (confined_processData hb) fun _ _ => ?_
    refine .get_bind  fun _ _ => ?_
    refine .bind (confined_drain hchannel _ _) fun _ _ => ?_
    exact .pure hmoved
  · exact .bind (confined_release b) fun _ _ => .pure nofun
  · refine .bind (confined_setSequenced _ _) fun _ _ => .get_bind fun _ _ =>
      .ite (fun _ => ?_) fun _ => ?_
    · exact .bind (confined_alreadyStored b info order) fun _ _ => .pure nofun
    · refine .bind (confined_modifyThis fun _ hclient => ?_) fun _ _ => .pure hmoved
      exact AllEntries.insert hclient ⟨horder ▸ rfl, hb⟩

/-- Behind an assertion, its condition holds and assertions are off. -/
theorem confined_rakroAssert (condition : Bool) :
    Confined (World.Orderly ndebug) Defined (fun _ => condition ∧ ndebug = true)
      (rakroAssert condition) := by
  refine .get_bind fun w hw => .ite (fun h => .pure ?_) fun _ => .throw nofun
  rw [Bool.and_eq_true, hw.ample.build] at h
  exact h

/-- A sequenced frame gets to the counters only in a build without assertions. -/
theorem confined_processSequenced (hb : b.InView) {index : UInt24}
    (hindex : info.sequenceFrameIndex = some index) :
    Confined (World.Orderly ndebug)
      (Only fun what => info.Strays ndebug ∧ what = info.strayText) (fun _ => True)
      (processSequenced b info index) := by
  refine .bind (confined_only (confined_debug _)) fun _ _ =>
    .bind (confined_only (confined_rakroAssert _)) fun _ hassert => ?_
  split
  · next hnone =>
    rw [hnone] at hassert
    cases hassert.1
  · next order horder =>
    refine .bind (Q := fun _ => order.orderChannel.toNat < maxOrderChannels)
      ((confined_sequencedNext _).mono (fun _ => id) fun e he => he.mono fun what hwhat => ?_)
      fun _ hchannel => confined_only ?_
    · refine ⟨⟨.inr hassert.2, order, horder, hwhat.1⟩, ?_⟩
      rw [hwhat.2, FrameInfo.strayText, hindex]
      rfl
    · refine .bind (confined_orderedNext_defined hchannel) fun _ _ =>
        .ite (fun _ => ?_) fun _ => ?_
      · exact .bind (confined_setSequenced _ _) fun _ _ => confined_processData hb
      · exact .bind (confined_debug _) fun _ _ => confined_release b

theorem confined_orderFrame (hb : b.InView) (hindex : info.sequenceFrameIndex = none) :
    Confined (World.Orderly ndebug)
      (Only fun what => info.Strays ndebug ∧ what = info.strayText)
      (fun r => ∀ b' ∈ r, b'.InView) (orderFrame b info) := by
  unfold orderFrame
  split
  · next order horder =>
    refine (confined_processOrdered hb horder).mono (fun _ => id) fun e he =>
      he.mono fun what hwhat => ⟨⟨.inl hindex, order, horder, hwhat.1⟩, ?_⟩
    rw [hwhat.2, FrameInfo.strayText, hindex]
    rfl
  · exact .pure fun b' hb' => by cases hb'; exact hb

/-- The only thing undefined about a frame is a channel that does not exist. -/
theorem confined_processFrame (hb : b.InView) :
    Confined (World.Orderly ndebug)
      (Only fun what => info.Strays ndebug ∧ what = info.strayText) (fun _ => True)
      (processFrame b info) := by
  refine .bind (confined_emit _) fun _ _ => ?_
  split
  · next index hindex => exact confined_processSequenced hb hindex
  · next hindex =>
    refine .bind (confined_orderFrame hb hindex) fun r hr => ?_
    split
    · exact confined_only (confined_processData (hr _ rfl))
    · exact .pure trivial

theorem confined_handFrame (hb : b.InView) :
    Confined (World.Orderly ndebug)
      (Only fun what => info.fragmentInfo = none ∧ info.Strays ndebug ∧ what = info.strayText)
      (fun _ => True) (handFrame b info) := by
  refine .ite (fun _ => confined_emit _) fun hfragment => ?_
  rw [Option.not_isSome_iff_eq_none] at hfragment
  exact (confined_processFrame hb).mono (fun _ => id) fun e he => he.mono fun what hwhat =>
    ⟨hfragment, hwhat⟩

end Frames

/-! ## Datagrams -/

/-- More than four bytes are left in front of the frame loop, and what they begin with breaks it. -/
inductive BreaksAt (ndebug : Bool) : Bytes → String → Prop
  /-- A header that announces a longer body than there is. -/
  | overrun {header tail : Bytes} {info : FrameInfo} : Consumes (readNext FrameInfo) header info →
      4 < header.length + tail.length → tail.length < info.bodyLeng.toNat →
      BreaksAt ndebug (header ++ tail) "subspan past the end"
  /-- A frame of a channel that does not exist. -/
  | stray (f : ParsedFrame) (rest : Bytes) : 4 < f.bytes.length + rest.length →
      f.info.fragmentInfo = none → f.info.Strays ndebug →
      BreaksAt ndebug (f.bytes ++ rest) f.info.strayText

/-- Behind some frames that are whole, there is what breaks the loop. -/
def BreaksBehind (ndebug : Bool) (r : Bytes) (what : String) : Prop :=
  ∃ (fs : List ParsedFrame) (tail : Bytes),
    r = fs.flatMap ParsedFrame.bytes ++ tail ∧ BreaksAt ndebug tail what

/-- What breaks at the front breaks somewhere. -/
theorem BreaksAt.behind {r : Bytes} {what : String} (h : BreaksAt ndebug r what) :
    BreaksBehind ndebug r what := ⟨[], r, rfl, h⟩

/-- What breaks behind a frame breaks with the frame in front. -/
theorem BreaksBehind.cons {f : ParsedFrame} {rest : Bytes} {what : String}
    (h : BreaksBehind ndebug rest what) : BreaksBehind ndebug (f.bytes ++ rest) what := by
  obtain ⟨fs, tail, rfl, hat⟩ := h
  exact ⟨f :: fs, tail, by rw [List.flatMap_cons, List.append_assoc], hat⟩

section Datagrams

variable {b : BinaryBuffer}

/-- The view of a body. -/
theorem ParsedFrame.inView_view (f : ParsedFrame) (home : Option Place) (cursor : Nat)
    (rest : Bytes) : (f.view home cursor rest).InView := by
  refine ⟨Nat.zero_le _, ?_⟩
  show f.body.length < 2 ^ 63
  have hlt : f.info.bodyLeng.toNat < 2 ^ 16 := f.info.bodyLeng.toNat_lt
  rw [f.length_body]
  omega

theorem confined_round (home : Option Place) (size cursor : Nat) (f : ParsedFrame) (rest : Bytes)
    (hlen : 4 < f.bytes.length + rest.length) :
    Confined (World.Orderly ndebug) (Only (BreaksAt ndebug (f.bytes ++ rest))) (fun _ => True)
      (round home size cursor f rest) := by
  refine .bind (confined_emit _) fun _ _ => (confined_handFrame (f.inView_view _ _ _)).mono
    (fun _ => id) fun e he => he.mono ?_
  rintro _ ⟨hfragment, hstrays, rfl⟩
  exact .stray f rest hlen hfragment hstrays

/-- What is undefined about the loop is found behind the frames that it has handed on. -/
theorem confined_frameLoop : ∀ (fuel : Nat) (b : BinaryBuffer) (p r : Bytes),
    (b.between p r).InView →
      Confined (World.Orderly ndebug) (Only (BreaksBehind ndebug r)) (fun _ => True)
        (frameLoop fuel (b.between p r))
  | 0, _, _, _, _ => .throw (Only.of_defined nofun)
  | fuel + 1, b, p, r, hb => by
    cases loopFront b p r with
    | finished hshort =>
      rw [frameLoop_end hshort]
      exact .pure trivial
    | unread hlong hread =>
      refine ⟨fun w _ _ _ hrun => ?_, fun w e w' _ hrun => ?_⟩
      · cases (run_frameLoop_unread fuel w hlong hread).symm.trans hrun
      · cases (run_frameLoop_unread fuel w hlong hread).symm.trans hrun
        exact Only.of_defined (((reading_readNext FrameInfo).safely _ hb).2.2 _ _ hread)
    | overrun hreads hlong hover =>
      refine ⟨fun w _ _ _ hrun => ?_, fun w e w' _ hrun => ?_⟩
      · cases (run_frameLoop_overrun fuel b p hreads hlong hover w).symm.trans hrun
      · cases (run_frameLoop_overrun fuel b p hreads hlong hover w).symm.trans hrun
        rintro what ⟨⟩
        exact (BreaksAt.overrun hreads hlong hover).behind
    | frame f rest hlen =>
      rw [frameLoop_round fuel b p hlen]
      have hrest : (b.between (p ++ f.bytes) rest).InView := by
        obtain ⟨-, hsize⟩ := hb
        rw [between_size] at hsize
        refine ⟨?_, ?_⟩
        · rw [between_size]
          exact Nat.le_add_right _ _
        · rw [between_size, List.length_append, Nat.add_assoc, ← List.length_append]
          exact hsize
      refine .bind ((confined_round _ _ _ f rest hlen).mono (fun _ => id) fun e he =>
        he.mono fun _ => BreaksAt.behind) fun _ _ => ?_
      exact (confined_frameLoop fuel b _ rest hrest).mono (fun _ => id) fun e he =>
        he.mono fun _ => BreaksBehind.cons

theorem confined_eraseAckBuffer (id : UInt24) :
    Confined (World.Orderly ndebug) Defined (fun _ => True) (eraseAckBuffer id) := by
  refine .get_bind fun w _ => ?_
  split
  · exact .pure trivial
  · exact .bind (confined_modifyThis fun _ h => h) fun _ _ => confined_release _

theorem confined_processAck (hb : b.InView) :
    Confined (World.Orderly ndebug) Defined (fun _ => True) (processAck b) := by
  refine confined_owning (.bind (confined_onBuffer (reading_readNext _) hb) fun r _ => ?_)
  obtain ⟨ack, b'⟩ := r
  dsimp only
  split
  · exact .forM confined_eraseAckBuffer _
  · exact .throw nofun

theorem confined_advanceWindow (seq expected : UInt24) :
    Confined (World.Orderly ndebug) Defined (fun _ => True) (advanceWindow seq expected) := by
  refine .bind (Q := fun _ => True) (.get_bind fun w _ => .ite (fun _ => ?_) fun _ => .pure trivial)
    fun _ _ => confined_modifyThis fun _ => id
  split
  · exact confined_modifyThis fun _ => id
  · exact .throw nofun

/-- Behind the header, the buffer can be read. -/
theorem IsFrameSet.inView {id : UInt8} {seq rest : Bytes} (h : IsFrameSet b id seq rest)
    (hb : b.InView) : (b.between (id :: seq) rest).InView := by
  have hsize := hb.size_lt
  rw [h.size_eq, ← h.length_header] at hsize
  refine ⟨?_, ?_⟩
  · rw [between_size]
    exact Nat.le_add_right _ _
  · rwa [between_size]

/-- What is undefined about a frame set that is not stale is behind its header. -/
theorem IsFrameSet.confined {id : UInt8} {seq rest : Bytes} (h : IsFrameSet b id seq rest)
    (hb : b.InView) :
    Confined (World.Orderly ndebug) (Only (BreaksBehind ndebug rest)) (fun _ => True)
      (processPacket b) := by
  rw [h.processPacket_eq]
  exact confined_owning (.get_bind fun _ _ => .ite (fun _ => .pure trivial) fun _ =>
    .bind (confined_only (confined_advanceWindow _ _)) fun _ _ =>
      confined_frameLoop _ b _ rest (h.inView hb))

theorem confined_processPacket (hb : b.InView) (hstart : b.index = 0) :
    Confined (World.Orderly ndebug)
      (Only fun what => ∃ id seq rest, IsFrameSet b id seq rest ∧ BreaksBehind ndebug rest what)
      (fun _ => True) (processPacket b) := by
  cases packetFront hstart with
  | short _ _ hrun =>
    refine ⟨fun w _ _ _ hok => ?_, fun w e w' _ herror => ?_⟩
    · cases (hrun w).symm.trans hok
    · cases (hrun w).symm.trans herror
      exact Only.of_defined nofun
  | ignored _ _ _ hrun =>
    rw [hrun]
    exact confined_release b
  | nack _ hrun =>
    rw [hrun]
    exact .bind (confined_emit _) fun _ _ => confined_release b
  | ack _ hrun =>
    rw [hrun]
    exact confined_only (confined_processAck hb)
  | @frameSet id seq rest hset =>
    exact (hset.confined hb).mono (fun _ h => h) fun e he => he.mono fun _ hwhat =>
      ⟨id, seq, rest, hset, hwhat⟩

end Datagrams

end Rakro
