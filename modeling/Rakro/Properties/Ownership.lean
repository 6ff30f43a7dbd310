import Rakro.Properties.Backing
import Rakro.Properties.Handshake

/-!
# Who owns what the server stores

A datagram that is kept until it is acknowledged owns the buffer it was written into, and a packet
that is stored out of order owns nothing: it is a view of the buffer of the datagram it came in. So
the rented buffers are those of the clients' `ack_buffer`s and those that are in the scope of a
method. Every method of the client, of the router and of the server keeps it so.
-/

namespace Rakro

open Infra BinaryBuffer

@[simp] theorem realBuffer_ofRented (rented : RentedBuffer) :
    (ofRented rented).realBuffer = rented := by
  unfold ofRented realBuffer
  rw [List.append_nil]

/-- The datagrams that the client keeps until they are acknowledged. -/
def RakroServerClient.parked (client : RakroServerClient) : List RentedBuffer :=
  holdings (fun buffer : BinaryBuffer => [buffer.realBuffer]) client.ackBuffer

/-- What is stored out of order returns nothing to the pool. -/
def RakroServerClient.OnlyViews (client : RakroServerClient) : Prop :=
  AllEntries (fun _ val => val.rawData.owner = none) client.outOfOrderPacketBuffer

/-- The buffers of the pool, seen by a client: its own, those stored `elsewhere` and the scope. -/
structure World.Pooled (config : ServerConfig) (elsewhere : List RentedBuffer)
    (scope : List BufferId) (w : World) : Prop where
  backs : w.host.company.Backs config (w.this.parked ++ elsewhere) scope
  views : w.this.OnlyViews

/-- The buffer of the datagram is back in the pool, so not all of it is kept. -/
structure World.Settled (config : ServerConfig) (elsewhere : List RentedBuffer) (w : World) :
    Prop where
  pooled : w.Pooled config elsewhere []
  room : (w.this.parked ++ elsewhere).length < config.capacity

/-- Neither the stores of the client nor the pool change. -/
structure SameStores (w w' : World) : Prop where
  ackBuffer : w'.this.ackBuffer = w.this.ackBuffer
  outOfOrderPacketBuffer : w'.this.outOfOrderPacketBuffer = w.this.outOfOrderPacketBuffer
  company : w'.host.company = w.host.company

instance : IsPreorder World SameStores where
  refl _ := ⟨rfl, rfl, rfl⟩
  trans _ _ _ h h' := ⟨h'.1.trans h.1, h'.2.trans h.2, h'.3.trans h.3⟩

section Client

variable {α : Type} {config : ServerConfig} {elsewhere : List RentedBuffer}
  {scope : List BufferId} {w w' : World} {b : BinaryBuffer} {buffer : BufferId}

theorem World.Pooled.of_same (h : w.Pooled config elsewhere scope) (hsame : SameStores w w') :
    w'.Pooled config elsewhere scope := by
  refine ⟨?_, ?_⟩
  · unfold RakroServerClient.parked
    rw [hsame.ackBuffer, hsame.company]
    exact h.backs
  · unfold RakroServerClient.OnlyViews
    rw [hsame.outOfOrderPacketBuffer]
    exact h.views

variable (config elsewhere scope) in
/-- The method keeps to the pool: what is in the scope when it starts is when it returns. -/
abbrev KeepsPooled (m : ClientM α) : Prop :=
  Yields (World.Pooled config elsewhere scope) m fun _ => World.Pooled config elsewhere scope

theorem KeepsPooled.of_same {m : ClientM α} (h : Within SameStores m) :
    KeepsPooled config elsewhere scope m :=
  fun _ _ _ hpooled hrun => hpooled.of_same (h.of_run hrun)

/-! ## Renting and returning -/

theorem same_emit (event : Event) : Within SameStores (emit event) := fun _ => ⟨rfl, rfl, rfl⟩

theorem same_debug (call : DebugCall) : Within SameStores (debug call) :=
  Within.bind Within.get fun _ => Within.ite (same_emit _) (Within.pure _)

theorem same_time : Within SameStores timeSinceEpoch := fun _ => ⟨rfl, rfl, rfl⟩

theorem yields_rent : Yields (World.Pooled config elsewhere scope) rent fun b w =>
    ∃ buffer, b.realBuffer.Owns config.rentedBufferSize buffer ∧
      w.Pooled config elsewhere (buffer :: scope) := by
  intro w b w' h hrun
  cases hrent : w.host.company.rent with
  | error e =>
    rw [run_rent_error hrent] at hrun
    cases hrun
  | ok r =>
    rw [run_rent_ok hrent] at hrun
    cases hrun
    obtain ⟨buffer, howns, hbacks⟩ := h.backs.rent hrent
    refine ⟨buffer, ?_, hbacks, h.views⟩
    rw [realBuffer_ofRented]
    exact howns

theorem yields_release (hsize : 1 ≤ config.rentedBufferSize)
    (howns : b.realBuffer.Owns config.rentedBufferSize buffer) :
    Yields (World.Pooled config elsewhere (buffer :: scope)) (release b) fun _ =>
      World.Pooled config elsewhere scope := by
  intro w u w' h hrun
  cases hrun
  exact ⟨h.backs.release hsize howns, h.views⟩

/-- The destructor of a view does nothing. -/
theorem same_release (hview : b.owner = none) : Within SameStores (release b) := by
  intro w
  rw [after_of_ok (run_release b)]
  exact ⟨rfl, rfl, BufferCompany.destroy_of_owner_none hview _⟩

/-- A guarded part that returns has not been cut short. -/
theorem guarded_eq_ok {body : ClientM α} {a : α} (h : (guarded b body).run w = .ok a w') :
    body.run w = .ok a w' := by
  cases hbody : body.run w with
  | ok a' w'' =>
    rw [run_guarded_ok hbody] at h
    exact h
  | error e w'' =>
    rw [run_guarded_error hbody] at h
    cases h

theorem yields_guarded {P : World → Prop} {Q : α → World → Prop} {body : ClientM α}
    (h : Yields P body Q) : Yields P (guarded b body) Q :=
  fun w a w' hw hrun => h w a w' hw (guarded_eq_ok hrun)

/-- The scope of a view. -/
theorem keepsPooled_owning {body : ClientM α} (hview : b.owner = none)
    (hbody : KeepsPooled config elsewhere scope body) :
    KeepsPooled config elsewhere scope (owning b body) :=
  Yields.bind (yields_guarded hbody) fun _ =>
    Yields.bind (KeepsPooled.of_same (same_release hview)) fun _ => Yields.pure fun _ h => h

/-- The scope of a rented buffer. -/
theorem keepsPooled_rent_owning (hsize : 1 ≤ config.rentedBufferSize)
    {body : BinaryBuffer → ClientM α}
    (hbody : ∀ b buffer, b.realBuffer.Owns config.rentedBufferSize buffer →
      KeepsPooled config elsewhere (buffer :: scope) (body b)) :
    KeepsPooled config elsewhere scope (rent >>= fun b => owning b (body b)) := by
  refine Yields.bind yields_rent fun b => Yields.of_exists fun buffer =>
    Yields.of_and fun howns => ?_
  exact Yields.bind (yields_guarded (hbody b buffer howns)) fun _ =>
    Yields.bind (yields_release hsize howns) fun _ => Yields.pure fun _ h => h

/-- A method that writes leaves the buffer at its place. -/
theorem owns_of_writeFrame {b b' : BinaryBuffer} {size : Nat} (h : b.realBuffer.Owns size buffer)
    (hframe : WriteFrame b b') : b'.realBuffer.Owns size buffer := by
  refine ⟨hframe.home_eq.trans h.home, hframe.owner_eq.trans h.owner, ?_⟩
  have hlength : (b.bytes ++ b.beyond).length = size := h.length
  have hbytes : b'.bytes.length = b.bytes.length := hframe.size_eq
  show (b'.bytes ++ b'.beyond).length = size
  rw [List.length_append, hbytes, hframe.beyond_eq, ← List.length_append, hlength]

/-- What is written into a rented buffer is in the memory of the pool. -/
theorem yields_onSendBuffer {m : BufM PUnit} (hm : Filling m)
    (howns : b.realBuffer.Owns config.rentedBufferSize buffer) (hscope : buffer ∈ scope) :
    Yields (World.Pooled config elsewhere scope) (onSendBuffer b m) fun r w =>
      (r.2.realBuffer.Owns config.rentedBufferSize buffer ∧
        w.host.company.load { buffer } config.rentedBufferSize = r.2.realBuffer.memory) ∧
      w.Pooled config elsewhere scope := by
  intro w r w' h hrun
  cases hwrite : m.run b with
  | error e b' =>
    rw [run_onSendBuffer_error hwrite] at hrun
    cases hrun
  | ok u b' =>
    rw [run_onSendBuffer_ok hwrite] at hrun
    cases hrun
    have howns' := owns_of_writeFrame howns (hm.within.of_run hwrite)
    exact ⟨⟨howns', BufferCompany.load_keep howns' _⟩, h.backs.keep howns' hscope, h.views⟩

theorem keepsPooled_onSendBuffer {m : BufM PUnit} (hm : Filling m)
    (howns : b.realBuffer.Owns config.rentedBufferSize buffer) (hscope : buffer ∈ scope) :
    KeepsPooled config elsewhere scope (onSendBuffer b m) :=
  (yields_onSendBuffer hm howns hscope).mono fun _ _ h => h.2

/-! ## Sending -/

/-- With the entry gone that is under the key, the rest of the buffers is the same. -/
theorem parked_perm {client : RakroServerClient} {key : UInt24} {stored : BinaryBuffer}
    (h : client.ackBuffer.lookup key = some stored) :
    client.parked.Perm (stored.realBuffer ::
      holdings (fun buffer : BinaryBuffer => [buffer.realBuffer]) (client.ackBuffer.erase key)) :=
  holdings_perm h

/-- A datagram that is written is kept or returned. -/
theorem yields_insertAckBuffer (hsize : 1 ≤ config.rentedBufferSize)
    (howns : b.realBuffer.Owns config.rentedBufferSize buffer) (index : UInt24) :
    Yields (fun w => w.host.company.load { buffer } config.rentedBufferSize = b.realBuffer.memory ∧
        w.Pooled config elsewhere (buffer :: scope)) (insertAckBuffer index b) fun _ =>
      World.Pooled config elsewhere scope := by
  intro w u w' h hrun
  obtain ⟨hload, hpooled⟩ := h
  by_cases hindex : index ∈ w.this.ackBuffer
  · rw [run_insertAckBuffer_taken hindex] at hrun
    exact yields_release hsize howns _ _ _ hpooled hrun
  · cases (run_insertAckBuffer_new hindex).symm.trans hrun
    refine ⟨?_, hpooled.views⟩
    have hstored := hpooled.backs.store howns hload
    show BufferCompany.Backs _ config (holdings (fun buffer : BinaryBuffer => [buffer.realBuffer])
      (w.this.ackBuffer.insert index b) ++ elsewhere) scope
    rw [holdings_insert_of_notMem hindex]
    exact hstored

theorem yields_keepSent (hsize : 1 ≤ config.rentedBufferSize)
    (howns : b.realBuffer.Owns config.rentedBufferSize buffer) (rely : FrameReliability) :
    Yields (fun w => w.host.company.load { buffer } config.rentedBufferSize = b.realBuffer.memory ∧
        w.Pooled config elsewhere (buffer :: scope)) (keepSent rely b) fun _ =>
      World.Pooled config elsewhere scope := by
  refine Yields.ite (fun _ => ?_) fun _ w u w' h hrun =>
    yields_release hsize howns w u w' h.2 hrun
  refine Yields.get_bind fun w hw => Yields.bind (Q := fun _ w =>
    w.host.company.load { buffer } config.rentedBufferSize = b.realBuffer.memory ∧
      w.Pooled config elsewhere (buffer :: scope)) ?_ fun _ => yields_insertAckBuffer hsize howns _
  rintro w u w' ⟨hload, hpooled⟩ hrun
  cases hrun
  exact ⟨hload, hpooled.of_same ⟨rfl, rfl, rfl⟩⟩

theorem filling_writeFramed (header : FrameHeader) (info : FrameInfo) (payload : Bytes) :
    Filling (writeFramed header info payload) :=
  .bind (filling_write _) (.bind (filling_write _) (.forM .writeByte _))

theorem keepsPooled_readyBuffer (hsize : 1 ≤ config.rentedBufferSize) (b : BinaryBuffer)
    (rely : FrameReliability) : KeepsPooled config elsewhere scope (readyBuffer b rely) := by
  refine Yields.bind yields_rent fun sent => Yields.of_exists fun buffer =>
    Yields.of_and fun howns => ?_
  refine Yields.bind (Q := fun r w =>
    (r.2.realBuffer.Owns config.rentedBufferSize buffer ∧
      w.host.company.load { buffer } config.rentedBufferSize = r.2.realBuffer.memory) ∧
    w.Pooled config elsewhere (buffer :: scope)) (yields_guarded ?_) fun r => ?_
  · refine Yields.bind (KeepsPooled.of_same (Within.bind Within.get fun _ => Within.pure _))
      fun _ => ?_
    refine Yields.bind (yields_onSendBuffer (filling_writeFramed _ _ _) howns List.mem_cons_self)
      fun r => ?_
    rintro w a w' ⟨hwritten, hpooled⟩ hrun
    -- the entry in the trace leaves the pool alone
    cases hrun
    exact ⟨hwritten, hpooled.of_same ⟨rfl, rfl, rfl⟩⟩
  · rintro w a w' ⟨⟨howns', hload⟩, hpooled⟩ hrun
    obtain ⟨u, w₁, hkeep, hrest⟩ := bind_eq_ok hrun
    cases hrest
    exact yields_keepSent hsize howns' rely _ _ _ ⟨hload, hpooled⟩ hkeep

theorem same_sendTo (bytes : Bytes) : Within SameStores (sendTo bytes) :=
  Within.bind Within.get fun _ => Within.bind (same_debug _) fun _ => same_emit _

/-! ## Messages -/

theorem keepsPooled_acceptConnection (hsize : 1 ≤ config.rentedBufferSize)
    (packetInfo : ConnectionRequest) :
    KeepsPooled config elsewhere scope (acceptConnection packetInfo) := by
  refine Yields.bind (KeepsPooled.of_same same_time) fun _ => Yields.get_bind fun _ _ => ?_
  refine keepsPooled_rent_owning hsize fun b buffer howns => ?_
  exact Yields.bind (keepsPooled_onSendBuffer (filling_write _) howns List.mem_cons_self) fun _ =>
    Yields.bind (keepsPooled_readyBuffer hsize _ _) fun _ => KeepsPooled.of_same (same_sendTo _)

theorem keepsPooled_connectionRequest (hsize : 1 ≤ config.rentedBufferSize) (b : BinaryBuffer) :
    KeepsPooled config elsewhere scope (connectionRequest b) := by
  refine Yields.bind (KeepsPooled.of_same (within_onBuffer _ _)) fun _ => ?_
  refine Yields.bind (KeepsPooled.of_same fun _ => ⟨rfl, rfl, rfl⟩) fun _ => ?_
  exact Yields.ite (fun _ => Yields.pure fun _ h => h) fun _ => keepsPooled_acceptConnection hsize _

theorem keepsPooled_answerPing (b : BinaryBuffer) {sent : BinaryBuffer}
    (howns : sent.realBuffer.Owns config.rentedBufferSize buffer) (hscope : buffer ∈ scope) :
    KeepsPooled config elsewhere scope (answerPing b sent) := by
  refine Yields.ite (fun _ => ?_) fun _ => Yields.ite (fun _ => ?_) fun _ =>
    Yields.pure fun _ h => h
  · refine Yields.bind (KeepsPooled.of_same (within_onBuffer _ _)) fun _ => ?_
    refine Yields.bind (KeepsPooled.of_same same_time) fun _ => Yields.get_bind fun _ _ => ?_
    exact Yields.bind (keepsPooled_onSendBuffer (filling_write _) howns hscope) fun _ =>
      Yields.pure fun _ h => h
  · refine Yields.bind (KeepsPooled.of_same (within_onBuffer _ _)) fun _ => ?_
    exact Yields.bind (keepsPooled_onSendBuffer (filling_write _) howns hscope) fun _ =>
      Yields.pure fun _ h => h

theorem same_unhandled (b : BinaryBuffer) : Within SameStores (unhandled b) :=
  Within.bind Within.get fun _ => same_debug _

theorem keepsPooled_connectedPingPong (hsize : 1 ≤ config.rentedBufferSize) (b : BinaryBuffer) :
    KeepsPooled config elsewhere scope (connectedPingPong b) := by
  unfold connectedPingPong
  rw [← bind_assoc]
  refine Yields.bind (keepsPooled_rent_owning hsize fun sent buffer howns => ?_) fun _ =>
    KeepsPooled.of_same (same_unhandled _)
  refine Yields.bind (keepsPooled_answerPing b howns List.mem_cons_self) fun _ => ?_
  exact Yields.bind (keepsPooled_readyBuffer hsize _ _) fun _ =>
    Yields.bind (KeepsPooled.of_same (same_sendTo _)) fun _ => Yields.pure fun _ h => h

theorem keepsPooled_switchData (hsize : 1 ≤ config.rentedBufferSize) (packetId : UInt8)
    (b : BinaryBuffer) : KeepsPooled config elsewhere scope (switchData packetId b) := by
  unfold switchData
  split
  · exact keepsPooled_connectionRequest hsize b
  · exact Yields.pure fun _ h => h
  · exact keepsPooled_connectedPingPong hsize b
  · exact KeepsPooled.of_same (same_unhandled b)

/-- A payload is only ever a view. -/
theorem keepsPooled_processData (hsize : 1 ≤ config.rentedBufferSize) (hview : b.owner = none) :
    KeepsPooled config elsewhere scope (processData b) := by
  refine keepsPooled_owning hview ?_
  refine Yields.bind (KeepsPooled.of_same (same_emit _)) fun _ => ?_
  refine Yields.bind (KeepsPooled.of_same (same_debug _)) fun _ => ?_
  exact Yields.bind (KeepsPooled.of_same (within_onBuffer _ _)) fun _ =>
    keepsPooled_switchData hsize _ _

/-! ## Frames -/

theorem same_bumpOrdered (channel : UInt8) : Within SameStores (bumpOrdered channel) :=
  Within.bind (within_orderedNext channel) fun _ _ => ⟨rfl, rfl, rfl⟩

theorem same_setSequenced (channel : UInt8) (value : UInt32) :
    Within SameStores (setSequenced channel value) := fun _ => ⟨rfl, rfl, rfl⟩

/-- What is taken out of the store, or stays, is a view. -/
theorem RakroServerClient.OnlyViews.erase {client : RakroServerClient} (h : client.OnlyViews)
    (key : OrderKey) :
    RakroServerClient.OnlyViews
      { client with outOfOrderPacketBuffer := client.outOfOrderPacketBuffer.erase key } :=
  AllEntries.erase h key

theorem RakroServerClient.OnlyViews.insert {client : RakroServerClient} (h : client.OnlyViews)
    (key : OrderKey) {val : PacketInformation} (hview : val.rawData.owner = none) :
    RakroServerClient.OnlyViews
      { client with outOfOrderPacketBuffer := client.outOfOrderPacketBuffer.insert key val } :=
  AllEntries.insert h hview

theorem owner_reload (b : BinaryBuffer) (company : BufferCompany) :
    (b.reload company).owner = b.owner := by
  unfold reload
  split <;> rfl

/-- The loop over the stored packets keeps the account, by induction on its fuel. -/
theorem keepsPooled_drain (hsize : 1 ≤ config.rentedBufferSize) (channel : UInt8) :
    ∀ (fuel : Nat) (key : OrderKey), KeepsPooled config elsewhere scope (drain channel fuel key)
  | 0, _ => Yields.throw _
  | fuel + 1, key => by
    unfold drain
    refine Yields.get_bind fun w hw => ?_
    cases hval : w.this.outOfOrderPacketBuffer.lookup key with
    | none => exact Yields.pure fun _ h => h
    | some val =>
      refine Yields.bind (Q := fun _ => World.Pooled config elsewhere scope)
        (fun w' u w'' h hrun => ?_) fun _ => Yields.get_bind fun w' _ => ?_
      · cases hrun
        exact ⟨h.backs, h.views.erase key⟩
      · have hview : (val.rawData.reload w'.host.company).owner = none :=
          (owner_reload _ _).trans (hw.views key val hval)
        refine Yields.bind (keepsPooled_processData hsize hview) fun _ => ?_
        split
        · exact Yields.throw _
        · exact Yields.bind (KeepsPooled.of_same (same_bumpOrdered _)) fun _ =>
            keepsPooled_drain hsize channel fuel _

theorem keepsPooled_alreadyStored (hview : b.owner = none) (info : FrameInfo)
    (order : OrderInformation) :
    KeepsPooled config elsewhere scope (alreadyStored b info order) := by
  refine Yields.bind (KeepsPooled.of_same (same_debug _)) fun _ => ?_
  refine Yields.bind (KeepsPooled.of_same (same_release hview)) fun _ =>
    Yields.get_bind fun _ _ => ?_
  split
  · exact Yields.ite (fun _ => Yields.throw _) fun _ => Yields.pure fun _ h => h
  · exact Yields.throw _

/-- What the branch of ordered frames hands back is moved from, so it owns nothing either. -/
theorem yields_processOrdered (hsize : 1 ≤ config.rentedBufferSize) (hview : b.owner = none)
    (info : FrameInfo) (order : OrderInformation) :
    Yields (World.Pooled config elsewhere scope) (processOrdered b info order) fun r w =>
      (∀ b' ∈ r, b'.owner = none) ∧ w.Pooled config elsewhere scope := by
  have hmoved : ∀ b' ∈ some b.movedFrom, b'.owner = none := by
    rintro b' ⟨⟩
    rfl
  have hnone : ∀ b' ∈ (none : Option BinaryBuffer), b'.owner = none := by
    rintro b' ⟨⟩
  refine Yields.bind (KeepsPooled.of_same (within_orderedNext _)) fun next => ?_
  refine Yields.ite (fun _ => ?_) fun _ => Yields.ite (fun _ => ?_) fun _ => ?_
  · refine Yields.bind (KeepsPooled.of_same (same_bumpOrdered _)) fun _ => ?_
    refine Yields.bind (keepsPooled_processData hsize hview) fun _ => Yields.get_bind fun _ _ => ?_
    exact Yields.bind (keepsPooled_drain hsize _ _ _) fun _ => Yields.pure fun _ h => ⟨hmoved, h⟩
  · exact Yields.bind (KeepsPooled.of_same (same_release hview)) fun _ =>
      Yields.pure fun _ h => ⟨hnone, h⟩
  · refine Yields.bind (KeepsPooled.of_same (same_setSequenced _ _)) fun _ =>
      Yields.get_bind fun _ _ => Yields.ite (fun _ => ?_) fun _ => ?_
    · exact Yields.bind (keepsPooled_alreadyStored hview _ _) fun _ =>
        Yields.pure fun _ h => ⟨hnone, h⟩
    · refine Yields.bind (Q := fun _ => World.Pooled config elsewhere scope)
        (fun w u w' h hrun => ?_) fun _ => Yields.pure fun _ h => ⟨hmoved, h⟩
      cases hrun
      exact ⟨h.backs, h.views.insert _ hview⟩

theorem keepsPooled_processSequenced (hsize : 1 ≤ config.rentedBufferSize) (hview : b.owner = none)
    (info : FrameInfo) (index : UInt24) :
    KeepsPooled config elsewhere scope (processSequenced b info index) := by
  refine Yields.bind (KeepsPooled.of_same (same_debug _)) fun _ => ?_
  refine Yields.bind (KeepsPooled.of_same (within_rakroAssert _)) fun _ => ?_
  split
  · exact Yields.throw _
  · refine Yields.bind (KeepsPooled.of_same (within_sequencedNext _)) fun _ => ?_
    refine Yields.bind (KeepsPooled.of_same (within_orderedNext _)) fun _ =>
      Yields.ite (fun _ => ?_) fun _ => ?_
    · exact Yields.bind (KeepsPooled.of_same (same_setSequenced _ _)) fun _ =>
        keepsPooled_processData hsize hview
    · exact Yields.bind (KeepsPooled.of_same (same_debug _)) fun _ =>
        KeepsPooled.of_same (same_release hview)

theorem keepsPooled_processFrame (hsize : 1 ≤ config.rentedBufferSize) (hview : b.owner = none)
    (info : FrameInfo) : KeepsPooled config elsewhere scope (processFrame b info) := by
  refine Yields.bind (KeepsPooled.of_same (same_emit _)) fun _ => ?_
  split
  · exact keepsPooled_processSequenced hsize hview info _
  · refine Yields.bind (Q := fun r w =>
      (∀ b' ∈ r, b'.owner = none) ∧ w.Pooled config elsewhere scope) ?_ fun r => ?_
    · unfold orderFrame
      split
      · exact yields_processOrdered hsize hview info _
      · refine Yields.pure fun _ h => ⟨?_, h⟩
        rintro b' ⟨⟩
        exact hview
    · refine Yields.of_and fun hviews => ?_
      split
      · exact keepsPooled_processData hsize (hviews _ rfl)
      · exact Yields.pure fun _ h => h

/-! ## Datagrams -/

theorem keepsPooled_eraseAckBuffer (hsize : 1 ≤ config.rentedBufferSize) (id : UInt24) :
    KeepsPooled config elsewhere scope (eraseAckBuffer id) := by
  intro w u w' h hrun
  cases hstored : w.this.ackBuffer.lookup id with
  | none =>
    cases (run_eraseAckBuffer_none hstored).symm.trans hrun
    exact h
  | some stored =>
    cases (run_eraseAckBuffer_some hstored).symm.trans hrun
    exact ⟨(h.backs.of_perm ((parked_perm hstored).append_right elsewhere)).discard hsize, h.views⟩

theorem owner_of_ofRentedLimit {rented : RentedBuffer} {limit : Nat}
    (h : ofRentedLimit rented limit = .ok b) : b.owner = rented.owner := by
  unfold ofRentedLimit at h
  split at h
  · cases h
    rfl
  · cases h

/-- The frame loop keeps the account, by induction on its fuel. -/
theorem keepsPooled_frameLoop (hsize : 1 ≤ config.rentedBufferSize) :
    ∀ (fuel : Nat) (b : BinaryBuffer), KeepsPooled config elsewhere scope (frameLoop fuel b)
  | 0, _ => Yields.throw _
  | fuel + 1, b => by
    unfold frameLoop
    refine Yields.ite (fun _ => ?_) fun _ => Yields.pure fun _ h => h
    refine Yields.bind (KeepsPooled.of_same (within_onBuffer _ _)) fun r => ?_
    refine Yields.bind (KeepsPooled.of_same (same_emit _)) fun _ => ?_
    split
    · exact Yields.throw _
    · next b' hlimit =>
      refine Yields.bind (Yields.ite (fun _ => ?_) fun _ => ?_) fun _ =>
        keepsPooled_frameLoop hsize fuel _
      · exact KeepsPooled.of_same (same_emit _)
      · exact keepsPooled_processFrame hsize (owner_of_ofRentedLimit hlimit) _

theorem same_advanceWindow (seq expected : UInt24) :
    Within SameStores (advanceWindow seq expected) := by
  refine Within.bind (Within.bind Within.get fun _ => Within.ite ?_ (Within.pure _)) fun _ _ =>
    ⟨rfl, rfl, rfl⟩
  split
  · exact fun _ => ⟨rfl, rfl, rfl⟩
  · exact Within.throw _

theorem keepsPooled_processFrameSet (hsize : 1 ≤ config.rentedBufferSize) (b : BinaryBuffer) :
    KeepsPooled config elsewhere scope (processFrameSet b) := by
  refine Yields.bind (KeepsPooled.of_same (within_onBuffer _ _)) fun _ =>
    Yields.get_bind fun _ _ => ?_
  refine Yields.ite (fun _ => Yields.pure fun _ h => h) fun _ => ?_
  exact Yields.bind (KeepsPooled.of_same (same_advanceWindow _ _)) fun _ =>
    keepsPooled_frameLoop hsize _ _

theorem yields_settle (hsize : 1 ≤ config.rentedBufferSize)
    (howns : b.realBuffer.Owns config.rentedBufferSize buffer) :
    Yields (World.Pooled config elsewhere [buffer]) (release b) fun _ =>
      World.Settled config elsewhere := by
  intro w u w' h hrun
  have hroom := h.backs.length_lt
  have hpooled := yields_release hsize howns _ _ _ h hrun
  cases hrun
  exact ⟨hpooled, hroom⟩

/-- The scope of the buffer that the datagram has been received into. -/
theorem yields_owning (hsize : 1 ≤ config.rentedBufferSize)
    (howns : b.realBuffer.Owns config.rentedBufferSize buffer) {body : ClientM PUnit}
    (hbody : KeepsPooled config elsewhere [buffer] body) :
    Yields (World.Pooled config elsewhere [buffer]) (owning b body) fun _ =>
      World.Settled config elsewhere :=
  Yields.bind (yields_guarded hbody) fun _ => Yields.bind (yields_settle hsize howns) fun _ =>
    Yields.pure fun _ h => h

theorem yields_processAck (hsize : 1 ≤ config.rentedBufferSize)
    (howns : b.realBuffer.Owns config.rentedBufferSize buffer) :
    Yields (World.Pooled config elsewhere [buffer]) (processAck b) fun _ =>
      World.Settled config elsewhere := by
  refine yields_owning hsize howns ?_
  refine Yields.bind (KeepsPooled.of_same (within_onBuffer _ _)) fun r => ?_
  obtain ⟨ack, _⟩ := r
  dsimp only
  cases ack.allPackets with
  | some ids => exact Yields.forM (keepsPooled_eraseAckBuffer hsize) ids
  | none => exact Yields.throw _

/-- **Whatever a client makes of a datagram, the buffer of the datagram goes back to the pool.** -/
theorem yields_processPacket (hsize : 1 ≤ config.rentedBufferSize)
    (howns : b.realBuffer.Owns config.rentedBufferSize buffer) :
    Yields (World.Pooled config elsewhere [buffer]) (processPacket b) fun _ =>
      World.Settled config elsewhere := by
  have hpeek : Reading (readNextPeak UInt8) := reading_readNextPeak UInt8
  refine Yields.bind (Q := fun r w => r.2.realBuffer.Owns config.rentedBufferSize buffer ∧
    w.Pooled config elsewhere [buffer]) (yields_guarded ?_) fun r => Yields.of_and fun howns => ?_
  · intro w r w' h hrun
    obtain ⟨hread, rfl⟩ := onBuffer_eq_ok hrun
    exact ⟨owns_of_writeFrame howns (hpeek.within.of_run hread).writeFrame, h⟩
  · refine Yields.ite (fun _ => yields_settle hsize howns) fun _ => Yields.ite (fun _ => ?_) fun _ =>
      yields_owning hsize howns (keepsPooled_processFrameSet hsize _)
    split
    · exact Yields.bind (KeepsPooled.of_same (same_emit _)) fun _ => yields_settle hsize howns
    · exact yields_processAck hsize howns
    · exact yields_settle hsize howns

end Client

/-! ## The router -/

/-- The datagrams that all the clients keep. -/
def ClientRouter.parked (router : ClientRouter) : List RentedBuffer :=
  holdings RakroServerClient.parked router.connectedClients

/-- The buffers of the pool, seen by the router: those of its clients and the scope. -/
structure RouterWorld.Pooled (config : ServerConfig) (scope : List BufferId) (rw : RouterWorld) :
    Prop where
  backs : rw.host.company.Backs config rw.router.parked scope
  views : AllEntries (fun _ client => client.OnlyViews) rw.router.connectedClients

/-- The buffer of the datagram is back in the pool. -/
structure RouterWorld.Settled (config : ServerConfig) (rw : RouterWorld) : Prop where
  pooled : rw.Pooled config []
  room : rw.router.parked.length < config.capacity

section Router

variable {config : ServerConfig} {scope : List BufferId} {rw : RouterWorld} {address : IPV4Addr}
  {client : RakroServerClient} {b : BinaryBuffer} {buffer : BufferId}

/-- A client at work sees what the others keep elsewhere. -/
theorem RouterWorld.Pooled.entered (h : rw.Pooled config scope)
    (hclient : rw.router.connectedClients.lookup address = some client) :
    (rw.entered client).Pooled config
      (holdings RakroServerClient.parked (rw.router.connectedClients.erase address)) scope := by
  have hperm : rw.router.parked.Perm (client.parked ++
      holdings RakroServerClient.parked (rw.router.connectedClients.erase address)) :=
    holdings_perm hclient
  exact ⟨h.backs.of_perm hperm, h.views address client hclient⟩

/-- Its work is done, and it is one of the clients again. -/
theorem RouterWorld.Pooled.stored {w : World} {scope' : List BufferId} (h : rw.Pooled config scope)
    (hw : w.Pooled config
      (holdings RakroServerClient.parked (rw.router.connectedClients.erase address)) scope') :
    (rw.store address w).Pooled config scope' := by
  have hparked : (rw.store address w).router.parked = w.this.parked ++
      holdings RakroServerClient.parked (rw.router.connectedClients.erase address) :=
    holdings_insert
  refine ⟨?_, h.views.insert hw.views⟩
  rw [hparked]
  exact hw.backs

/-- A client that has settled is put back among the others. -/
theorem RouterWorld.Pooled.store {w : World} (h : rw.Pooled config scope)
    (hw : w.Settled config
      (holdings RakroServerClient.parked (rw.router.connectedClients.erase address))) :
    (rw.store address w).Settled config := by
  refine ⟨h.stored hw.pooled, ?_⟩
  have hparked : (rw.store address w).router.parked = w.this.parked ++
      holdings RakroServerClient.parked (rw.router.connectedClients.erase address) :=
    holdings_insert
  rw [hparked]
  exact hw.room

/-- Returning everything that a client holds. -/
theorem backs_releaseAll (hsize : 1 ≤ config.rentedBufferSize) :
    ∀ (buffers : List BinaryBuffer) {company : BufferCompany} {stored : List RentedBuffer},
      company.Backs config (buffers.map realBuffer ++ stored) scope →
      (releaseAll company buffers).Backs config stored scope
  | [], _, _, h => h
  | _ :: buffers, _, _, h => backs_releaseAll hsize buffers (h.discard hsize)

theorem releaseAll_append (company : BufferCompany) (buffers more : List BinaryBuffer) :
    releaseAll company (buffers ++ more) = releaseAll (releaseAll company buffers) more :=
  List.foldl_append

/-- Views give nothing back. -/
theorem releaseAll_views {buffers : List BinaryBuffer} (h : ∀ b ∈ buffers, b.owner = none)
    (company : BufferCompany) : releaseAll company buffers = company := by
  induction buffers with
  | nil => rfl
  | cons b buffers ih =>
    show releaseAll (company.destroy b.realBuffer) buffers = company
    rw [BufferCompany.destroy_of_owner_none (h b List.mem_cons_self)]
    exact ih fun b' hb' => h b' (List.mem_cons_of_mem _ hb')

/-- What the acknowledgement buffer holds is what is parked. -/
theorem map_heldBuffers (client : RakroServerClient) :
    (client.ackBuffer.entries.map (fun entry => entry.2)).map realBuffer = client.parked := by
  unfold RakroServerClient.parked holdings
  rw [List.map_map, List.map_eq_flatMap]
  rfl

/-- A client that is destroyed returns what it has kept, and its views own nothing. -/
theorem backs_heldBuffers (hsize : 1 ≤ config.rentedBufferSize) {company : BufferCompany}
    {stored : List RentedBuffer} (h : company.Backs config (client.parked ++ stored) scope)
    (hviews : client.OnlyViews) :
    (releaseAll company client.heldBuffers).Backs config stored scope := by
  have hview : ∀ b ∈ client.outOfOrderPacketBuffer.entries.map fun entry => entry.2.rawData,
      b.owner = none := by
    intro b hb
    obtain ⟨entry, hentry, rfl⟩ := List.mem_map.mp hb
    exact hviews entry.1 entry.2 (AList.mem_lookup_iff.mpr hentry)
  rw [← map_heldBuffers] at h
  unfold RakroServerClient.heldBuffers
  rw [releaseAll_append, releaseAll_views hview]
  exact backs_releaseAll hsize _ h

/-- A client that is dropped is forgotten with all that it holds, and the datagram with it. -/
theorem RouterWorld.Pooled.dropped {scope' : List BufferId} (hsize : 1 ≤ config.rentedBufferSize)
    (h : rw.Pooled config scope)
    (hclient : rw.router.connectedClients.lookup address = some client)
    (hdestroy : ∀ {company : BufferCompany} {stored : List RentedBuffer},
      company.Backs config stored scope → (company.destroy b.realBuffer).Backs config stored scope') :
    (rw.dropped address client b).Pooled config scope' := by
  have hheld := backs_heldBuffers hsize (h.entered hclient).backs (h.views address client hclient)
  refine ⟨?_, h.views.erase address⟩
  show (releaseAll rw.host.company (client.heldBuffers ++ [b])).Backs config _ scope'
  rw [releaseAll_append]
  exact hdestroy hheld

theorem yields_route (hsize : 1 ≤ config.rentedBufferSize)
    (howns : b.realBuffer.Owns config.rentedBufferSize buffer) :
    Yields (RouterWorld.Pooled config [buffer]) (route address b) fun _ =>
      RouterWorld.Settled config := by
  intro rw u rw' h hrun
  have hroom := h.backs.length_lt
  cases hclient : rw.router.connectedClients.lookup address with
  | none =>
    cases (run_route_unknown hclient b).symm.trans hrun
    exact ⟨⟨h.backs.release hsize howns, h.views⟩, hroom⟩
  | some client =>
    have hentered := h.entered hclient
    by_cases htimeout : rw.router.timeout < rw.host.clock 0 - client.lastPacket
    · cases (run_route_timeout hclient htimeout b).symm.trans hrun
      refine ⟨h.dropped hsize hclient fun hbacks => hbacks.release hsize howns, ?_⟩
      refine Nat.lt_of_le_of_lt ?_ hentered.backs.length_lt
      rw [List.length_append]
      exact Nat.le_add_left _ _
    · have hroute := run_route_known hclient htimeout b
      cases hpacket : (processPacket b).run (rw.entered client) with
      | error e w =>
        rw [hpacket] at hroute
        cases hroute.symm.trans hrun
      | ok u w =>
        rw [hpacket] at hroute
        cases hroute.symm.trans hrun
        exact h.store (yields_processPacket hsize howns _ _ _ hentered hpacket)

/-- A new client holds nothing. -/
theorem keepsPooled_connectClient (mid : SemiConnectedClient) (guid : UInt64)
    (debugger : Option DebugInstrument) (serverStartTime : UInt64) :
    Yields (RouterWorld.Pooled config scope)
      (connectClient address mid guid debugger serverStartTime) fun _ =>
        RouterWorld.Pooled config scope := by
  intro rw u rw' h hrun
  by_cases hmem : address ∈ rw.router.connectedClients
  · cases hrun.symm.trans (run_connectClient_known hmem)
    exact h
  · cases hrun.symm.trans (run_connectClient_new hmem)
    refine ⟨?_, h.views.insert (allEntries_empty _)⟩
    show rw.host.company.Backs config (holdings RakroServerClient.parked
      (rw.router.connectedClients.insert address _)) scope
    rw [holdings_insert_of_notMem hmem]
    exact h.backs

end Router

end Rakro
