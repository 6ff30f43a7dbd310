import Rakro.Properties.Ownership

/-!
# Two runs of a client side by side

A client works on its datagrams in two worlds. The worlds differ in the other clients, in what has
been sent before, and in which buffers of the pool are out. The client does the same in both: it
sends the same, to its own address, and becomes the same but for the buffers in which the datagrams
lie that it keeps.
-/

namespace Rakro

open Infra BinaryBuffer

/-! ## The same client -/

/-- The datagrams that a client keeps until they are acknowledged. -/
def RakroServerClient.kept (client : RakroServerClient) : List (UInt24 × Bytes) :=
  client.ackBuffer.entries.map fun entry => (entry.1, entry.2.consumedSlice)

/-- A client, whatever buffers of the pool the datagrams lie in that it keeps. -/
def RakroServerClient.value (client : RakroServerClient) :
    RakroServerClient × List (UInt24 × Bytes) :=
  ({ client with ackBuffer := ∅ }, client.kept)

/-- What is stored out of order lies outside of the pool. -/
def RakroServerClient.Detached (client : RakroServerClient) : Prop :=
  AllEntries (fun _ val => val.rawData.home = none) client.outOfOrderPacketBuffer

section Kept

variable {client : RakroServerClient} {index : UInt24} {b : BinaryBuffer}

theorem length_kept (client : RakroServerClient) : client.kept.length = client.parked.length := by
  rw [← map_heldBuffers, List.length_map, List.length_map]
  exact List.length_map _

theorem mem_ackBuffer_iff : index ∈ client.ackBuffer ↔ index ∈ client.kept.map Prod.fst := by
  unfold RakroServerClient.kept
  rw [List.map_map]
  rfl

theorem kept_insert (h : index ∉ client.ackBuffer) :
    RakroServerClient.kept { client with ackBuffer := client.ackBuffer.insert index b }
      = (index, b.consumedSlice) :: client.kept := by
  unfold RakroServerClient.kept
  rw [AList.entries_insert_of_notMem h]
  rfl

theorem kept_erase :
    RakroServerClient.kept { client with ackBuffer := client.ackBuffer.erase index }
      = client.kept.eraseP fun entry => index = entry.1 := by
  unfold RakroServerClient.kept
  rw [List.eraseP_map]
  rfl

end Kept

/-! ## Two worlds -/

/-- What surrounds a client in one of the worlds: the other addresses, and what is in the trace. -/
structure Bystanders where
  clients : AList fun _ : IPV4Addr => RakroServerClient
  mids : AList fun _ : IPV4Addr => SemiConnectedClient
  trace : List Event

/-- What the other clients keep. -/
def Bystanders.elsewhere (others : Bystanders) : List RentedBuffer :=
  holdings RakroServerClient.parked others.clients

/-- A client in its two worlds. The others keep no more there than here. -/
structure Setting where
  config : ServerConfig
  address : IPV4Addr
  /-- The server, but for its clients and those on their way. -/
  server : RakServer
  ndebug : Bool
  here : Bystanders
  there : Bystanders
  fewer : there.elsewhere.length ≤ here.elsewhere.length

/-- Whatever is sent is sent to the address. -/
def SendsOnlyTo (address : IPV4Addr) (events : List Event) : Prop :=
  ∀ bytes other, Event.sent bytes other ∈ events → other = address

/-- The client is the same in both worlds, with the buffers `left` and `right` in its scope. -/
structure Setting.Twins (s : Setting) (left right : List BufferId) (w v : World) : Prop where
  value : v.this.value = w.this.value
  address : w.this.address = s.address
  detached : w.this.Detached
  ndebug : w.host.ndebug = s.ndebug ∧ v.host.ndebug = s.ndebug
  clock : v.host.clock = w.host.clock
  traces : ∃ new, SendsOnlyTo s.address new ∧ w.host.trace = s.here.trace ++ new ∧
    v.host.trace = s.there.trace ++ new
  pooledHere : w.Pooled s.config s.here.elsewhere left
  pooledThere : v.Pooled s.config s.there.elsewhere right
  scopes : right.length ≤ left.length

/-- Two buffers of the pools, one in each world, with the same written into them. -/
structure SendPair (size : Nat) (x y : BufferId) (b c : BinaryBuffer) : Prop where
  left : b.realBuffer.Owns size x
  right : c.realBuffer.Owns size y
  same : SameWritten b c

/-- The buffer lies outside of the pool and owns nothing of it. -/
structure BinaryBuffer.Outside (b : BinaryBuffer) : Prop where
  home : b.home = none
  owner : b.owner = none

/-- Two copies of one datagram. -/
structure Copies (b c : BinaryBuffer) : Prop extends SameView b c where
  left : b.Outside
  right : c.Outside

/-- A buffer outside the pool stays there when it is read. -/
theorem BinaryBuffer.Outside.of_read {b b' : BinaryBuffer} (h : b.Outside)
    (hread : ReadFrame b b') : b'.Outside := by
  rw [hread.unchanged]
  exact ⟨h.home, h.owner⟩

section Twins

variable {α : Type} {s : Setting} {left right : List BufferId} {w v : World} {b c : BinaryBuffer}
  {x y : BufferId}

/-- What does not concern the datagrams it keeps is the same of both. -/
theorem Setting.Twins.read {β : Type} (h : s.Twins left right w v) (g : RakroServerClient → β)
    (hg : ∀ client, g client.value.1 = g client) : g v.this = g w.this := by
  rw [← hg v.this, h.value, hg]

/-- Twins keep the same datagrams. -/
theorem Setting.Twins.kept_eq (h : s.Twins left right w v) : v.this.kept = w.this.kept :=
  congrArg Prod.snd h.value

/-- Twins store the same packets. -/
theorem Setting.Twins.stored_eq (h : s.Twins left right w v) :
    v.this.outOfOrderPacketBuffer = w.this.outOfOrderPacketBuffer :=
  h.read RakroServerClient.outOfOrderPacketBuffer fun _ => rfl

/-- Twins have entries under the same indices. -/
theorem Setting.Twins.mem_ackBuffer (h : s.Twins left right w v) (index : UInt24) :
    index ∈ w.this.ackBuffer ↔ index ∈ v.this.ackBuffer := by
  rw [mem_ackBuffer_iff, mem_ackBuffer_iff, h.kept_eq]

variable (s left right) in
/-- The method keeps the worlds alike. -/
abbrev KeepsTwins (m n : ClientM α) : Prop :=
  Agrees (s.Twins left right) m n (s.Twins left right)

/-! ### The primitives -/

/-- A change of the client that has nothing to do with what it keeps or stores. -/
structure Unrelated (f : RakroServerClient → RakroServerClient) : Prop where
  value : ∀ client, (f client).value = (f client.value.1, client.value.2)
  acks : ∀ client, (f client).ackBuffer = client.ackBuffer
  stored : ∀ client, (f client).outOfOrderPacketBuffer = client.outOfOrderPacketBuffer
  address : ∀ client, (f client).address = client.address

/-- An update that has nothing to do with what is kept leaves twins. -/
theorem Setting.Twins.modified {f : RakroServerClient → RakroServerClient} (hf : Unrelated f)
    (h : s.Twins left right w v) :
    s.Twins left right { w with this := f w.this } { v with this := f v.this } := by
  have hsame : ∀ w : World, SameStores w { w with this := f w.this } :=
    fun w => ⟨hf.acks w.this, hf.stored w.this, rfl⟩
  refine ⟨?_, (hf.address w.this).trans h.address, ?_, h.ndebug, h.clock, h.traces,
    h.pooledHere.of_same (hsame w), h.pooledThere.of_same (hsame v), h.scopes⟩
  · rw [hf.value, hf.value, h.value]
  · unfold RakroServerClient.Detached
    rw [hf.stored]
    exact h.detached

theorem keepsTwins_modifyThis {f : RakroServerClient → RakroServerClient} (hf : Unrelated f) :
    KeepsTwins s left right (modifyThis f) (modifyThis f) :=
  Agrees.modify fun _ _ h => h.modified hf

theorem Setting.Twins.logged (h : s.Twins left right w v) {event : Event}
    (hsent : ∀ bytes other, event = .sent bytes other → other = s.address) :
    s.Twins left right (w.log event) (v.log event) := by
  obtain ⟨new, honly, hhere, hthere⟩ := h.traces
  refine ⟨h.value, h.address, h.detached, h.ndebug, h.clock, ⟨new ++ [event], ?_, ?_, ?_⟩,
    h.pooledHere.of_same ⟨rfl, rfl, rfl⟩, h.pooledThere.of_same ⟨rfl, rfl, rfl⟩, h.scopes⟩
  · intro bytes other hmem
    rcases List.mem_append.mp hmem with hmem | hmem
    · exact honly bytes other hmem
    · exact hsent bytes other (List.mem_singleton.mp hmem).symm
  · rw [← List.append_assoc, ← hhere]
    rfl
  · rw [← List.append_assoc, ← hthere]
    rfl

/-- The buffers of the pools change hands. -/
theorem Setting.Twins.repooled (h : s.Twins left right w v) {left' right' : List BufferId}
    {company company' : BufferCompany}
    (hhere : company.Backs s.config (w.this.parked ++ s.here.elsewhere) left')
    (hthere : company'.Backs s.config (v.this.parked ++ s.there.elsewhere) right')
    (hscopes : right'.length ≤ left'.length) :
    s.Twins left' right' { w with host := { w.host with company := company } }
      { v with host := { v.host with company := company' } } :=
  ⟨h.value, h.address, h.detached, h.ndebug, h.clock, h.traces, ⟨hhere, h.pooledHere.views⟩,
    ⟨hthere, h.pooledThere.views⟩, hscopes⟩

theorem keepsTwins_emit {event : Event}
    (hsent : ∀ bytes other, event = .sent bytes other → other = s.address) :
    KeepsTwins s left right (emit event) (emit event) := Agrees.modify fun _ _ h => h.logged hsent

theorem keepsTwins_debug (call : DebugCall) :
    KeepsTwins s left right (debug call) (debug call) := by
  refine Simulates.get_bind fun w v h => ?_
  rw [h.read RakroServerClient.debugger fun _ => rfl]
  refine Simulates.ite Iff.rfl (fun _ => keepsTwins_emit ?_) fun _ => Agrees.pure _
  rintro _ _ ⟨⟩

theorem keepsTwins_time : KeepsTwins s left right timeSinceEpoch timeSinceEpoch := by
  intro w v now w' h hrun
  cases hrun
  refine ⟨_, _, run_timeSinceEpoch, (congrFun h.clock 0).symm, ?_⟩
  refine ⟨h.value, h.address, h.detached, h.ndebug, ?_, h.traces,
    h.pooledHere.of_same ⟨rfl, rfl, rfl⟩, h.pooledThere.of_same ⟨rfl, rfl, rfl⟩, h.scopes⟩
  funext n
  exact congrFun h.clock (n + 1)

theorem keepsTwins_assert (condition : Bool) :
    KeepsTwins s left right (rakroAssert condition) (rakroAssert condition) := by
  refine Simulates.get_bind fun w v h => ?_
  rw [h.ndebug.1, h.ndebug.2]
  exact Simulates.ite Iff.rfl (fun _ => Agrees.pure _) fun _ => Simulates.throw _

/-- Guarded parts simulate each other when their bodies do. -/
theorem simulates_guarded {R : World → World → Prop} {body body' : ClientM α}
    {Q : α → α → World → World → Prop} (h : Simulates R body body' Q) :
    Simulates R (guarded b body) (guarded c body') Q := by
  intro w v a w' hR hrun
  obtain ⟨a', v', hrun', hQ⟩ := h w v a w' hR (guarded_eq_ok hrun)
  exact ⟨a', v', run_guarded_ok hrun', hQ⟩

/-- One buffer that both have. -/
theorem agrees_onBuffer {R : World → World → Prop} (b : BinaryBuffer) (m : BufM α) :
    Agrees R (onBuffer b m) (onBuffer b m) R := by
  intro w v r w' hR hrun
  obtain ⟨hm, rfl⟩ := onBuffer_eq_ok hrun
  exact ⟨r, v, run_onBuffer_ok hm, rfl, hR⟩

/-- A copy of its own for each. -/
theorem simulates_onBuffer {R : World → World → Prop} {m : BufM α} (hm : Reading m)
    (hcopies : Copies b c) : Simulates R (onBuffer b m) (onBuffer c m) fun r r' w v =>
      (r.1 = r'.1 ∧ Copies r.2 r'.2) ∧ R w v := by
  intro w v r w' hR hrun
  obtain ⟨hread, rfl⟩ := onBuffer_eq_ok hrun
  obtain ⟨a', c', hread', hsame, hview⟩ := hm.simulates b c r.1 r.2 hcopies.toSameView hread
  exact ⟨(a', c'), v, run_onBuffer_ok hread', ⟨hsame, hview,
    hcopies.left.of_read (hm.within.of_run hread),
    hcopies.right.of_read (hm.within.of_run hread')⟩, hR⟩

theorem simulates_onBuffer_bind {R : World → World → Prop} {β : Type} {m : BufM α}
    (hm : Reading m) (hcopies : Copies b c) {f g : α × BinaryBuffer → ClientM β}
    {Q : β → β → World → World → Prop}
    (hf : ∀ a b c, Copies b c → Simulates R (f (a, b)) (g (a, c)) Q) :
    Simulates R (onBuffer b m >>= f) (onBuffer c m >>= g) Q := by
  refine Simulates.bind (simulates_onBuffer hm hcopies) fun r r' => Simulates.of_and fun hr => ?_
  obtain ⟨a, b'⟩ := r
  obtain ⟨a', c'⟩ := r'
  obtain rfl : a = a' := hr.1
  exact hf a b' c' hr.2

/-- Views return nothing. -/
theorem keepsTwins_release (hb : b.owner = none) (hc : c.owner = none) :
    KeepsTwins s left right (release b) (release c) := by
  refine Agrees.modify fun w v h => ?_
  dsimp only
  rw [BufferCompany.destroy_of_owner_none (show b.realBuffer.owner = none from hb),
    BufferCompany.destroy_of_owner_none (show c.realBuffer.owner = none from hc)]
  exact h

/-- Parts that own views leave twins when their bodies do. -/
theorem keepsTwins_owning {body body' : ClientM α} (hb : b.owner = none) (hc : c.owner = none)
    (hbody : KeepsTwins s left right body body') :
    KeepsTwins s left right (owning b body) (owning c body') :=
  Agrees.bind (simulates_guarded hbody) fun _ => Agrees.bind (keepsTwins_release hb hc) fun _ =>
    Agrees.pure _

/-! ### Buffers to send -/

/-- What can be rented here can be rented there. -/
theorem simulates_rent : Simulates (s.Twins left right) rent rent fun b c w v =>
    ∃ p : BufferId × BufferId, SendPair s.config.rentedBufferSize p.1 p.2 b c ∧
      s.Twins (p.1 :: left) (p.2 :: right) w v := by
  intro w v b w' h hrun
  cases hrent : w.host.company.rent with
  | error e =>
    rw [run_rent_error hrent] at hrun
    cases hrun
  | ok r =>
    rw [run_rent_ok hrent] at hrun
    cases hrun
    obtain ⟨x, howns, hbacks⟩ := h.pooledHere.backs.rent hrent
    have hroom : (v.this.parked ++ s.there.elsewhere).length + right.length
        < s.config.capacity := by
      have hle := hbacks.length_le
      have hscopes := h.scopes
      have hfewer := s.fewer
      rw [List.length_append, ← length_kept, List.length_cons] at hle
      rw [List.length_append, ← length_kept, h.kept_eq]
      omega
    obtain ⟨rented, company', hrent'⟩ := h.pooledThere.backs.rent_returns hroom
    obtain ⟨y, howns', hbacks'⟩ := h.pooledThere.backs.rent hrent'
    refine ⟨_, _, run_rent_ok hrent', (x, y), ⟨?_, ?_, ?_, rfl, rfl⟩, ?_⟩
    · rwa [realBuffer_ofRented]
    · rwa [realBuffer_ofRented]
    · exact howns'.length.trans howns.length.symm
    · exact h.repooled hbacks hbacks' (Nat.succ_le_succ h.scopes)

theorem agrees_release (hsize : 1 ≤ s.config.rentedBufferSize)
    (hpair : SendPair s.config.rentedBufferSize x y b c) :
    Agrees (s.Twins (x :: left) (y :: right)) (release b) (release c) (s.Twins left right) :=
  Agrees.modify fun _ _ h => h.repooled (h.pooledHere.backs.release hsize hpair.left)
    (h.pooledThere.backs.release hsize hpair.right) (Nat.le_of_succ_le_succ h.scopes)

/-- The scope of a rented buffer. -/
theorem keepsTwins_rent_owning (hsize : 1 ≤ s.config.rentedBufferSize)
    {body : BinaryBuffer → ClientM α}
    (hbody : ∀ x y b c, SendPair s.config.rentedBufferSize x y b c →
      KeepsTwins s (x :: left) (y :: right) (body b) (body c)) :
    KeepsTwins s left right (rent >>= fun b => owning b (body b))
      (rent >>= fun b => owning b (body b)) := by
  refine Simulates.bind simulates_rent fun b c => Simulates.of_exists fun p =>
    Simulates.of_and fun hpair => ?_
  exact Agrees.bind (simulates_guarded (hbody _ _ _ _ hpair)) fun _ =>
    Agrees.bind (agrees_release hsize hpair) fun _ => Agrees.pure _

/-- The pools hold what has been written. -/
def InPools (size : Nat) (x y : BufferId) (b c : BinaryBuffer) (w v : World) : Prop :=
  w.host.company.load { buffer := x } size = b.realBuffer.memory ∧
    v.host.company.load { buffer := y } size = c.realBuffer.memory

theorem simulates_onSendBuffer {m : BufM PUnit} (hm : Filling m)
    (hpair : SendPair s.config.rentedBufferSize x y b c) (hx : x ∈ left) (hy : y ∈ right) :
    Simulates (s.Twins left right) (onSendBuffer b m) (onSendBuffer c m) fun r r' w v =>
      SendPair s.config.rentedBufferSize x y r.2 r'.2 ∧
        InPools s.config.rentedBufferSize x y r.2 r'.2 w v ∧ s.Twins left right w v := by
  intro w v r w' h hrun
  cases hwrite : m.run b with
  | error e b' =>
    rw [run_onSendBuffer_error hwrite] at hrun
    cases hrun
  | ok u b' =>
    rw [run_onSendBuffer_ok hwrite] at hrun
    cases hrun
    obtain ⟨u', c', hwrite', hsame⟩ := hm.simulates b c u b' hpair.same hwrite
    have howns := owns_of_writeFrame hpair.left (hm.within.of_run hwrite)
    have howns' := owns_of_writeFrame hpair.right (hm.within.of_run hwrite')
    exact ⟨_, _, run_onSendBuffer_ok hwrite', ⟨howns, howns', hsame⟩,
      ⟨BufferCompany.load_keep howns _, BufferCompany.load_keep howns' _⟩,
      h.repooled (h.pooledHere.backs.keep howns hx) (h.pooledThere.backs.keep howns' hy) h.scopes⟩

theorem simulates_write {m : BufM PUnit} (hm : Filling m)
    (hpair : SendPair s.config.rentedBufferSize x y b c) (hx : x ∈ left) (hy : y ∈ right) :
    Simulates (s.Twins left right) (onSendBuffer b m) (onSendBuffer c m) fun r r' w v =>
      SendPair s.config.rentedBufferSize x y r.2 r'.2 ∧ s.Twins left right w v :=
  (simulates_onSendBuffer hm hpair hx hy).mono fun _ _ _ _ h => ⟨h.1, h.2.2⟩

/-! ### Sending -/

/-- The datagram is kept in both worlds, or returned in both. -/
theorem agrees_insertAckBuffer (hsize : 1 ≤ s.config.rentedBufferSize)
    (hpair : SendPair s.config.rentedBufferSize x y b c) (index : UInt24) :
    Agrees (fun w v => InPools s.config.rentedBufferSize x y b c w v ∧
        s.Twins (x :: left) (y :: right) w v)
      (insertAckBuffer index b) (insertAckBuffer index c) (s.Twins left right) := by
  rintro w v u w' ⟨⟨hload, hload'⟩, h⟩ hrun
  have hmem := h.mem_ackBuffer index
  by_cases hindex : index ∈ w.this.ackBuffer
  · rw [run_insertAckBuffer_taken hindex] at hrun
    rw [run_insertAckBuffer_taken (hmem.mp hindex)]
    exact agrees_release hsize hpair w v u w' h hrun
  · have hindex' := mt hmem.mpr hindex
    have hrun' : (insertAckBuffer index c).run v = _ := run_insertAckBuffer_new hindex'
    have hhere := yields_insertAckBuffer hsize hpair.left index w _ _ ⟨hload, h.pooledHere⟩ hrun
    have hthere := yields_insertAckBuffer hsize hpair.right index v _ _ ⟨hload', h.pooledThere⟩
      hrun'
    have hrest : v.this.value.1 = w.this.value.1 := congrArg Prod.fst h.value
    cases (run_insertAckBuffer_new hindex).symm.trans hrun
    refine ⟨⟨⟩, _, hrun', rfl, Prod.ext hrest ?_, h.address, h.detached, h.ndebug, h.clock,
      h.traces, hhere, hthere, Nat.le_of_succ_le_succ h.scopes⟩
    exact (kept_insert hindex').trans
      (by rw [hpair.same.written, h.kept_eq]; exact (kept_insert hindex).symm)

/-- A pair of buffers is filed, or given back, on both sides. -/
theorem agrees_keepSent (hsize : 1 ≤ s.config.rentedBufferSize)
    (hpair : SendPair s.config.rentedBufferSize x y b c) (rely : FrameReliability) :
    Agrees (fun w v => InPools s.config.rentedBufferSize x y b c w v ∧
        s.Twins (x :: left) (y :: right) w v)
      (keepSent rely b) (keepSent rely c) (s.Twins left right) := by
  refine Simulates.ite Iff.rfl (fun _ => ?_) fun _ =>
    (agrees_release hsize hpair).of_imp fun _ _ h => h.2
  refine Simulates.get_bind fun w v h => ?_
  rw [h.2.read RakroServerClient.sendingRelyFrameIndex fun _ => rfl]
  have hcount : Unrelated fun client =>
      { client with sendingRelyFrameIndex := w.this.sendingRelyFrameIndex.incr } :=
    ⟨fun _ => rfl, fun _ => rfl, fun _ => rfl, fun _ => rfl⟩
  exact Agrees.bind (Agrees.modify fun _ _ h => ⟨h.1, h.2.modified hcount⟩) fun _ =>
    agrees_insertAckBuffer hsize hpair _

theorem keepsTwins_makeHeader : KeepsTwins s left right makeHeader makeHeader := by
  refine Simulates.get_bind fun w v h => ?_
  rw [h.read RakroServerClient.nextExpectedSeq fun _ => rfl]
  exact Agrees.pure _

/-- The frame of the datagram around what has been written. -/
theorem SendPair.makeInfo_eq {size : Nat} (hpair : SendPair size x y b c)
    (rely : FrameReliability) : makeInfo rely c = makeInfo rely b := by
  unfold makeInfo consumed
  rw [hpair.same.index_eq]

theorem keepsTwins_readyBuffer (hsize : 1 ≤ s.config.rentedBufferSize)
    (hpair : SendPair s.config.rentedBufferSize x y b c) (rely : FrameReliability) :
    KeepsTwins s left right (readyBuffer b rely) (readyBuffer c rely) := by
  refine Simulates.bind simulates_rent fun sent sent' => Simulates.of_exists fun p =>
    Simulates.of_and fun hsent => ?_
  refine Simulates.bind (Q := fun r r' w v =>
    SendPair s.config.rentedBufferSize p.1 p.2 r.2 r'.2 ∧
      InPools s.config.rentedBufferSize p.1 p.2 r.2 r'.2 w v ∧
        s.Twins (p.1 :: left) (p.2 :: right) w v) (simulates_guarded ?_) fun r r' =>
          Simulates.of_and fun hwritten => ?_
  · refine Agrees.bind keepsTwins_makeHeader fun header => ?_
    rw [hpair.makeInfo_eq, hpair.same.written]
    refine Simulates.bind (simulates_onSendBuffer (filling_writeFramed _ _ _) hsent
      List.mem_cons_self List.mem_cons_self) fun r r' => Simulates.get_bind fun w v h => ?_
    rw [h.2.2.read RakroServerClient.sendingRelyFrameIndex fun _ => rfl]
    refine Simulates.bind (Simulates.modify fun _ _ h => ⟨h.1, h.2.1, h.2.2.logged ?_⟩)
      fun _ _ => Simulates.pure fun _ _ h => h
    rintro _ _ ⟨⟩
  · refine Agrees.bind (agrees_keepSent hsize hwritten rely) fun _ => ?_
    rw [hwritten.same.written]
    exact Agrees.pure _

theorem keepsTwins_sendTo (bytes : Bytes) :
    KeepsTwins s left right (sendTo bytes) (sendTo bytes) := by
  refine Simulates.get_bind fun w v h => ?_
  rw [h.read RakroServerClient.address fun _ => rfl]
  refine Agrees.bind (keepsTwins_debug _) fun _ => keepsTwins_emit ?_
  rintro _ _ ⟨⟩
  exact h.address

/-! ### Messages -/

theorem keepsTwins_acceptConnection (hsize : 1 ≤ s.config.rentedBufferSize)
    (packetInfo : ConnectionRequest) :
    KeepsTwins s left right (acceptConnection packetInfo) (acceptConnection packetInfo) := by
  refine Agrees.bind keepsTwins_time fun now => Simulates.get_bind fun w v h => ?_
  dsimp only
  rw [h.read RakroServerClient.address fun _ => rfl,
    h.read RakroServerClient.serverStartTime fun _ => rfl]
  refine keepsTwins_rent_owning hsize fun x y b c hpair => ?_
  refine Simulates.bind (simulates_write (filling_write _) hpair List.mem_cons_self
    List.mem_cons_self) fun r r' => Simulates.of_and fun hpair => ?_
  exact Agrees.bind (keepsTwins_readyBuffer hsize hpair _) fun _ => keepsTwins_sendTo _

theorem keepsTwins_connectionRequest (hsize : 1 ≤ s.config.rentedBufferSize) (b : BinaryBuffer) :
    KeepsTwins s left right (connectionRequest b) (connectionRequest b) := by
  refine Agrees.bind (agrees_onBuffer _ _) fun r => ?_
  refine Agrees.bind (keepsTwins_modifyThis ⟨fun _ => rfl, fun _ => rfl, fun _ => rfl,
    fun _ => rfl⟩) fun _ => ?_
  exact Simulates.ite Iff.rfl (fun _ => Agrees.pure _) fun _ => keepsTwins_acceptConnection hsize _

/-- The answer is the same, and so is what is left of the message. -/
theorem simulates_answerPing {sent sent' : BinaryBuffer}
    (hpair : SendPair s.config.rentedBufferSize x y sent sent') (hx : x ∈ left) (hy : y ∈ right)
    (b : BinaryBuffer) :
    Simulates (s.Twins left right) (answerPing b sent) (answerPing b sent') fun r r' w v =>
      (r.1 = r'.1 ∧ SendPair s.config.rentedBufferSize x y r.2 r'.2) ∧ s.Twins left right w v := by
  refine Simulates.ite Iff.rfl (fun _ => ?_) fun _ => Simulates.ite Iff.rfl (fun _ => ?_) fun _ =>
    Simulates.pure fun _ _ h => ⟨⟨rfl, hpair⟩, h⟩
  · refine Agrees.bind (agrees_onBuffer _ _) fun r => Agrees.bind keepsTwins_time fun now => ?_
    refine Simulates.get_bind fun w v h => ?_
    rw [h.read RakroServerClient.serverStartTime fun _ => rfl]
    exact Simulates.bind (simulates_write (filling_write _) hpair hx hy) fun _ _ =>
      Simulates.of_and fun hpair => Simulates.pure fun _ _ h => ⟨⟨rfl, hpair⟩, h⟩
  · refine Agrees.bind (agrees_onBuffer _ _) fun r => ?_
    exact Simulates.bind (simulates_write (filling_write _) hpair hx hy) fun _ _ =>
      Simulates.of_and fun hpair => Simulates.pure fun _ _ h => ⟨⟨rfl, hpair⟩, h⟩

theorem keepsTwins_unhandled (b : BinaryBuffer) :
    KeepsTwins s left right (unhandled b) (unhandled b) := by
  refine Simulates.get_bind fun w v h => ?_
  rw [h.read RakroServerClient.address fun _ => rfl]
  exact keepsTwins_debug _

theorem keepsTwins_connectedPingPong (hsize : 1 ≤ s.config.rentedBufferSize) (b : BinaryBuffer) :
    KeepsTwins s left right (connectedPingPong b) (connectedPingPong b) := by
  unfold connectedPingPong
  rw [← bind_assoc]
  refine Agrees.bind (keepsTwins_rent_owning hsize fun x y sent sent' hpair => ?_) fun _ =>
    keepsTwins_unhandled _
  refine Simulates.bind (simulates_answerPing hpair List.mem_cons_self List.mem_cons_self b)
    fun r r' => Simulates.of_and fun hr => ?_
  refine Agrees.bind (keepsTwins_readyBuffer hsize hr.2 _) fun _ =>
    Agrees.bind (keepsTwins_sendTo _) fun _ => ?_
  rw [hr.1]
  exact Agrees.pure _

theorem keepsTwins_switchData (hsize : 1 ≤ s.config.rentedBufferSize) (packetId : UInt8)
    (b : BinaryBuffer) :
    KeepsTwins s left right (switchData packetId b) (switchData packetId b) := by
  unfold switchData
  split
  · exact keepsTwins_connectionRequest hsize b
  · exact Agrees.pure _
  · exact keepsTwins_connectedPingPong hsize b
  · exact keepsTwins_unhandled b

theorem keepsTwins_processData (hsize : 1 ≤ s.config.rentedBufferSize) (hview : b.owner = none) :
    KeepsTwins s left right (processData b) (processData b) := by
  refine keepsTwins_owning hview hview (Agrees.bind (keepsTwins_emit ?_) fun _ => ?_)
  · rintro _ _ ⟨⟩
  · exact Agrees.bind (keepsTwins_debug _) fun _ => Agrees.bind (agrees_onBuffer _ _) fun _ =>
      keepsTwins_switchData hsize _ _

/-! ### Frames -/

theorem keepsTwins_orderedNext (channel : UInt8) :
    KeepsTwins s left right (orderedNext channel) (orderedNext channel) := by
  refine Simulates.get_bind fun w v h => ?_
  rw [h.read RakroServerClient.orderedBufferNextPackets fun _ => rfl]
  split
  · exact Agrees.pure _
  · exact Simulates.throw _

theorem keepsTwins_sequencedNext (channel : UInt8) :
    KeepsTwins s left right (sequencedNext channel) (sequencedNext channel) := by
  refine Simulates.get_bind fun w v h => ?_
  rw [h.read RakroServerClient.sequencedPacketsNextPacket fun _ => rfl]
  split
  · exact Agrees.pure _
  · exact Simulates.throw _

theorem keepsTwins_bumpOrdered (channel : UInt8) :
    KeepsTwins s left right (bumpOrdered channel) (bumpOrdered channel) :=
  Agrees.bind (keepsTwins_orderedNext channel) fun _ =>
    keepsTwins_modifyThis ⟨fun _ => rfl, fun _ => rfl, fun _ => rfl, fun _ => rfl⟩

theorem keepsTwins_setSequenced (channel : UInt8) (value : UInt32) :
    KeepsTwins s left right (setSequenced channel value) (setSequenced channel value) :=
  keepsTwins_modifyThis ⟨fun _ => rfl, fun _ => rfl, fun _ => rfl, fun _ => rfl⟩

/-- A packet is taken out of the store. -/
theorem keepsTwins_take (key : OrderKey) :
    KeepsTwins s left right
      (modifyThis fun client =>
        { client with outOfOrderPacketBuffer := client.outOfOrderPacketBuffer.erase key })
      (modifyThis fun client =>
        { client with outOfOrderPacketBuffer := client.outOfOrderPacketBuffer.erase key }) := by
  refine Agrees.modify fun w v h => ?_
  refine ⟨?_, h.address, h.detached.erase key, h.ndebug, h.clock, h.traces,
    ⟨h.pooledHere.backs, h.pooledHere.views.erase key⟩,
    ⟨h.pooledThere.backs, h.pooledThere.views.erase key⟩, h.scopes⟩
  exact congrArg (fun value => ({ value.1 with
    outOfOrderPacketBuffer := value.1.outOfOrderPacketBuffer.erase key }, value.2)) h.value

/-- A packet is stored. -/
theorem keepsTwins_store (key : OrderKey) {val : PacketInformation} (hval : val.rawData.Outside) :
    KeepsTwins s left right
      (modifyThis fun client =>
        { client with outOfOrderPacketBuffer := client.outOfOrderPacketBuffer.insert key val })
      (modifyThis fun client =>
        { client with outOfOrderPacketBuffer := client.outOfOrderPacketBuffer.insert key val }) := by
  refine Agrees.modify fun w v h => ?_
  refine ⟨?_, h.address, h.detached.insert hval.home, h.ndebug, h.clock, h.traces,
    ⟨h.pooledHere.backs, h.pooledHere.views.insert key hval.owner⟩,
    ⟨h.pooledThere.backs, h.pooledThere.views.insert key hval.owner⟩, h.scopes⟩
  exact congrArg (fun value => ({ value.1 with
    outOfOrderPacketBuffer := value.1.outOfOrderPacketBuffer.insert key val }, value.2)) h.value

/-- What lies outside of the pool is the same whatever becomes of the pool. -/
theorem reload_of_home_none (h : b.home = none) (company : BufferCompany) :
    b.reload company = b := by
  unfold reload
  rw [h]

/-- The loop over the stored packets leaves twins, by induction on its fuel. -/
theorem keepsTwins_drain (hsize : 1 ≤ s.config.rentedBufferSize) (channel : UInt8) :
    ∀ (fuel : Nat) (key : OrderKey),
      KeepsTwins s left right (drain channel fuel key) (drain channel fuel key)
  | 0, _ => Simulates.throw _
  | fuel + 1, key => by
    unfold drain
    refine Simulates.get_bind fun w v h => ?_
    rw [h.stored_eq]
    cases hval : w.this.outOfOrderPacketBuffer.lookup key with
    | none => exact Agrees.pure _
    | some val =>
      refine Agrees.bind (keepsTwins_take key) fun _ => Simulates.get_bind fun w' v' _ => ?_
      have hhome := h.detached key val hval
      rw [reload_of_home_none hhome, reload_of_home_none hhome]
      refine Agrees.bind (keepsTwins_processData hsize (h.pooledHere.views key val hval))
        fun _ => ?_
      split
      · exact Simulates.throw _
      · exact Agrees.bind (keepsTwins_bumpOrdered _) fun _ => keepsTwins_drain hsize channel fuel _

theorem keepsTwins_alreadyStored (hview : b.owner = none) (info : FrameInfo)
    (order : OrderInformation) :
    KeepsTwins s left right (alreadyStored b info order) (alreadyStored b info order) := by
  refine Agrees.bind (keepsTwins_debug _) fun _ => ?_
  refine Agrees.bind (keepsTwins_release hview hview) fun _ => ?_
  refine Simulates.get_bind  fun w v h => ?_
  rw [h.read RakroServerClient.debugger fun _ => rfl]
  split
  · exact Simulates.ite Iff.rfl (fun _ => Simulates.throw _) fun _ => Agrees.pure _
  · exact Simulates.throw _

/-- What the branch of ordered frames hands back owns nothing. -/
theorem simulates_processOrdered (hsize : 1 ≤ s.config.rentedBufferSize) (hbody : b.Outside)
    (info : FrameInfo) (order : OrderInformation) :
    Simulates (s.Twins left right) (processOrdered b info order) (processOrdered b info order)
      fun r r' w v => (r = r' ∧ ∀ b' ∈ r, b'.owner = none) ∧ s.Twins left right w v := by
  have hmoved : ∀ b' ∈ some b.movedFrom, b'.owner = none := by
    rintro b' ⟨⟩
    rfl
  have hnone : ∀ b' ∈ (none : Option BinaryBuffer), b'.owner = none := by
    rintro b' ⟨⟩
  refine Agrees.bind (keepsTwins_orderedNext _) fun next => ?_
  refine Simulates.ite Iff.rfl (fun _ => ?_) fun _ => Simulates.ite Iff.rfl (fun _ => ?_)
    fun _ => ?_
  · refine Agrees.bind (keepsTwins_bumpOrdered _) fun _ => ?_
    refine Agrees.bind (keepsTwins_processData hsize hbody.owner) fun _ => ?_
    refine Simulates.get_bind  fun w v h => ?_
    rw [h.stored_eq]
    exact Agrees.bind (keepsTwins_drain hsize _ _ _) fun _ =>
      Simulates.pure fun _ _ h => ⟨⟨rfl, hmoved⟩, h⟩
  · exact Agrees.bind (keepsTwins_release hbody.owner hbody.owner) fun _ =>
      Simulates.pure fun _ _ h => ⟨⟨rfl, hnone⟩, h⟩
  · refine Agrees.bind (keepsTwins_setSequenced _ _) fun _ => Simulates.get_bind fun w v h => ?_
    rw [h.stored_eq]
    refine Simulates.ite Iff.rfl (fun _ => ?_) fun _ => ?_
    · exact Agrees.bind (keepsTwins_alreadyStored hbody.owner _ _) fun _ =>
        Simulates.pure fun _ _ h => ⟨⟨rfl, hnone⟩, h⟩
    · exact Agrees.bind (keepsTwins_store _ hbody) fun _ =>
        Simulates.pure fun _ _ h => ⟨⟨rfl, hmoved⟩, h⟩

theorem keepsTwins_processSequenced (hsize : 1 ≤ s.config.rentedBufferSize)
    (hview : b.owner = none) (info : FrameInfo) (index : UInt24) :
    KeepsTwins s left right (processSequenced b info index) (processSequenced b info index) := by
  refine Agrees.bind (keepsTwins_debug _) fun _ => Agrees.bind (keepsTwins_assert _) fun _ => ?_
  split
  · exact Simulates.throw _
  · refine Agrees.bind (keepsTwins_sequencedNext _) fun _ =>
      Agrees.bind (keepsTwins_orderedNext _) fun _ =>
        Simulates.ite Iff.rfl (fun _ => ?_) fun _ => ?_
    · exact Agrees.bind (keepsTwins_setSequenced _ _) fun _ => keepsTwins_processData hsize hview
    · exact Agrees.bind (keepsTwins_debug _) fun _ => keepsTwins_release hview hview

theorem keepsTwins_processFrame (hsize : 1 ≤ s.config.rentedBufferSize) (hbody : b.Outside)
    (info : FrameInfo) :
    KeepsTwins s left right (processFrame b info) (processFrame b info) := by
  refine Agrees.bind (keepsTwins_emit (by rintro _ _ ⟨⟩)) fun _ => ?_
  split
  · exact keepsTwins_processSequenced hsize hbody.owner info _
  · refine Simulates.bind (Q := fun r r' w v =>
      (r = r' ∧ ∀ b' ∈ r, b'.owner = none) ∧ s.Twins left right w v) ?_ fun r r' => ?_
    · unfold orderFrame
      split
      · exact simulates_processOrdered hsize hbody info _
      · refine Simulates.pure fun _ _ h => ⟨⟨rfl, ?_⟩, h⟩
        rintro b' ⟨⟩
        exact hbody.owner
    · refine Simulates.of_and ?_
      rintro ⟨rfl, hviews⟩
      split
      · exact keepsTwins_processData hsize (hviews _ rfl)
      · exact Agrees.pure _

theorem keepsTwins_handFrame (hsize : 1 ≤ s.config.rentedBufferSize) (hbody : b.Outside)
    (info : FrameInfo) :
    KeepsTwins s left right (handFrame b info) (handFrame b info) :=
  Simulates.ite Iff.rfl (fun _ => keepsTwins_emit (by rintro _ _ ⟨⟩)) fun _ =>
    keepsTwins_processFrame hsize hbody info

/-! ### Datagrams -/

/-- A datagram that is acknowledged is given up in both worlds. -/
theorem keepsTwins_eraseAckBuffer (hsize : 1 ≤ s.config.rentedBufferSize) (id : UInt24) :
    KeepsTwins s left right (eraseAckBuffer id) (eraseAckBuffer id) := by
  intro w v u w' h hrun
  cases hhere : w.this.ackBuffer.lookup id with
  | none =>
    have hnot : id ∉ v.this.ackBuffer := fun hmem =>
      AList.lookup_eq_none.mp hhere ((h.mem_ackBuffer id).mpr hmem)
    cases (run_eraseAckBuffer_none hhere).symm.trans hrun
    exact ⟨⟨⟩, v, run_eraseAckBuffer_none (AList.lookup_eq_none.mpr hnot), rfl, h⟩
  | some b =>
    have hmem : id ∈ w.this.ackBuffer := AList.lookup_isSome.mp (by rw [hhere]; rfl)
    obtain ⟨c, hthere⟩ :=
      Option.isSome_iff_exists.mp (AList.lookup_isSome.mpr ((h.mem_ackBuffer id).mp hmem))
    have hrun' := run_eraseAckBuffer_some hthere
    have hpooled := keepsPooled_eraseAckBuffer hsize id w u w' h.pooledHere hrun
    have hpooled' := keepsPooled_eraseAckBuffer hsize id v _ _ h.pooledThere hrun'
    have hrest : v.this.value.1 = w.this.value.1 := congrArg Prod.fst h.value
    cases (run_eraseAckBuffer_some hhere).symm.trans hrun
    refine ⟨⟨⟩, _, hrun', rfl, Prod.ext hrest ?_, h.address, h.detached, h.ndebug, h.clock,
      h.traces, hpooled, hpooled', h.scopes⟩
    exact kept_erase.trans (by rw [h.kept_eq]; exact kept_erase.symm)

theorem keepsTwins_processAck (hsize : 1 ≤ s.config.rentedBufferSize) (hcopies : Copies b c) :
    KeepsTwins s left right (processAck b) (processAck c) := by
  refine keepsTwins_owning hcopies.left.owner hcopies.right.owner ?_
  refine simulates_onBuffer_bind (reading_readNext Ack) hcopies fun ack _ _ _ => ?_
  dsimp only
  split
  · exact Agrees.forM (keepsTwins_eraseAckBuffer hsize) _
  · exact Simulates.throw _

theorem keepsTwins_advanceWindow (seq expected : UInt24) :
    KeepsTwins s left right (advanceWindow seq expected) (advanceWindow seq expected) := by
  refine Agrees.bind (S := s.Twins left right) (Simulates.get_bind fun w v h => ?_) fun _ =>
    keepsTwins_modifyThis ⟨fun _ => rfl, fun _ => rfl, fun _ => rfl, fun _ => rfl⟩
  rw [h.read RakroServerClient.missingPackets fun _ => rfl]
  refine Simulates.ite Iff.rfl (fun _ => ?_) fun _ => Agrees.pure _
  split
  · exact keepsTwins_modifyThis ⟨fun _ => rfl, fun _ => rfl, fun _ => rfl, fun _ => rfl⟩
  · exact Simulates.throw _

theorem Copies.skipn (h : Copies b c) (count : Nat) : Copies (b.skipn count) (c.skipn count) :=
  ⟨h.toSameView.skipn count, ⟨h.left.home, h.left.owner⟩, ⟨h.right.home, h.right.owner⟩⟩

/-- A body of a copy lies outside of the pool and owns nothing. -/
theorem outside_of_ofRentedLimit {memory : Bytes} {leng : Nat}
    (h : ofRentedLimit { memory } leng = .ok b) : b.Outside := by
  unfold ofRentedLimit at h
  split at h
  · cases h
    exact ⟨rfl, rfl⟩
  · cases h

/-- The frame loop leaves twins, by induction on its fuel. -/
theorem keepsTwins_frameLoop (hsize : 1 ≤ s.config.rentedBufferSize) :
    ∀ (fuel : Nat) {b c : BinaryBuffer}, Copies b c →
      KeepsTwins s left right (frameLoop fuel b) (frameLoop fuel c)
  | 0, _, _, _ => Simulates.throw _
  | fuel + 1, b, c, hcopies => by
    unfold frameLoop
    rw [hcopies.remaining_eq]
    refine Simulates.ite Iff.rfl (fun _ => ?_) fun _ => Agrees.pure _
    refine simulates_onBuffer_bind (reading_readNext FrameInfo) hcopies
      fun info b' c' hcopies' => ?_
    dsimp only
    have hhere : b'.cursorHome = none := by
      unfold cursorHome
      rw [hcopies'.left.home]
      rfl
    have hthere : c'.cursorHome = none := by
      unfold cursorHome
      rw [hcopies'.right.home]
      rfl
    rw [hhere, hthere, hcopies'.remainingSlice_eq, hcopies'.index_eq, hcopies'.size_eq]
    refine Agrees.bind (keepsTwins_emit (by rintro _ _ ⟨⟩)) fun _ => ?_
    split
    · exact Simulates.throw _
    · next hbody =>
      exact Agrees.bind (keepsTwins_handFrame hsize (outside_of_ofRentedLimit hbody) info) fun _ =>
        keepsTwins_frameLoop hsize fuel (hcopies'.skipn _)

theorem keepsTwins_processFrameSet (hsize : 1 ≤ s.config.rentedBufferSize)
    (hcopies : Copies b c) :
    KeepsTwins s left right (processFrameSet b) (processFrameSet c) := by
  refine simulates_onBuffer_bind (reading_readNext FrameHeader) hcopies
    fun header b' c' hcopies' => ?_
  refine Simulates.get_bind fun w v h => ?_
  rw [h.read RakroServerClient.nextExpectedSeq fun _ => rfl]
  refine Simulates.ite Iff.rfl (fun _ => Agrees.pure _) fun _ => ?_
  refine Agrees.bind (keepsTwins_advanceWindow _ _) fun _ => ?_
  rw [hcopies'.size_eq]
  exact keepsTwins_frameLoop hsize _ hcopies'

/-- **What a client makes of a datagram does not depend on the rest of the world.** -/
theorem keepsTwins_processPacket (hsize : 1 ≤ s.config.rentedBufferSize) (hcopies : Copies b c) :
    KeepsTwins s left right (processPacket b) (processPacket c) := by
  refine Simulates.bind (simulates_guarded (simulates_onBuffer (reading_readNextPeak UInt8)
    hcopies)) fun r r' => Simulates.of_and fun hr => ?_
  obtain ⟨data, b'⟩ := r
  obtain ⟨data', c'⟩ := r'
  obtain rfl : data = data' := hr.1
  have hcopies' : Copies b' c' := hr.2
  have hrelease : KeepsTwins s left right (release b') (release c') :=
    keepsTwins_release hcopies'.left.owner hcopies'.right.owner
  refine Simulates.ite Iff.rfl (fun _ => hrelease) fun _ => Simulates.ite Iff.rfl (fun _ => ?_)
    fun _ => keepsTwins_owning hcopies'.left.owner hcopies'.right.owner
      (keepsTwins_processFrameSet hsize hcopies')
  split
  · exact Agrees.bind (keepsTwins_emit (by rintro _ _ ⟨⟩)) fun _ => hrelease
  · exact keepsTwins_processAck hsize hcopies'
  · exact hrelease

end Twins

end Rakro
