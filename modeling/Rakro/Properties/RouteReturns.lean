import Rakro.Properties.AllPackets
import Rakro.Properties.CompleteParsing
import Rakro.Properties.FrameReturns
import Rakro.Roundtrip.Ack
import Rakro.Server.ClientRouter

/-!
# When `route` returns

Nothing between the decoders and `route` catches an exception. So a datagram is got through when all
of it can be read, its frames are complete, and each of them is got through in the state that the
ones before it leave.
-/

namespace Rakro

open Infra BinaryBuffer

/-! ## Acknowledgements -/

namespace Ack

/-- That many ranges are there, and each of them ends. -/
def RangesEnd : Nat → Bytes → Prop
  | 0, _ => True
  | n + 1, r =>
    6 ≤ r.length ∧ ofLeBytes ((r.drop 3).take 3) ≠ 2 ^ 24 - 1 ∧ RangesEnd n (r.drop 6)

/-- The ranges are read, and all of them end. -/
theorem readRanges_isSome_iff : ∀ (n : Nat) (b : BinaryBuffer) (p r : Bytes),
    (∃ v b', (readRanges n).run (b.between p r) = .ok v b' ∧ (v.mapM Record.packets).isSome) ↔
      RangesEnd n r
  | 0, b, p, r => iff_of_true ⟨[], _, rfl, rfl⟩ trivial
  | n + 1, b, p, r => by
    rw [RangesEnd]
    constructor
    · rintro ⟨v, b', h, hsome⟩
      rw [readRanges] at h
      obtain ⟨start, b₁, h₁, h⟩ := bind_eq_ok h
      obtain ⟨bs₁, r₁, hlen₁, rfl, rfl, -⟩ := uint24_exact h₁
      obtain ⟨stop, b₂, h₂, h⟩ := bind_eq_ok h
      obtain ⟨bs₂, r₂, hlen₂, rfl, rfl, rfl⟩ := uint24_exact h₂
      obtain ⟨records, b₃, h₃, h⟩ := bind_eq_ok h
      cases h
      obtain ⟨hstop, hrest⟩ := (isSome_mapM_cons _ _ _).mp hsome
      have hlt := ofLeBytes_lt_three hlen₂
      rw [packets_isSome_iff, UInt24.toNat_ofNat hlt, Nat.mod_eq_of_lt hlt] at hstop
      refine ⟨?_, ?_, ?_⟩
      · rw [List.length_append, List.length_append]; omega
      · rwa [List.drop_left' hlen₁, List.take_left' hlen₂]
      · rw [← List.drop_drop (i := 3) (j := 3), List.drop_left' hlen₁, List.drop_left' hlen₂]
        exact (readRanges_isSome_iff n _ _ _).mp ⟨_, _, h₃, hrest⟩
    · rintro ⟨hlen, hstop, hrest⟩
      have hlen₁ : (r.take 3).length = 3 := by rw [List.length_take]; omega
      have hlen₂ : ((r.drop 3).take 3).length = 3 := by
        rw [List.length_take, List.length_drop]; omega
      have hlt := ofLeBytes_lt_three hlen₂
      obtain ⟨v, b', h, hsome⟩ := (readRanges_isSome_iff n b (p ++ r.take 3 ++ (r.drop 3).take 3)
        (r.drop 6)).mpr hrest
      have h₁ := consumes_uint24 hlen₁ b p (r.drop 3)
      have h₂ := consumes_uint24 hlen₂ b (p ++ r.take 3) (r.drop 6)
      rw [List.take_append_drop] at h₁
      rw [← List.drop_drop (i := 3) (j := 3), List.take_append_drop, List.drop_drop] at h₂
      refine ⟨_, b', (run_bind_of_ok h₁).trans ((run_bind_of_ok h₂).trans (run_bind_of_ok h)),
        (isSome_mapM_cons _ _ _).mpr ⟨?_, hsome⟩⟩
      rw [packets_isSome_iff, UInt24.toNat_ofNat hlt, Nat.mod_eq_of_lt hlt]
      exact hstop

end Ack

/-- An acknowledgement that is got through, by the bytes behind its id. -/
def AckReturns : Bytes → Prop
  | l₀ :: l₁ :: r => Ack.RangesEnd (Ack.rangeCount [l₀, l₁]) r
  | _ => False

/-- An acknowledgement with less than its count behind its id is not got through. -/
theorem not_ackReturns_short : ∀ {r : Bytes}, ¬ 2 ≤ r.length → ¬ AckReturns r
  | [], _ => id
  | [_], _ => id
  | _ :: _ :: _, h => absurd (by simp) h

theorem succeeds_forM {α : Type} {f : α → ClientM PUnit} (hf : ∀ a w, Succeeds (f a) w) :
    ∀ (l : List α) (w : World), Succeeds (l.forM f) w
  | [], w => succeeds_pure _ _
  | a :: l, w => by
    obtain ⟨u, hrun⟩ := (hf a w).run
    exact (succeeds_bind_of_ok hrun).mpr (succeeds_forM hf l _)

theorem succeeds_eraseAckBuffer (id : UInt24) (w : World) : Succeeds (eraseAckBuffer id) w := by
  cases hlookup : w.this.ackBuffer.lookup id with
  | none => exact ⟨_, _, run_eraseAckBuffer_none hlookup⟩
  | some buffer => exact ⟨_, _, run_eraseAckBuffer_some hlookup⟩

/-- It takes an acknowledgement that can be read and whose ranges end. -/
theorem succeeds_processAck_iff_read (b : BinaryBuffer) (w : World) :
    Succeeds (processAck b) w ↔
      ∃ ack b', (readNext Ack).run b = .ok ack b' ∧ ack.allPackets.isSome := by
  unfold processAck
  rw [succeeds_owning]
  constructor
  · intro h
    obtain ⟨⟨ack, b'⟩, w', hrun⟩ := h.of_bind
    obtain ⟨hread, -⟩ := onBuffer_eq_ok hrun
    rw [succeeds_bind_of_ok hrun] at h
    dsimp only at h hread
    refine ⟨ack, b', hread, ?_⟩
    cases hids : ack.allPackets with
    | some ids => rfl
    | none =>
      rw [hids] at h
      exact absurd h (not_succeeds_throw _ _)
  · rintro ⟨ack, b', hread, hsome⟩
    obtain ⟨ids, hids⟩ := Option.isSome_iff_exists.mp hsome
    rw [succeeds_bind_of_ok (run_onBuffer_ok hread)]
    dsimp only
    rw [hids]
    exact succeeds_forM succeeds_eraseAckBuffer ids w

theorem succeeds_processAck {b : BinaryBuffer} {id : UInt8} {r : Bytes} (hstart : b.index = 0)
    (hbytes : b.bytes = id :: r) (hid : id ≠ 0) (w : World) :
    Succeeds (processAck b) w ↔ AckReturns r := by
  rw [succeeds_processAck_iff_read, eq_between_start hstart hbytes]
  by_cases hlong : 2 ≤ r.length
  · obtain ⟨l₀, l₁, r, rfl⟩ : ∃ l₀ l₁ r', r = l₀ :: l₁ :: r' := by
      match r, hlong with
      | l₀ :: l₁ :: r, _ => exact ⟨l₀, l₁, r, rfl⟩
    have hread := Ack.run_readAck (b := b) (p := []) (r := r) hid (show [l₀, l₁].length = 2 from rfl)
    rw [AckReturns, ← Ack.readRanges_isSome_iff _ b ([] ++ [id] ++ [l₀, l₁]) r]
    constructor
    · rintro ⟨ack, b', h, hsome⟩
      obtain ⟨records, b'', hranges, h⟩ := bind_eq_ok (hread.symm.trans h)
      cases h
      exact ⟨records, _, hranges, by rwa [Ack.allPackets, Option.isSome_map] at hsome⟩
    · rintro ⟨records, b', hranges, hsome⟩
      exact ⟨⟨records⟩, b', hread.trans (run_bind_of_ok hranges),
        by rwa [Ack.allPackets, Option.isSome_map]⟩
  · refine iff_of_false ?_ (not_ackReturns_short hlong)
    rintro ⟨ack, b', h, -⟩
    have hlen := length_of_succeeds_readNext (show 0 + 3 ≤ 2 ^ 64 by decide) ⟨_, _, h⟩
    rw [List.length_cons] at hlen
    exact hlong (Nat.le_of_succ_le_succ hlen)

/-! ## Frame sets -/

/-- A loop that returns has gone over whole frames, with four bytes or fewer behind them. -/
theorem exists_frames_of_succeeds : ∀ (fuel : Nat) (b : BinaryBuffer) (p r : Bytes) (w : World),
    Succeeds (frameLoop fuel (b.between p r)) w → ∃ (fs : List ParsedFrame) (tail : Bytes),
      r = fs.flatMap ParsedFrame.bytes ++ tail ∧ tail.length ≤ 4 ∧
        ∀ f ∈ fs.getLast?, 4 < f.bytes.length + tail.length
  | 0, _, _, _, _, h => absurd h (not_succeeds_throw _ _)
  | fuel + 1, b, p, r, w, h => by
    cases loopFront b p r with
    | finished hshort => exact ⟨[], r, rfl, hshort, by simp⟩
    | unread hlong hread =>
      exact absurd h (not_succeeds_of_error (run_frameLoop_unread fuel w hlong hread))
    | overrun hreads hlong hover =>
      exact absurd h (not_succeeds_of_error (run_frameLoop_overrun fuel b p hreads hlong hover w))
    | frame f rest hlen =>
      rw [frameLoop_round fuel b p hlen] at h
      obtain ⟨u, hrun⟩ := h.of_bind.run
      obtain ⟨fs, tail, rfl, htail, hlast⟩ := exists_frames_of_succeeds fuel b _ rest _
        ((succeeds_bind_of_ok hrun).mp h)
      refine ⟨f :: fs, tail, by rw [List.flatMap_cons, List.append_assoc], htail, ?_⟩
      intro g hg
      cases fs with
      | nil =>
        cases hg
        exact hlen
      | cons f' fs => exact hlast g (by rwa [List.getLast?_cons_cons] at hg)

/-- What is behind the header of a frame set is got through in the state `w`. -/
def FramesReturn (home : Option Place) (size : Nat) (rest : Bytes) (w : World) : Prop :=
  ∃ fs tail, rest = fs.flatMap ParsedFrame.bytes ++ tail ∧ tail.length ≤ 4 ∧
    (∀ f ∈ fs.getLast?, 4 < f.bytes.length + tail.length) ∧ RoundsReturn home size 4 fs tail w

/-- A frame set is got through when it is stale, or its frames are. -/
theorem IsFrameSet.succeeds_iff {b : BinaryBuffer} {id : UInt8} {seq rest : Bytes} {w : World}
    (h : IsFrameSet b id seq rest) (hw : w.StoresByKey) : Succeeds (processPacket b) w ↔
      (¬ number seq < w.this.nextExpectedSeq →
        FramesReturn b.home b.size rest (w.advanced (number seq))) := by
  by_cases hstale : number seq < w.this.nextExpectedSeq
  · refine iff_of_true ?_ fun hnot => absurd hstale hnot
    rw [h.processPacket_eq, succeeds_owning]
    exact ⟨_, _, processFrames_stale hstale _⟩
  · have hstores : (w.advanced (number seq)).StoresByKey := storesByKey_of_eq hw rfl
    rw [imp_iff_right hstale]
    constructor
    · intro hs
      rw [h.processPacket_eq, succeeds_owning] at hs
      have hloop := (succeeds_congr (processFrames_bind hstale _)).mp hs
      obtain ⟨fs, tail, rfl, htail, hlast⟩ := exists_frames_of_succeeds _ _ _ _ _ hloop
      refine ⟨fs, tail, rfl, htail, hlast, ?_⟩
      refine (succeeds_rounds b.home b.size tail fs 4 hstores).mp ?_
      rwa [← h.succeeds_iff_rounds hstale hlast htail, h.processPacket_eq, succeeds_owning]
    · rintro ⟨fs, tail, rfl, htail, hlast, hrounds⟩
      rw [h.succeeds_iff_rounds hstale hlast htail]
      exact (succeeds_rounds b.home b.size tail fs 4 hstores).mpr hrounds

/-! ## `process_packet` -/

/-- A datagram that is got through in the state `w`. -/
def DatagramReturns (b : BinaryBuffer) (w : World) : Prop :=
  match b.bytes with
  | [] => False
  | id :: r =>
    if id &&& validFrameMask ≠ validFrameMask then True
    else if validMaxFrameId < id then PacketId.ofByte id = some .ack → AckReturns r
    else 3 ≤ r.length ∧
      (¬ IsFrameSet.number (r.take 3) < w.this.nextExpectedSeq →
        FramesReturn b.home b.size (r.drop 3) (w.advanced (IsFrameSet.number (r.take 3))))

/-- **`process_packet` returns exactly on the datagrams it gets through.** -/
theorem succeeds_processPacket {b : BinaryBuffer} (hstart : b.index = 0) {w : World}
    (hw : w.StoresByKey) : Succeeds (processPacket b) w ↔ DatagramReturns b w := by
  unfold DatagramReturns
  cases packetFront hstart with
  | short hlen hhead hrun =>
    refine iff_of_false (not_succeeds_of_error (hrun w)) ?_
    cases hbytes : b.bytes with
    | nil => exact id
    | cons id r =>
      rw [hbytes] at hlen hhead
      have hid := hhead id rfl
      dsimp only
      rw [if_neg (not_not.mpr hid.masked), if_neg hid.not_above]
      rintro ⟨hlong, -⟩
      rw [List.length_cons] at hlen
      omega
  | @ignored id r hbytes hid hack hrun =>
    rw [hrun, hbytes]
    refine iff_of_true ⟨_, _, rfl⟩ ?_
    dsimp only
    split
    · trivial
    · next hmask =>
      split
      · exact fun h => absurd (PacketId.ofByte_eq_some.mp h) hack
      · next hmax => exact absurd (isFrameSetId_of_masked (not_not.mp hmask) hmax) hid
  | nack hbytes hrun =>
    rw [hrun, hbytes]
    exact iff_of_true ⟨_, _, rfl⟩ fun h => absurd h (by decide)
  | @ack r hbytes hrun =>
    rw [hrun, succeeds_processAck hstart hbytes (by decide), hbytes]
    exact (imp_iff_right rfl).symm
  | @frameSet id seq rest hset =>
    rw [hset.succeeds_iff hw, hset.bytes, List.cons_append]
    dsimp only
    rw [if_neg (not_not.mpr hset.id.masked), if_neg hset.id.not_above,
      List.take_left' hset.length_seq, List.drop_left' hset.length_seq, and_iff_right]
    rw [List.length_append, hset.length_seq]
    exact Nat.le_add_right _ _

/-! ## `route` -/

/-- Every client stores its packets by key. -/
def RouterWorld.StoreByKey (rw : RouterWorld) : Prop :=
  ∀ address client, rw.router.connectedClients.lookup address = some client → client.StoresByKey

/--
The states of a server that has not ended. `outside` is what the rest of the server does to the
things that the clients share.
-/
inductive Reachable : RouterWorld → Prop
  | start (host : Host) : Reachable { host := host }
  | outside {rw : RouterWorld} (host : Host) : Reachable rw → Reachable { rw with host := host }
  | connect {rw rw' : RouterWorld} {address : IPV4Addr} {client : SemiConnectedClient}
      {guid : UInt64} {debugger : Option DebugInstrument} {serverStartTime : UInt64} :
      Reachable rw →
      (connectClient address client guid debugger serverStartTime).run rw = .ok ⟨⟩ rw' →
      Reachable rw'
  | route {rw rw' : RouterWorld} {address : IPV4Addr} {b : BinaryBuffer} : b.index = 0 →
      Reachable rw → (route address b).run rw = .ok ⟨⟩ rw' → Reachable rw'

/-- Another client in the place of one leaves the others. -/
theorem storeByKey_insert {rw : RouterWorld} (h : rw.StoreByKey) {rw' : RouterWorld}
    {address : IPV4Addr} {client : RakroServerClient} (hclient : client.StoresByKey)
    (heq : rw'.router.connectedClients = rw.router.connectedClients.insert address client) :
    rw'.StoreByKey := by
  unfold RouterWorld.StoreByKey
  rw [heq]
  exact AllEntries.insert h hclient

/-- So does dropping one. -/
theorem storeByKey_erase {rw : RouterWorld} (h : rw.StoreByKey) {rw' : RouterWorld}
    {address : IPV4Addr}
    (heq : rw'.router.connectedClients = rw.router.connectedClients.erase address) :
    rw'.StoreByKey := by
  unfold RouterWorld.StoreByKey
  rw [heq]
  exact AllEntries.erase h address

/-- The state in which `process_packet` is called for a client of the router. -/
def RouterWorld.entered (rw : RouterWorld) (client : RakroServerClient) : World where
  this := { client with lastPacket := rw.host.clock 0 }
  host := { rw.host with clock := fun n => rw.host.clock (n + 1) }

theorem releaseAll_bufferSize (buffers : List BinaryBuffer) : ∀ company : BufferCompany,
    (releaseAll company buffers).bufferSize = company.bufferSize := by
  induction buffers with
  | nil => exact fun _ => rfl
  | cons buffer buffers ih =>
    intro company
    exact (ih _).trans (company.destroy_bufferSize _)

section Route

variable {rw : RouterWorld} {address : IPV4Addr} {client : RakroServerClient}

/-- The state after the clock has been read once. -/
def RouterWorld.tick (rw : RouterWorld) : RouterWorld :=
  { rw with host := { rw.host with clock := fun n => rw.host.clock (n + 1) } }

theorem run_routerTime : routerTime.run rw = .ok (rw.host.clock 0) rw.tick := rfl

/-- A datagram of an address without a client is dropped. -/
theorem run_route_unknown (h : rw.router.connectedClients.lookup address = none)
    (b : BinaryBuffer) : (route address b).run rw = (routerRelease [b]).run rw := by
  unfold route
  rw [run_get_bind]
  dsimp only
  rw [h]

/-- The state after a client has been dropped for its silence, and its datagram with it. -/
def RouterWorld.dropped (rw : RouterWorld) (address : IPV4Addr) (client : RakroServerClient)
    (b : BinaryBuffer) : RouterWorld where
  router :=
    { rw.router with connectedClients := rw.router.connectedClients.erase address }
  host :=
    { rw.host with
      clock := fun n => rw.host.clock (n + 1)
      company := releaseAll rw.host.company (client.heldBuffers ++ [b]) }

/-- Behind the timeout the client is dropped, with all it holds. -/
theorem run_route_timeout (h : rw.router.connectedClients.lookup address = some client)
    (htimeout : rw.router.timeout < rw.host.clock 0 - client.lastPacket) (b : BinaryBuffer) :
    (route address b).run rw = .ok ⟨⟩ (rw.dropped address client b) := by
  unfold route
  rw [run_get_bind]
  dsimp only
  rw [h]
  dsimp only
  rw [run_bind_of_ok run_routerTime, run_get_bind]
  exact congrArg (EStateM.run · rw.tick) (if_pos htimeout)

/-- A datagram of a client that has not timed out is passed to `process_packet`. -/
theorem run_route_passes (h : rw.router.connectedClients.lookup address = some client)
    (htimeout : ¬ rw.router.timeout < rw.host.clock 0 - client.lastPacket) (b : BinaryBuffer) :
    (route address b).run rw =
      (onClient address { client with lastPacket := rw.host.clock 0 } (processPacket b)).run
        rw.tick := by
  unfold route
  rw [run_get_bind]
  dsimp only
  rw [h]
  dsimp only
  rw [run_bind_of_ok run_routerTime, run_get_bind]
  exact congrArg (EStateM.run · rw.tick) (if_neg htimeout)

/-- Any other datagram is processed, and the client is put back however that ends. -/
theorem run_route_known (h : rw.router.connectedClients.lookup address = some client)
    (htimeout : ¬ rw.router.timeout < rw.host.clock 0 - client.lastPacket) (b : BinaryBuffer) :
    (route address b).run rw =
      match (processPacket b).run (rw.entered client) with
      | .ok u w => .ok u (rw.store address w)
      | .error e w => .error e (rw.store address w) :=
  run_route_passes h htimeout b

/-- What `route` does with a datagram from `address`. -/
inductive RouteFront (address : IPV4Addr) (b : BinaryBuffer) (rw : RouterWorld) : Prop
  | unknown {rw' : RouterWorld} : rw.router.connectedClients.lookup address = none →
      (route address b).run rw = .ok ⟨⟩ rw' → rw'.router = rw.router →
      rw'.host.company.bufferSize = rw.host.company.bufferSize → RouteFront address b rw
  | timeout {client : RakroServerClient} {rw' : RouterWorld} :
      rw.router.connectedClients.lookup address = some client →
      rw.router.timeout < rw.host.clock 0 - client.lastPacket →
      (route address b).run rw = .ok ⟨⟩ rw' →
      rw'.router.connectedClients = rw.router.connectedClients.erase address →
      rw'.host.company.bufferSize = rw.host.company.bufferSize → RouteFront address b rw
  | returned {client : RakroServerClient} {w : World} :
      rw.router.connectedClients.lookup address = some client →
      ¬ rw.router.timeout < rw.host.clock 0 - client.lastPacket →
      (processPacket b).run (rw.entered client) = .ok ⟨⟩ w →
      (route address b).run rw = .ok ⟨⟩ (rw.store address w) → RouteFront address b rw
  | threw {client : RakroServerClient} {e : Exn} {w : World} :
      rw.router.connectedClients.lookup address = some client →
      ¬ rw.router.timeout < rw.host.clock 0 - client.lastPacket →
      (processPacket b).run (rw.entered client) = .error e w →
      (route address b).run rw = .error e (rw.store address w) → RouteFront address b rw

/-- Every datagram is one of these. -/
theorem routeFront (address : IPV4Addr) (b : BinaryBuffer) (rw : RouterWorld) :
    RouteFront address b rw := by
  cases hclient : rw.router.connectedClients.lookup address with
  | none =>
    exact .unknown hclient (run_route_unknown hclient b) rfl (releaseAll_bufferSize _ _)
  | some client =>
    by_cases htimeout : rw.router.timeout < rw.host.clock 0 - client.lastPacket
    · exact .timeout hclient htimeout (run_route_timeout hclient htimeout b) rfl
        (releaseAll_bufferSize _ _)
    · -- the client ends as its method does
      have hrun := run_route_known hclient htimeout b
      cases hpacket : (processPacket b).run (rw.entered client) with
      | ok u w =>
        rw [hpacket] at hrun
        exact .returned hclient htimeout hpacket hrun
      | error e w =>
        rw [hpacket] at hrun
        exact .threw hclient htimeout hpacket hrun

/-! ### `connect_client` -/

/-- The client that `connect_client` makes. -/
def freshClient (address : IPV4Addr) (client : SemiConnectedClient) (guid : UInt64)
    (debugger : Option DebugInstrument) (lastPacket serverStartTime : UInt64) :
    RakroServerClient :=
  { guid, debugger, mtu := client.mtu, address, lastPacket, serverStartTime }

/-- An address that is in the map already stays as it is. -/
theorem run_connectClient_known {mid : SemiConnectedClient} {guid : UInt64}
    {debugger : Option DebugInstrument} {serverStartTime : UInt64}
    (h : address ∈ rw.router.connectedClients) :
    (connectClient address mid guid debugger serverStartTime).run rw = .ok ⟨⟩ rw := by
  unfold connectClient
  rw [run_get_bind, if_pos h]
  rfl

/-- The state after a client has been made for an address. -/
def RouterWorld.joined (rw : RouterWorld) (address : IPV4Addr) (client : RakroServerClient) :
    RouterWorld where
  router :=
    { rw.router with connectedClients := rw.router.connectedClients.insert address client }
  host := rw.tick.host

theorem run_connectClient_new {mid : SemiConnectedClient} {guid : UInt64}
    {debugger : Option DebugInstrument} {serverStartTime : UInt64}
    (h : address ∉ rw.router.connectedClients) :
    (connectClient address mid guid debugger serverStartTime).run rw = .ok ⟨⟩ (rw.joined address
      (freshClient address mid guid debugger (rw.host.clock 0) serverStartTime)) := by
  unfold connectClient
  rw [run_get_bind, if_neg h]
  rfl

end Route

/-- **Every client of a server that has not ended stores its packets by key.** -/
theorem Reachable.storeByKey {rw : RouterWorld} (h : Reachable rw) : rw.StoreByKey := by
  induction h with
  | start host => exact fun address client h => absurd h (by simp [AList.lookup_empty])
  | outside host _ ih => exact ih
  | @connect rw rw' address client guid debugger serverStartTime _ hrun ih =>
    by_cases hmem : address ∈ rw.router.connectedClients
    · cases hrun.symm.trans (run_connectClient_known hmem)
      exact ih
    · cases hrun.symm.trans (run_connectClient_new hmem)
      refine storeByKey_insert ih ?_ rfl
      exact allEntries_empty StoredUnder
  | @route rw rw' address b hstart _ hrun ih =>
    cases routeFront address b rw with
    | unknown _ hroute hrouter _ =>
      cases hrun.symm.trans hroute
      unfold RouterWorld.StoreByKey
      rw [hrouter]
      exact ih
    | timeout _ _ hroute herase _ =>
      cases hrun.symm.trans hroute
      exact storeByKey_erase ih herase
    | @returned client w hclient _ hpacket hroute =>
      cases hrun.symm.trans hroute
      -- only the client at this address has changed
      have hkeeps := keepsStore_processPacket hstart (rw.entered client) (ih address client hclient)
      rw [after_of_ok hpacket] at hkeeps
      exact storeByKey_insert ih hkeeps rfl
    | threw _ _ _ hroute => cases hrun.symm.trans hroute

/-- A datagram that is got through when it comes from `address`. -/
def RouteReturns (address : IPV4Addr) (b : BinaryBuffer) (rw : RouterWorld) : Prop :=
  ∀ client, rw.router.connectedClients.lookup address = some client →
    ¬ rw.router.timeout < rw.host.clock 0 - client.lastPacket →
      DatagramReturns b (rw.entered client)

/--
**In every state that a running server reaches, `route` returns exactly on the datagrams that are
got through.**
-/
theorem route_returns_iff {rw : RouterWorld} (hrw : Reachable rw) {b : BinaryBuffer}
    (hstart : b.index = 0) (address : IPV4Addr) :
    Succeeds (route address b) rw ↔ RouteReturns address b rw := by
  unfold RouteReturns
  cases routeFront address b rw with
  | unknown hclient hroute _ _ =>
    rw [hclient]
    exact iff_of_true ⟨_, _, hroute⟩ (by rintro _ ⟨⟩)
  | timeout hclient htimeout hroute _ _ =>
    rw [hclient]
    refine iff_of_true ⟨_, _, hroute⟩ ?_
    rintro _ ⟨⟩ hnot
    exact absurd htimeout hnot
  | @returned client w hclient htimeout hpacket hroute =>
    have hstores : (rw.entered client).StoresByKey := hrw.storeByKey address client hclient
    rw [hclient]
    refine iff_of_true ⟨_, _, hroute⟩ ?_
    rintro _ ⟨⟩ -
    exact (succeeds_processPacket hstart hstores).mp ⟨_, _, hpacket⟩
  | @threw client e w hclient htimeout hpacket hroute =>
    have hstores : (rw.entered client).StoresByKey := hrw.storeByKey address client hclient
    refine iff_of_false (not_succeeds_of_error hroute) fun h => ?_
    exact not_succeeds_of_error hpacket
      ((succeeds_processPacket hstart hstores).mpr (h client hclient htimeout))

/-- A server whose first client has just connected. -/
def oneClient : RouterWorld where
  router := { connectedClients := AList.insert {} { lastPacket := 0 } ∅ }
  host := { company := .new 1 16 1 }

theorem oneClient_reachable : Reachable oneClient :=
  @Reachable.connect { host := { company := .new 1 16 1 } } oneClient {} {} 0 none 0 (.start _) rfl

/-- A frame with a payload of two bytes. -/
theorem route_returns_two :
    Succeeds (route {} (plainDatagram [0x13, 0] (by decide))) oneClient := by
  refine (route_returns_iff oneClient_reachable rfl {}).mpr fun client _ _ =>
    ⟨by decide, fun _ => ?_⟩
  exact ⟨[pairFrame.parsed], [], rfl, by decide, by rintro _ ⟨⟩; decide, .inr trivial, trivial⟩

/-- A datagram of one byte that announces a frame set ends the server. -/
theorem not_route_returns_one :
    Reachable oneClient ∧ ¬ Succeeds (route {} { bytes := [0x80] }) oneClient :=
  ⟨oneClient_reachable, not_succeeds_of_error rfl⟩

end Rakro
