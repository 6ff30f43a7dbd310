import Rakro.Properties.AnyMagic
import Rakro.Properties.Availability
import Rakro.Properties.Preconditions

/-!
# The preconditions that a run of the server can break

Between two rounds, each client stores only what can be read, and the pool is one that may have a
block. A round adds one precondition to those of its client: a ping follows the pointer to the id of
the server, which nobody has to have set.
-/

namespace Rakro

open Infra BinaryBuffer

variable {ndebug : Bool} {serverId : Option StdString}

/-! ## The router -/

/-- The host is ample, and what every client stores is whole. -/
structure RouterWorld.Orderly (ndebug : Bool) (rw : RouterWorld) : Prop where
  ample : rw.host.Ample ndebug
  clients : AllEntries (fun _ (client : RakroServerClient) => client.StoresWhole)
    rw.router.connectedClients

section Router

variable {α : Type} {E : Exn → Prop} {Q : α → Prop} {rw rw' : RouterWorld} {address : IPV4Addr}
  {client : RakroServerClient} {b : BinaryBuffer} {what : String}

/-- Giving buffers back leaves the number of blocks there may be. -/
theorem releaseAll_blockMaxCount (buffers : List BinaryBuffer) : ∀ company : BufferCompany,
    (releaseAll company buffers).blockMaxCount = company.blockMaxCount := by
  induction buffers with
  | nil => exact fun _ => rfl
  | cons buffer buffers ih =>
    intro company
    exact (ih _).trans (company.destroy_blockMaxCount _)

theorem confined_routerRelease (buffers : List BinaryBuffer) :
    Confined (RouterWorld.Orderly ndebug) E (fun _ => True) (routerRelease buffers) :=
  .modify fun _ hrw => ⟨hrw.ample.of_company rfl (releaseAll_blockMaxCount _ _)
    (releaseAll_bufferSize _ _), hrw.clients⟩

theorem confined_routerTime :
    Confined (RouterWorld.Orderly ndebug) E (fun _ => True) routerTime where
  returns rw a rw' hrw hrun := by
    cases run_routerTime.symm.trans hrun
    exact ⟨⟨hrw.ample.of_company rfl rfl rfl, hrw.clients⟩, trivial⟩
  throws rw e rw' _ hrun := by cases run_routerTime.symm.trans hrun

/-- A client is entered in an orderly state. -/
theorem RouterWorld.Orderly.entered (h : rw.Orderly ndebug)
    (hclient : rw.router.connectedClients.lookup address = some client) :
    (rw.entered client).Orderly ndebug :=
  ⟨h.ample.of_company rfl rfl rfl, h.clients address client hclient⟩

/-- What is left behind a datagram that returns is in order again. -/
theorem confined_route (hb : b.InView) (hstart : b.index = 0) :
    Confined (RouterWorld.Orderly ndebug) (fun _ => True) (fun _ => True) (route address b) where
  returns rw a rw' hrw hrun := by
    refine ⟨?_, trivial⟩
    cases hclient : rw.router.connectedClients.lookup address with
    | none =>
      rw [run_route_unknown hclient] at hrun
      exact ((confined_routerRelease (E := fun _ => True) [b]).returns rw a rw' hrw hrun).1
    | some client =>
      by_cases htimeout : rw.router.timeout < rw.host.clock 0 - client.lastPacket
      · cases (run_route_timeout hclient htimeout b).symm.trans hrun
        exact ⟨hrw.ample.of_company rfl (releaseAll_blockMaxCount _ _) (releaseAll_bufferSize _ _),
          AllEntries.erase hrw.clients address⟩
      · have hknown := (run_route_known hclient htimeout b).symm.trans hrun
        cases hpacket : (processPacket b).run (rw.entered client) with
        | ok u w =>
          rw [hpacket] at hknown
          cases hknown
          have hw := ((confined_processPacket hb hstart).returns _ _ _ (hrw.entered hclient)
            hpacket).1
          exact ⟨hw.ample, AllEntries.insert hrw.clients hw.stored⟩
        | error e w =>
          rw [hpacket] at hknown
          cases hknown
  throws _ _ _ _ _ := trivial

/-- A precondition is broken by a frame set of a client, one that is in time and not stale. -/
theorem breaks_of_route (hrw : rw.Orderly ndebug) (hb : b.InView) (hstart : b.index = 0)
    (hrun : (route address b).run rw = .error (.undefined what) rw') :
    ∃ client id seq rest, rw.router.connectedClients.lookup address = some client ∧
      ¬ rw.router.timeout < rw.host.clock 0 - client.lastPacket ∧ IsFrameSet b id seq rest ∧
      ¬ IsFrameSet.number seq < client.nextExpectedSeq ∧ BreaksBehind ndebug rest what := by
  cases routeFront address b rw with
  | unknown _ hreturns => cases hreturns.symm.trans hrun
  | timeout _ _ hreturns => cases hreturns.symm.trans hrun
  | returned _ _ _ hreturns => cases hreturns.symm.trans hrun
  | @threw client e w hclient htime hpacket hthrows =>
    cases hthrows.symm.trans hrun
    obtain ⟨id, seq, rest, hset, hbreaks⟩ := (confined_processPacket hb hstart).throws _ _ _
      (hrw.entered hclient) hpacket what rfl
    refine ⟨client, id, seq, rest, hclient, htime, hset, fun hstale => ?_, hbreaks⟩
    rw [hset.processPacket_eq] at hpacket
    cases (run_owning_ok (processFrames_stale (w := rw.entered client) hstale _)).symm.trans hpacket

theorem confined_connectClient (mid : SemiConnectedClient) (guid : UInt64)
    (debugger : Option DebugInstrument) (serverStartTime : UInt64) :
    Confined (RouterWorld.Orderly ndebug) E (fun _ => True)
      (connectClient address mid guid debugger serverStartTime) :=
  .get_bind fun _ _ => .ite (fun _ => .pure trivial) fun _ => .bind confined_routerTime fun _ _ =>
    .modify fun _ hrw => ⟨hrw.ample, AllEntries.insert hrw.clients (allEntries_empty _)⟩

end Router

/-! ## The server -/

/-- The routing is orderly and the server calls itself `serverId`. -/
structure ServerWorld.Orderly (ndebug : Bool) (serverId : Option StdString) (w : ServerWorld) :
    Prop where
  routing : w.routing.Orderly ndebug
  serverId : w.this.serverId = serverId

section Server

variable {α : Type} {E : Exn → Prop} {Q : α → Prop} {b : BinaryBuffer} {w w' : ServerWorld}
  {address : IPV4Addr} {id : UInt8} {body bytes : Bytes} {size : Nat} {what : String}

/-- What is confined on the router is confined on the server. -/
theorem confined_onRouter {method : RouterM α}
    (hm : Confined (RouterWorld.Orderly ndebug) E Q method) :
    Confined (ServerWorld.Orderly ndebug serverId) E Q (onRouter method) where
  returns w a w' hw hrun := by
    cases hmethod : method.run w.routing with
    | ok a' rw =>
      cases (run_onRouter_ok hmethod).symm.trans hrun
      obtain ⟨hrw, ha⟩ := hm.returns _ _ _ hw.routing hmethod
      exact ⟨⟨hrw, hw.serverId⟩, ha⟩
    | error e rw => cases (run_onRouter_error hmethod).symm.trans hrun
  throws w e w' hw hrun := by
    cases hmethod : method.run w.routing with
    | ok a rw => cases (run_onRouter_ok hmethod).symm.trans hrun
    | error e' rw =>
      cases (run_onRouter_error hmethod).symm.trans hrun
      exact hm.throws _ _ _ hw.routing hmethod

theorem confined_modifyCompany {f : BufferCompany → BufferCompany}
    (hmax : ∀ company, (f company).blockMaxCount = company.blockMaxCount)
    (hsize : ∀ company, (f company).bufferSize = company.bufferSize) :
    Confined (ServerWorld.Orderly ndebug serverId) E (fun _ => True) (modifyCompany f) :=
  .modify fun _ hw =>
    ⟨⟨hw.routing.ample.of_company rfl (hmax _) (hsize _), hw.routing.clients⟩, hw.serverId⟩

theorem confined_serverEmit (event : Event) :
    Confined (ServerWorld.Orderly ndebug serverId) E (fun _ => True) (serverEmit event) :=
  .modify fun _ hw =>
    ⟨⟨hw.routing.ample.of_company rfl rfl rfl, hw.routing.clients⟩, hw.serverId⟩

theorem confined_serverRelease (buffer : RentedBuffer) :
    Confined (ServerWorld.Orderly ndebug serverId) E (fun _ => True) (serverRelease buffer) :=
  confined_modifyCompany (fun company => company.destroy_blockMaxCount _)
    fun company => company.destroy_bufferSize _

theorem confined_serverSendTo (bytes : Bytes) (address : IPV4Addr) (packet : PacketId) :
    Confined (ServerWorld.Orderly ndebug serverId) E (fun _ => True)
      (serverSendTo bytes address packet) :=
  .bind (Q := fun _ => True)
    (.get_bind fun _ _ => .ite (fun _ => confined_serverEmit _) fun _ => .pure trivial)
    fun _ _ => confined_serverEmit _

theorem confined_readFrom {R : BinaryBuffer → BinaryBuffer → Prop} {method : BufM α}
    (hm : Maintains InView R Defined method) (hb : b.InView) :
    Confined (ServerWorld.Orderly ndebug serverId) Defined
      (fun r => r.2.InView ∧ method.run b = .ok r.1 r.2) (readFrom b method) where
  returns w r w' hw hrun := by
    obtain ⟨hmethod, rfl⟩ := readFrom_eq_ok hrun
    have hview := (hm b hb).1
    rw [after_of_ok hmethod] at hview
    exact ⟨hw, hview, hmethod⟩
  throws w e w' hw hrun := by
    cases hmethod : method.run b with
    | ok a b' => cases (run_readFrom_ok hmethod).symm.trans hrun
    | error e' b' =>
      cases (run_readFrom_error hmethod).symm.trans hrun
      exact (hm b hb).2.2 _ _ hmethod

theorem confined_writeInto {method : BufM PUnit} (hm : Filling method) (hb : b.InView) :
    Confined (ServerWorld.Orderly ndebug serverId) Defined InView (writeInto b method) :=
  .bind (confined_readFrom hm.safely hb) fun _ hr =>
    .bind (confined_modifyCompany (fun _ => BufferCompany.keep_blockMaxCount _ _)
      fun _ => BufferCompany.keep_bufferSize _ _) fun _ _ => .pure hr.1

/-- A rented buffer is not larger than an object can be. -/
theorem confined_serverRent :
    Confined (ServerWorld.Orderly ndebug serverId) Defined
      (fun rawData => rawData.memory.length < 2 ^ 63) serverRent where
  returns w rawData w' hw hrun := by
    cases hrent : w.host.company.rent with
    | ok r =>
      cases (run_serverRent_ok hrent).symm.trans hrun
      obtain ⟨hlen, hsize⟩ := BufferCompany.rent_eq_ok hrent
      have hample : Host.Ample ndebug { w.host with company := r.2 } :=
        hw.routing.ample.of_company rfl (BufferCompany.rent_blockMaxCount hrent) hsize
      exact ⟨⟨⟨hample, hw.routing.clients⟩, hw.serverId⟩,
        hlen.trans_lt hw.routing.ample.size_lt⟩
    | error e => cases (run_serverRent_error hrent).symm.trans hrun
  throws w e w' hw hrun := by
    cases hrent : w.host.company.rent with
    | ok r => cases (run_serverRent_ok hrent).symm.trans hrun
    | error e' =>
      cases (run_serverRent_error hrent).symm.trans hrun
      exact BufferCompany.defined_of_rent_error hw.routing.ample.blocks hrent

/-! ### The messages -/

/-- What has been received can be read. -/
theorem Received.inView (hb : Received b bytes size) (hsize : size < 2 ^ 63) : b.InView := by
  refine ⟨hb.start.trans_le (Nat.zero_le _), ?_⟩
  have heq := hb.size_eq
  show b.bytes.length < 2 ^ 63
  omega

/-- Behind the id, the datagram can be read, and once it is cleared it can be written over. -/
theorem Received.inView_between (hb : Received b (id :: body) size) (hsize : size < 2 ^ 63) :
    (b.between [id] body).InView ∧ (b.between [id] body).clear.InView := by
  have heq := hb.size_eq
  rw [hb.bytes_eq] at heq
  refine ⟨⟨?_, ?_⟩, Nat.zero_le _, ?_⟩
  · rw [between_size]
    exact Nat.le_add_right _ _
  · show (id :: body).length < 2 ^ 63
    omega
  · show (id :: body ++ b.beyond).length < 2 ^ 63
    rw [List.length_append]
    omega

/-- A ping is undefined as long as the server has no id. -/
theorem confined_unconnectedPing (hb : Received b (id :: body) size) (hsize : size < 2 ^ 63)
    (address : IPV4Addr) :
    Confined (ServerWorld.Orderly ndebug serverId)
      (Only fun what => serverId = none ∧ 32 ≤ body.length ∧
        what = "dereference of a null pointer")
      (fun _ => True) (unconnectedPing (b.between [id] body) address) := by
  obtain ⟨hview, hclear⟩ := hb.inView_between hsize
  refine .bind ((confined_readFrom (reading_readNext _).safely hview).mono (fun _ h => h)
    fun _ => Only.of_defined) fun r hr => .get_bind fun w hw => ?_
  have hlong : 32 ≤ body.length :=
    length_of_succeeds_readNext (show 1 + 32 ≤ 2 ^ 64 by decide) (succeeds_of_ok hr.2)
  obtain ⟨ping, b'⟩ := r
  rw [← clear_of_readNext hr.2] at hclear
  dsimp only at hclear ⊢
  split
  · next hnone =>
    refine .throw ?_
    rintro what ⟨⟩
    exact ⟨hw.serverId.symm.trans hnone, hlong, rfl⟩
  · refine Confined.mono (E := Defined) ?_ (fun _ h => h) fun _ => Only.of_defined
    refine .bind (confined_onRouter confined_routerTime) fun _ _ => ?_
    refine .get_bind  fun _ _ => ?_
    refine .bind (confined_writeInto (filling_write _) hclear) fun _ _ => ?_
    refine .bind (confined_serverSendTo _ _ _) fun _ _ => ?_
    exact .pure trivial

theorem confined_openConnectionRequest1 (hb : Received b (id :: body) size) (hsize : size < 2 ^ 63)
    (address : IPV4Addr) :
    Confined (ServerWorld.Orderly ndebug serverId) Defined (fun _ => True)
      (openConnectionRequest1 (b.between [id] body) address) := by
  obtain ⟨hview, hclear⟩ := hb.inView_between hsize
  refine .bind (confined_readFrom (reading_readNext _).safely hview) fun r hr =>
    .get_bind fun w _ => ?_
  obtain ⟨ocr, b'⟩ := r
  rw [← clear_of_readNext hr.2] at hclear
  refine .bind (confined_writeInto (filling_replyOne _ _) hclear) fun _ _ => ?_
  refine .bind (confined_serverSendTo _ _ _) fun _ _ => ?_
  refine .bind (confined_onRouter confined_routerTime) fun _ _ => ?_
  refine .bind (Q := fun _ => True) (.modify fun _ hw => ?_) fun _ _ => .pure trivial
  exact ⟨⟨hw.routing.ample, hw.routing.clients⟩, hw.serverId⟩

theorem confined_openConnectionRequest2 (hb : Received b (id :: body) size) (hsize : size < 2 ^ 63)
    (address : IPV4Addr) :
    Confined (ServerWorld.Orderly ndebug serverId) Defined (fun _ => True)
      (openConnectionRequest2 (b.between [id] body) address) := by
  obtain ⟨hview, hclear⟩ := hb.inView_between hsize
  refine .bind (confined_readFrom (reading_readNext _).safely hview) fun r hr =>
    .get_bind fun w _ => ?_
  obtain ⟨ocr2, b'⟩ := r
  rw [← clear_of_readNext hr.2] at hclear
  dsimp only at hclear ⊢
  split
  · exact .pure trivial
  · refine .bind (confined_onRouter (confined_connectClient _ _ _ _)) fun _ _ => ?_
    refine .bind (confined_writeInto (filling_write _) hclear) fun _ _ => ?_
    refine .bind (confined_serverSendTo _ _ _) fun _ _ => ?_
    exact .pure trivial

/-- The pointer that a ping follows. -/
abbrev BreaksPing (serverId : Option StdString) (bytes : Bytes) (what : String) : Prop :=
  serverId = none ∧ bytes[0]? = some PacketId.unconnectedPing1.toUnderlying ∧ 33 ≤ bytes.length ∧
    what = "dereference of a null pointer"

/-- Handling a datagram breaks on a ping to a server without a name only. -/
theorem confined_handlePacket (hb : Received b (id :: body) size) (hsize : size < 2 ^ 63)
    (address : IPV4Addr) :
    Confined (ServerWorld.Orderly ndebug serverId) (Only (BreaksPing serverId (id :: body)))
      (fun _ => True) (handlePacket b address) := by
  have heq : handlePacket b address = _ := funext fun w => hb.run_handlePacket address
  rw [heq]
  split
  · next hid =>
    refine .bind ((confined_unconnectedPing hb hsize address).mono (fun _ h => h) fun e he =>
      he.mono ?_) fun _ _ => .pure trivial
    rintro what ⟨hnone, hlong, rfl⟩
    exact ⟨hnone, congrArg some (PacketId.ofByte_eq_some.mp hid), Nat.succ_le_succ hlong, rfl⟩
  · exact .bind ((confined_openConnectionRequest1 hb hsize address).mono (fun _ h => h)
      fun _ => Only.of_defined) fun _ _ => .pure trivial
  · exact .bind ((confined_openConnectionRequest2 hb hsize address).mono (fun _ h => h)
      fun _ => Only.of_defined) fun _ _ => .pure trivial
  · exact .pure trivial

/-! ### The rounds -/

theorem confined_nextDatagram (arrival : Arrival) :
    Confined (ServerWorld.Orderly ndebug serverId) Defined
      (fun r => ∀ x ∈ r, ∃ bytes size, Received x.1 bytes size ∧ size < 2 ^ 63)
      (nextDatagram arrival) := by
  refine .bind confined_serverRent fun rawData hraw => ?_
  cases arrival with
  | failed errorCode =>
    refine .bind (Q := fun r => r = (rawData, .error errorCode)) (.pure rfl) ?_
    rintro _ rfl
    dsimp only
    exact .ite (fun _ => .bind (confined_serverRelease _) fun _ _ => .pure nofun) fun _ =>
      .throw nofun
  | datagram bytes address =>
    refine .bind (Q := fun r => r = (rawData.filled bytes,
      if rawData.memory.length < bytes.length then .error wsaEMsgSize
      else .ok (bytes.length, address))) ?_ ?_
    · exact .bind (confined_modifyCompany (fun _ => BufferCompany.keep_blockMaxCount _ _)
        fun _ => BufferCompany.keep_bufferSize _ _) fun _ _ => .pure rfl
    rintro _ rfl
    by_cases hlen : rawData.memory.length < bytes.length
    · rw [if_pos hlen]
      dsimp only
      exact .ite (fun _ => .bind (confined_serverRelease _) fun _ _ => .pure nofun) fun _ =>
        .throw nofun
    · rw [if_neg hlen]
      dsimp only
      refine .ite (fun _ => .bind (confined_serverRelease _) fun _ _ => .pure nofun) fun hempty => ?_
      rw [RentedBuffer.filled, ofRentedLimit_received (Nat.le_of_not_lt hlen)]
      refine .pure ?_
      rintro _ ⟨⟩
      refine ⟨bytes, _, received_receivedInto (Nat.le_of_not_lt hlen) ?_, hraw⟩
      rintro rfl
      exact hempty (by decide)

/-- A datagram goes to the handler or to the router. -/
theorem Received.dispatch_eq (hb : Received b (id :: body) size) (address : IPV4Addr) :
    dispatch b address =
      if id ∈ trivalPackets then do
        let (handled, buffer) ← handlePacket b address
        if handled then serverRelease buffer.realBuffer
        else do
          serverEmit (.printed ("Unhandled packet: " ++ toHex (buffer.bytes.headD 0)))
          serverRelease buffer.realBuffer
      else onRouter (route address b) := by
  funext w
  refine (run_bind_of_ok hb.run_isTrivialPacket).trans ?_
  by_cases hid : id ∈ trivalPackets
  · rw [if_pos (decide_eq_true hid), if_pos hid]
    rfl
  · rw [if_neg (by simpa using hid), if_neg hid]
    rfl

/-- A datagram that is handled in front of the router is released. -/
theorem confined_handled (hb : Received b (id :: body) size) (hsize : size < 2 ^ 63)
    (address : IPV4Addr) :
    Confined (ServerWorld.Orderly ndebug serverId) (Only (BreaksPing serverId (id :: body)))
      (fun _ => True) (do
        let (handled, buffer) ← handlePacket b address
        if handled then serverRelease buffer.realBuffer
        else do
          serverEmit (.printed ("Unhandled packet: " ++ toHex (buffer.bytes.headD 0)))
          serverRelease buffer.realBuffer) := by
  refine .bind (confined_handlePacket hb hsize address) fun r _ => ?_
  exact .ite (fun _ => confined_serverRelease _) fun _ =>
    .bind (confined_serverEmit _) fun _ _ => confined_serverRelease _

theorem confined_dispatch (hb : Received b bytes size) (hsize : size < 2 ^ 63)
    (address : IPV4Addr) :
    Confined (ServerWorld.Orderly ndebug serverId) (fun _ => True) (fun _ => True)
      (dispatch b address) := by
  obtain ⟨id, body, rfl⟩ := List.exists_cons_of_ne_nil hb.nonempty
  rw [hb.dispatch_eq]
  exact .ite (fun _ => (confined_handled hb hsize address).mono (fun _ h => h) fun _ _ => trivial)
    fun _ => confined_onRouter (confined_route (hb.inView hsize) hb.start)

theorem confined_receive (arrival : Arrival) :
    Confined (ServerWorld.Orderly ndebug serverId) (fun _ => True) (fun _ => True)
      (RakServer.receive arrival) := by
  refine .bind ((confined_nextDatagram arrival).mono (fun _ h => h) fun _ _ => trivial)
    fun r hr => ?_
  split
  · exact .pure trivial
  · obtain ⟨bytes, size, hb, hsize⟩ := hr _ rfl
    exact confined_dispatch hb hsize _

/-- How a datagram from `address` breaks a precondition in the state `w`. -/
inductive ServerWorld.Breaks (w : ServerWorld) (address : IPV4Addr) (bytes : Bytes) :
    String → Prop
  /-- A whole ping to a server without an id. -/
  | ping {what : String} : BreaksPing w.this.serverId bytes what → Breaks w address bytes what
  /-- A frame set of a client, which is in time and not stale. -/
  | frames {client : RakroServerClient} {id : UInt8} {seq rest : Bytes} {what : String} :
      w.this.router.connectedClients.lookup address = some client →
      ¬ w.this.router.timeout < w.host.clock 0 - client.lastPacket →
      IsFrameSet { bytes } id seq rest → ¬ IsFrameSet.number seq < client.nextExpectedSeq →
      BreaksBehind w.host.ndebug rest what → Breaks w address bytes what

/-- A datagram whose dispatch is undefined breaks the server in one of the ways listed. -/
theorem breaks_of_dispatch (hw : w.routing.Orderly w.host.ndebug) (hb : Received b bytes size)
    (hsize : size < 2 ^ 63) (hrun : (dispatch b address).run w = .error (.undefined what) w') :
    w.Breaks address bytes what := by
  obtain ⟨id, body, rfl⟩ := List.exists_cons_of_ne_nil hb.nonempty
  rw [hb.dispatch_eq] at hrun
  by_cases hid : id ∈ trivalPackets
  · rw [if_pos hid] at hrun
    exact .ping ((confined_handled hb hsize address).throws w _ w' ⟨hw, rfl⟩ hrun what rfl)
  · rw [if_neg hid] at hrun
    cases hroute : (route address b).run w.routing with
    | ok u rw => cases (run_onRouter_ok hroute).symm.trans hrun
    | error e rw =>
      cases (run_onRouter_error hroute).symm.trans hrun
      obtain ⟨client, id', seq, rest, hclient, htime, hset, hstale, hbreaks⟩ :=
        breaks_of_route hw (hb.inView hsize) hb.start hroute
      exact .frames hclient htime ⟨hb.bytes_eq.symm.trans hset.bytes, rfl, hset.id, hset.length_seq⟩
        hstale hbreaks

/-- A round breaks a precondition by its datagram. -/
theorem breaks_of_receive {arrival : Arrival} (hw : w.routing.Orderly w.host.ndebug)
    (hrun : (RakServer.receive arrival).run w = .error (.undefined what) w') :
    ∃ bytes address, arrival = .datagram bytes address ∧ w.Breaks address bytes what := by
  have hconfined : Confined (ServerWorld.Orderly w.host.ndebug w.this.serverId) Defined _
      (nextDatagram arrival) := confined_nextDatagram arrival
  cases hnext : (nextDatagram arrival).run w with
  | error e w₁ =>
    cases (run_bind_of_error hnext).symm.trans hrun
    exact absurd rfl (hconfined.throws w _ w' ⟨hw, rfl⟩ hnext what)
  | ok r w₁ =>
    have hrest := (run_bind_of_ok hnext).symm.trans hrun
    have hsame := (within_nextDatagram arrival).of_run hnext
    have hw₁ := (hconfined.returns w _ w₁ ⟨hw, rfl⟩ hnext).1.routing
    have hbuild : w₁.host.ndebug = w.host.ndebug := hw₁.ample.build
    rcases nextDatagram_eq_ok hnext with ⟨rfl, -⟩ | ⟨b, bytes, address, rfl, rfl, hb⟩
    · cases hrest
    · have hbreaks := breaks_of_dispatch (hbuild ▸ hw₁) hb hw.ample.size_lt hrest
      refine ⟨bytes, address, rfl, ?_⟩
      -- the clients and the clock are what they were
      cases hbreaks with
      | ping hping => exact .ping (hsame.this ▸ hping)
      | frames hclient htime hset hstale hbehind =>
        rw [hsame.this] at hclient htime
        rw [hsame.clock] at htime
        exact .frames hclient htime hset hstale (hbuild ▸ hbehind)

/-- What returns leaves the server in order. -/
theorem orderly_step (step : ServerStep) :
    Yields (fun w : ServerWorld => w.routing.Orderly ndebug) step.run fun _ w =>
      w.routing.Orderly ndebug := by
  intro w a w' hw hrun
  cases step with
  | receive arrival => exact ((confined_receive arrival).returns w a w' ⟨hw, rfl⟩ hrun).1.routing
  | updateServerId serverId =>
    cases hrun
    exact ⟨hw.ample, hw.clients⟩

end Server

/-! ## Runs -/

section Runs

variable {config : ServerConfig} {start w : ServerWorld} {steps : List ServerStep}
  {step : ServerStep} {what : String}

/-- A server that has just started is orderly. -/
theorem orderly_of_startedWith (hblocks : 1 ≤ config.rentedBlockBufferCount)
    (hsize : config.rentedBufferSize < 2 ^ 63) (hstart : start.StartedWith config) :
    start.routing.Orderly start.host.ndebug := by
  have hconnected := hstart.started.connected
  obtain ⟨w₀, -, hcompany, hrun⟩ := hstart
  cases hrun
  refine ⟨⟨rfl, ?_, ?_⟩, ?_⟩
  · show 1 ≤ w₀.host.company.blockMaxCount
    rw [hcompany, BufferCompany.new, BufferCompany.initBlock_blockMaxCount]
    exact hblocks
  · show w₀.host.company.bufferSize < 2 ^ 63
    rw [hcompany, BufferCompany.new, BufferCompany.initBlock_bufferSize]
    exact hsize
  · show AllEntries _ w₀.this.router.connectedClients
    rw [show w₀.this.router.connectedClients = ∅ from hconnected]
    exact allEntries_empty _

/--
**A server breaks no precondition but these.** A step that does one thing undefined either follows
the pointer to an id that the server does not have, for a ping, or it is the frame set of a client
with a frame that is cut off or on a channel that does not exist.
-/
theorem breaks_of_reaches (hblocks : 1 ≤ config.rentedBlockBufferCount)
    (hsize : config.rentedBufferSize < 2 ^ 63) (hstart : start.StartedWith config)
    (hreach : Reaches ServerStep.run start steps w)
    (hthrown : thrown step.run w = some (.undefined what)) :
    ∃ bytes address, step = .receive (.datagram bytes address) ∧ w.Breaks address bytes what := by
  have hw : w.routing.Orderly start.host.ndebug :=
    hreach.holds (orderly_of_startedWith hblocks hsize hstart) orderly_step
  have hbuild : w.host.ndebug = start.host.ndebug := hw.ample.build
  obtain ⟨w', hrun⟩ := run_of_thrown hthrown
  cases step with
  | receive arrival =>
    obtain ⟨bytes, address, rfl, hbreaks⟩ := breaks_of_receive (hbuild ▸ hw) hrun
    exact ⟨bytes, address, rfl, hbreaks⟩
  | updateServerId serverId => cases hrun

end Runs

/-- A frame set whose frame announces 32 bytes and has two. -/
def cutOff : ServerStep := .receive (.datagram [0x80, 0, 0, 0, 0, 1, 0, 0, 0] {})

/-- Behind a handshake, a frame that is cut off. -/
theorem breaks_of_reaches_cutOff :
    thrown cutOff.run (afterAll ServerStep.run threeServer (handshake 6)) =
        some (.undefined "subspan past the end") ∧
      ∃ bytes address, cutOff = .receive (.datagram bytes address) ∧
        (afterAll ServerStep.run threeServer (handshake 6)).Breaks address bytes
          "subspan past the end" := by
  have hthrown : thrown cutOff.run (afterAll ServerStep.run threeServer (handshake 6)) =
      some (.undefined "subspan past the end") := by decide +kernel
  exact ⟨hthrown, breaks_of_reaches (by decide) (by decide) threeServer_started
    (reaches_of_succeeds (by decide +kernel)) hthrown⟩

/-- A ping to a server that nobody has named. -/
example : thrown (ServerStep.receive (.datagram (1 :: List.replicate 32 0) {})).run threeServer =
    some (.undefined "dereference of a null pointer") := by decide +kernel

end Rakro
