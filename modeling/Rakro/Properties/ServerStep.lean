import Rakro.Server.Server
import Rakro.Roundtrip.Unconnected
import Rakro.Properties.RouteReturns

/-!
# What a step of the server does

The server's own part of a step is the replies, which only reach the pool and the trace, and two
maps: an address that sends a first request is on its way to connect, and one on its way that sends a
second request is connected. Routing a datagram connects nobody. `StepFront` has a case for each way
that a step which returns can go.
-/

namespace Rakro

open Infra BinaryBuffer

/-! ## The replies -/

/-- The server itself and the size of its buffers stay. -/
structure SameServer (w w' : ServerWorld) : Prop where
  this : w'.this = w.this
  bufferSize : w'.host.company.bufferSize = w.host.company.bufferSize
  clock : ReadsOn w.host.clock w'.host.clock

instance : IsPreorder ServerWorld SameServer where
  refl _ := ⟨rfl, rfl, .refl _⟩
  trans _ _ _ h h' := ⟨h'.1.trans h.1, h'.2.trans h.2, h.3.trans h'.3⟩

/-- The clock has not been read. -/
structure SameTime (w w' : ServerWorld) : Prop where
  this : w'.this = w.this
  clock : w'.host.clock = w.host.clock
  bufferSize : w'.host.company.bufferSize = w.host.company.bufferSize

instance : IsPreorder ServerWorld SameTime where
  refl _ := ⟨rfl, rfl, rfl⟩
  trans _ _ _ h h' := ⟨h'.1.trans h.1, h'.2.trans h.2, h'.3.trans h.3⟩

/-- No readings are some readings. -/
theorem SameTime.sameServer {w w' : ServerWorld} (h : SameTime w w') : SameServer w w' :=
  ⟨h.this, h.bufferSize, h.clock ▸ .refl _⟩

section SameServer

variable {α : Type}

theorem within_readFrom (b : BinaryBuffer) (method : BufM α) :
    Within SameServer (readFrom b method) := by
  intro w
  unfold readFrom after EStateM.run
  cases method b <;> exact refl w

theorem within_modifyCompany {f : BufferCompany → BufferCompany}
    (h : ∀ company, (f company).bufferSize = company.bufferSize) :
    Within SameTime (modifyCompany f) := fun w => ⟨rfl, rfl, h w.host.company⟩

theorem within_writeInto (b : BinaryBuffer) (method : BufM PUnit) :
    Within SameServer (writeInto b method) :=
  Within.bind (within_readFrom b method) fun _ =>
    Within.bind ((within_modifyCompany fun company => company.keep_bufferSize _).mono
      fun _ _ => SameTime.sameServer) fun _ => Within.pure _

theorem within_serverEmit (event : Event) : Within SameServer (serverEmit event) :=
  fun _ => ⟨rfl, rfl, .refl _⟩

theorem within_serverSendTo (bytes : Bytes) (address : IPV4Addr) (packet : PacketId) :
    Within SameServer (serverSendTo bytes address packet) :=
  Within.bind
    (Within.bind Within.get fun _ => Within.ite (within_serverEmit _) (Within.pure _))
    fun _ => within_serverEmit _

theorem within_onRouter_time : Within SameServer (onRouter routerTime) :=
  fun _ => ⟨rfl, rfl, .tick _⟩

theorem within_serverRelease (buffer : RentedBuffer) : Within SameTime (serverRelease buffer) :=
  within_modifyCompany fun company => company.destroy_bufferSize buffer

theorem within_unconnectedPing (b : BinaryBuffer) (address : IPV4Addr) :
    Within SameServer (unconnectedPing b address) := by
  refine Within.bind (within_readFrom _ _) fun _ => Within.bind Within.get fun w => ?_
  split
  · exact Within.throw _
  · refine Within.bind within_onRouter_time fun _ => ?_
    refine Within.bind Within.get fun _ => ?_
    refine Within.bind (within_writeInto _ _) fun _ => ?_
    refine Within.bind (within_serverSendTo _ _ _) fun _ => ?_
    exact Within.pure _

theorem within_serverRent : Within SameTime serverRent := by
  intro w
  unfold serverRent
  rw [after_get_bind]
  cases h : w.host.company.rent with
  | ok r => exact ⟨rfl, rfl, (BufferCompany.rent_eq_ok h).2⟩
  | error e => exact refl w

/-- Receiving takes no reading. -/
theorem within_recvValue (rawData : RentedBuffer) : ∀ arrival,
    Within SameTime (recvValue rawData arrival)
  | .failed _ => Within.pure _
  | .datagram _ _ => Within.bind (within_modifyCompany fun company => company.keep_bufferSize _)
      fun _ => Within.pure _

theorem within_nextDatagram (arrival : Arrival) : Within SameTime (nextDatagram arrival) := by
  refine Within.bind within_serverRent fun _ => Within.bind (within_recvValue _ _) ?_
  rintro ⟨rawData, _ | ⟨leng, address⟩⟩
  · exact Within.ite (Within.bind (within_serverRelease _) fun _ => Within.pure _) (Within.throw _)
  · refine Within.ite (Within.bind (within_serverRelease _) fun _ => Within.pure _) ?_
    split
    · exact Within.pure _
    · exact Within.throw _

end SameServer

/-! ## The router -/

/-- The size of the buffers stays. -/
def SameSize (w w' : World) : Prop := w'.host.company.bufferSize = w.host.company.bufferSize

instance : IsPreorder World SameSize where
  refl _ := rfl
  trans _ _ _ h h' := Eq.trans h' h

/-- A datagram leaves the size of the buffers. -/
theorem sameSize_packetBound : PacketBound SameSize where
  answers _ _ h := h.bufferSize
  data _ _ := rfl
  counters _ _ _ := rfl
  taken _ _ := rfl
  stored _ _ _ _ _ _ _ _ := rfl
  called _ _ := rfl
  sliced _ _ _ _ := rfl
  advanced _ _ := rfl
  settled _ _ h := h.bufferSize

/-- No address comes to be connected, and the size of the buffers stays. -/
structure ConnectsNobody (rw rw' : RouterWorld) : Prop where
  connected : ∀ address ∈ rw'.router.connectedClients, address ∈ rw.router.connectedClients
  bufferSize : rw'.host.company.bufferSize = rw.host.company.bufferSize

/-- The client at an address is replaced by itself. -/
theorem mem_of_mem_store {rw : RouterWorld} {address address' : IPV4Addr} {w : World}
    {client : RakroServerClient}
    (hclient : rw.router.connectedClients.lookup address = some client)
    (h : address' ∈ (rw.store address w).router.connectedClients) :
    address' ∈ rw.router.connectedClients := by
  rcases (AList.mem_insert _).mp h with rfl | h
  · rw [← AList.lookup_isSome, hclient]
    rfl
  · exact h

/-- A datagram of a client connects nobody. -/
theorem within_route (address : IPV4Addr) {b : BinaryBuffer} (hstart : b.index = 0) :
    Within ConnectsNobody (route address b) := by
  intro rw
  cases routeFront address b rw with
  | unknown _ hroute hrouter hsize =>
    rw [after_of_ok hroute]
    exact ⟨fun _ h => hrouter ▸ h, hsize⟩
  | timeout _ _ hroute herase hsize =>
    rw [after_of_ok hroute]
    refine ⟨fun address' h => ?_, hsize⟩
    rw [herase] at h
    exact (AList.mem_erase.mp h).2
  | @returned client w hclient _ hpacket hroute =>
    have hsize := sameSize_packetBound.within_processPacket hstart (rw.entered client)
    rw [after_of_ok hpacket] at hsize
    rw [after_of_ok hroute]
    exact ⟨fun _ => mem_of_mem_store hclient, hsize⟩
  | @threw client e w hclient _ hpacket hroute =>
    have hsize := sameSize_packetBound.within_processPacket hstart (rw.entered client)
    rw [after_of_error hpacket] at hsize
    rw [after_of_error hroute]
    exact ⟨fun _ => mem_of_mem_store hclient, hsize⟩

/-- `connect_client` never throws, and leaves the address connected. -/
theorem run_connectClient (address : IPV4Addr) (client : SemiConnectedClient) (guid : UInt64)
    (debugger : Option DebugInstrument) (serverStartTime : UInt64) (rw : RouterWorld) :
    ∃ rw', (connectClient address client guid debugger serverStartTime).run rw = .ok ⟨⟩ rw' ∧
      rw'.host.company = rw.host.company ∧
      ∀ address', address' ∈ rw'.router.connectedClients ↔
        address' = address ∨ address' ∈ rw.router.connectedClients := by
  by_cases hmem : address ∈ rw.router.connectedClients
  · refine ⟨rw, run_connectClient_known hmem, rfl, fun address' => ⟨.inr, ?_⟩⟩
    rintro (rfl | h)
    · exact hmem
    · exact h
  · exact ⟨_, run_connectClient_new hmem, rfl, fun address' => AList.mem_insert _⟩

/-! ## The datagram of a round -/

/-- A buffer of the pool, of `size` bytes, into which a datagram has been received. -/
structure Received (b : BinaryBuffer) (bytes : Bytes) (size : Nat) : Prop where
  bytes_eq : b.bytes = bytes
  start : b.index = 0
  size_eq : b.bytes.length + b.beyond.length = size
  nonempty : bytes ≠ []

section Rent

variable {w : ServerWorld}

theorem run_serverRent_ok {rented : RentedBuffer} {company : BufferCompany}
    (h : w.host.company.rent = .ok (rented, company)) : serverRent.run w =
      .ok rented { w with host := { w.host with company := company } } := by
  unfold serverRent
  rw [run_get_bind, h]
  rfl

theorem run_serverRent_error {e : Exn} (h : w.host.company.rent = .error e) :
    serverRent.run w = .error e w := by
  unfold serverRent
  rw [run_get_bind, h]
  rfl

end Rent

/-- A rented buffer has the size of the pool's buffers. -/
theorem serverRent_eq_ok {w w' : ServerWorld} {rawData : RentedBuffer}
    (h : serverRent.run w = .ok rawData w') :
    rawData.memory.length = w.host.company.bufferSize := by
  cases hrent : w.host.company.rent with
  | ok r =>
    cases (run_serverRent_ok hrent).symm.trans h
    exact (BufferCompany.rent_eq_ok hrent).1
  | error e => cases (run_serverRent_error hrent).symm.trans h

/-- The buffer that a datagram of the right length is received into. -/
def receivedInto (rawData : RentedBuffer) (bytes : Bytes) : BinaryBuffer where
  bytes := bytes
  beyond := rawData.memory.drop bytes.length
  home := rawData.home
  owner := rawData.owner

/-- What has been received is in front of the buffer. -/
theorem received_receivedInto {rawData : RentedBuffer} {bytes : Bytes}
    (hlen : bytes.length ≤ rawData.memory.length) (hne : bytes ≠ []) :
    Received (receivedInto rawData bytes) bytes rawData.memory.length where
  bytes_eq := rfl
  start := rfl
  size_eq := by
    show bytes.length + (rawData.memory.drop bytes.length).length = _
    rw [List.length_drop]
    omega
  nonempty := hne

/-- The view over what has been received is limited to it. -/
theorem ofRentedLimit_received {rawData : RentedBuffer} {bytes : Bytes}
    (hlen : bytes.length ≤ rawData.memory.length) :
    BinaryBuffer.ofRentedLimit
        { rawData with
          memory := bytes.take rawData.memory.length ++ rawData.memory.drop bytes.length }
        bytes.length = .ok (receivedInto rawData bytes) := by
  unfold ofRentedLimit receivedInto
  rw [List.take_of_length_le hlen, if_pos (by simp), List.take_left, List.drop_left]

/-- A datagram that fits into a buffer is what the round goes on with, unless it is empty. -/
theorem nextDatagram_eq_ok {arrival : Arrival} {w w' : ServerWorld}
    {r : Option (BinaryBuffer × IPV4Addr)} (h : (nextDatagram arrival).run w = .ok r w') :
    (r = none ∧ ∀ bytes address, arrival = .datagram bytes address →
        bytes.length ≤ w.host.company.bufferSize → bytes = []) ∨
      ∃ b bytes address, r = some (b, address) ∧ arrival = .datagram bytes address ∧
        Received b bytes w.host.company.bufferSize := by
  obtain ⟨rawData, w₁, hrent, h⟩ := bind_eq_ok h
  rw [← serverRent_eq_ok hrent]
  cases arrival with
  | failed errorCode =>
    refine .inl ⟨?_, fun bytes address h => by cases h⟩
    obtain ⟨_, _, hrecv, h⟩ := bind_eq_ok h
    cases hrecv
    dsimp only at h
    split at h
    · cases h
      rfl
    · cases h
  | datagram bytes address =>
    obtain ⟨_, w₂, hrecv, h⟩ := bind_eq_ok h
    obtain ⟨_, w₃, -, hrecv⟩ := bind_eq_ok hrecv
    cases hrecv
    by_cases hlen : rawData.memory.length < bytes.length
    · rw [if_pos hlen] at h
      dsimp only at h
      rw [if_pos (.inl rfl)] at h
      cases h
      refine .inl ⟨rfl, ?_⟩
      rintro _ _ ⟨⟩ hle
      omega
    · rw [if_neg hlen] at h
      dsimp only at h
      split at h
      · next hempty =>
        cases h
        refine .inl ⟨rfl, ?_⟩
        rintro _ _ ⟨⟩ -
        exact List.length_eq_zero_iff.mp (by omega)
      · next hempty =>
        rw [ofRentedLimit_received (by omega)] at h
        cases h
        exact .inr ⟨_, bytes, address, rfl, rfl, received_receivedInto (by omega) (by
          rintro rfl
          exact hempty Nat.zero_lt_one)⟩

/-! ## The messages of an address that connects -/

section Messages

variable {α : Type} {w w' : ServerWorld} {b b' : BinaryBuffer} {address : IPV4Addr}

/-- A reader changes the buffer and nothing else. -/
theorem readFrom_eq_ok {method : BufM α} {r : α × BinaryBuffer}
    (h : (readFrom b method).run w = .ok r w') : method.run b = .ok r.1 r.2 ∧ w = w' := by
  unfold readFrom EStateM.run at h
  cases hm : method b with
  | ok a b' =>
    rw [hm] at h
    cases h
    exact ⟨hm, rfl⟩
  | error e b' =>
    rw [hm] at h
    cases h

theorem run_readFrom_ok {method : BufM α} {a : α} (h : method.run b = .ok a b') :
    (readFrom b method).run w = .ok (a, b') w := by
  unfold readFrom EStateM.run at *
  rw [h]

theorem run_onRouter_ok {method : RouterM α} {a : α} {rw : RouterWorld}
    (h : method.run { router := w.this.router, host := w.host } = .ok a rw) :
    (onRouter method).run w =
      .ok a { this := { w.this with router := rw.router }, host := rw.host } := by
  unfold onRouter EStateM.run at *
  dsimp only
  rw [h]

theorem run_onRouter_error {method : RouterM α} {e : Exn} {rw : RouterWorld}
    (h : method.run { router := w.this.router, host := w.host } = .error e rw) :
    (onRouter method).run w =
      .error e { this := { w.this with router := rw.router }, host := rw.host } := by
  unfold onRouter EStateM.run at *
  dsimp only
  rw [h]

end Messages

/-! ## What the requests say -/

/-- The second request in a datagram, as the server reads it. -/
def OpenConnectionRequest2.decode (bytes : Bytes) : Option OpenConnectionRequest2 :=
  match (readNext OpenConnectionRequest2).run { bytes, index := 1 } with
  | .ok request _ => some request
  | .error _ _ => none

section Requests

variable {b b' : BinaryBuffer} {id : UInt8} {body : Bytes}

/-- What is read does not depend on the memory around the datagram. -/
theorem decode_eq_some {request : OpenConnectionRequest2}
    (h : (readNext OpenConnectionRequest2).run (b.between [id] body) = .ok request b') :
    OpenConnectionRequest2.decode (id :: body) = some request := by
  have hlong : 33 ≤ body.length :=
    length_of_succeeds_readNext (show 1 + 33 ≤ 2 ^ 64 by decide) ⟨_, _, h⟩
  have htag := tag_of_succeeds_readRequest2 hlong ⟨_, _, h⟩
  obtain ⟨bs, tag, rest, hbs, hrest, rfl, htag'⟩ := exists_tag hlong
  obtain rfl : tag = 4 := Option.some.inj (htag'.symm.trans htag)
  obtain ⟨x, rest, rfl⟩ := List.exists_cons_of_length_pos (l := rest) (by omega)
  rw [List.length_cons] at hrest
  rw [run_readRequest2 b [id] x hbs (by omega)] at h
  have hbare := run_readRequest2 {} [id] x hbs (show 15 ≤ rest.length by omega)
  injection h with hrequest
  unfold OpenConnectionRequest2.decode
  rw [← hrequest, show ({ bytes := id :: (bs ++ 4 :: x :: rest), index := 1 } : BinaryBuffer) =
    ({} : BinaryBuffer).between [id] (bs ++ 4 :: x :: rest) from rfl, hbare]

/-- The MTU of a first request is the length of its datagram. -/
theorem mtu_of_readRequest1 {request : OpenConnectionRequest1}
    (h : (readNext OpenConnectionRequest1).run (b.between [id] body) = .ok request b') :
    request.mtu = .ofNat (id :: body).length := by
  have hlong : 100 ≤ body.length :=
    length_of_succeeds_readNext (show 1 + 100 ≤ 2 ^ 64 by decide) ⟨_, _, h⟩
  obtain ⟨bs, r, hbs, rfl⟩ := exists_split (n := 16) (r := body) (by omega)
  rw [List.length_append] at hlong
  obtain ⟨version, rest, rfl⟩ := List.exists_cons_of_length_pos (l := r) (by omega)
  rw [List.length_cons] at hlong
  rw [run_readRequest1 b [id] version hbs (by omega)] at h
  injection h with hrequest
  rw [← hrequest]
  rfl

end Requests

/-! ## Steps -/

namespace ServerStep

/-- The step brings the datagram `bytes` from `address`, and a buffer of `size` bytes holds it. -/
def Brings (step : ServerStep) (size : Nat) (address : IPV4Addr) (bytes : Bytes) : Prop :=
  step = .receive (.datagram bytes address) ∧ bytes.length ≤ size

/-- It brings a first request, for the version `version`. -/
def RequestsFirst (step : ServerStep) (size : Nat) (version : UInt8) (address : IPV4Addr) : Prop :=
  ∃ bytes, step.Brings size address bytes ∧
    bytes[0]? = some PacketId.openConnectionRequest1.toUnderlying ∧ bytes[17]? = some version

/-- It brings what the server takes for a first request. -/
def SendsFirst (step : ServerStep) (size : Nat) (address : IPV4Addr) : Prop :=
  ∃ bytes, step.Brings size address bytes ∧
    bytes[0]? = some PacketId.openConnectionRequest1.toUnderlying

/-- A first request in the server's version is a first request. -/
theorem RequestsFirst.sends {step : ServerStep} {size : Nat} {version : UInt8}
    {address : IPV4Addr} (h : step.RequestsFirst size version address) :
    step.SendsFirst size address := by
  obtain ⟨bytes, hbrings, hid, -⟩ := h
  exact ⟨bytes, hbrings, hid⟩

/-- It brings a second request. -/
def RequestsSecond (step : ServerStep) (size : Nat) (address : IPV4Addr) : Prop :=
  ∃ bytes, step.Brings size address bytes ∧
    bytes[0]? = some PacketId.openConnectionRequest2.toUnderlying

end ServerStep

section Datagram

variable {id : UInt8} {body : Bytes} {address : IPV4Addr} {size : Nat}

/-- What a received datagram requests is a matter of its first byte. -/
theorem brings_iff (hlen : (id :: body).length ≤ size) (address' : IPV4Addr) (requested : UInt8) :
    (∃ bytes, (ServerStep.receive (.datagram (id :: body) address)).Brings size address' bytes ∧
      bytes[0]? = some requested) ↔ address' = address ∧ id = requested := by
  constructor
  · rintro ⟨bytes, ⟨⟨⟩, -⟩, hid⟩
    exact ⟨rfl, Option.some.inj hid⟩
  · rintro ⟨rfl, rfl⟩
    exact ⟨_, ⟨rfl, hlen⟩, rfl⟩

/-- Who sends a first request is told by the sender and the id. -/
theorem sendsFirst_iff (hlen : (id :: body).length ≤ size) (address' : IPV4Addr) :
    (ServerStep.receive (.datagram (id :: body) address)).SendsFirst size address' ↔
      address' = address ∧ id = PacketId.openConnectionRequest1.toUnderlying :=
  brings_iff hlen address' _

theorem requestsSecond_iff (hlen : (id :: body).length ≤ size) (address' : IPV4Addr) :
    (ServerStep.receive (.datagram (id :: body) address)).RequestsSecond size address' ↔
      address' = address ∧ id = PacketId.openConnectionRequest2.toUnderlying :=
  brings_iff hlen address' _

/-- A datagram with another id is no request. -/
theorem not_sendsFirst (hid : PacketId.ofByte id ≠ some .openConnectionRequest1)
    (hlen : (id :: body).length ≤ size) (address' : IPV4Addr) :
    ¬ (ServerStep.receive (.datagram (id :: body) address)).SendsFirst size address' := by
  intro hrequest
  exact hid (PacketId.ofByte_eq_some.mpr ((sendsFirst_iff hlen _).mp hrequest).2)

theorem not_requestsSecond (hid : PacketId.ofByte id ≠ some .openConnectionRequest2)
    (hlen : (id :: body).length ≤ size) (address' : IPV4Addr) :
    ¬ (ServerStep.receive (.datagram (id :: body) address)).RequestsSecond size address' := by
  intro hrequest
  exact hid (PacketId.ofByte_eq_some.mpr ((requestsSecond_iff hlen _).mp hrequest).2)

end Datagram

section Received

variable {w w' : ServerWorld} {b : BinaryBuffer} {id : UInt8} {body : Bytes} {size : Nat}

/-- What has been received is its bytes and nothing more. -/
theorem Received.eq_between (hb : Received b (id :: body) size) : b = b.between [] (id :: body) :=
  eq_between_start hb.start hb.bytes_eq

theorem Received.length_le (hb : Received b (id :: body) size) : (id :: body).length ≤ size := by
  rw [← hb.bytes_eq, ← hb.size_eq]
  omega

/-- Behind the id byte, the message. -/
theorem Received.readId (hb : Received b (id :: body) size) :
    (readNext UInt8).run b = .ok id (b.between [id] body) := by
  have h := consumes_uint8 id b [] body
  rwa [List.singleton_append, ← hb.eq_between] at h

/-- A datagram is handled by its id. -/
theorem Received.run_handlePacket (hb : Received b (id :: body) size) (address : IPV4Addr) :
    (handlePacket b address).run w =
      (match PacketId.ofByte id with
        | some .unconnectedPing1 => do return (true, ← unconnectedPing (b.between [id] body) address)
        | some .openConnectionRequest1 => do
          return (true, ← openConnectionRequest1 (b.between [id] body) address)
        | some .openConnectionRequest2 => do
          return (true, ← openConnectionRequest2 (b.between [id] body) address)
        | _ => return (false, b.between [id] body) : ServerM (Bool × BinaryBuffer)).run w :=
  run_bind_of_ok (run_readFrom_ok hb.readId)

/-- The id is peeked at. -/
theorem Received.run_isTrivialPacket (hb : Received b (id :: body) size) :
    (isTrivialPacket b).run w = .ok (decide (id ∈ trivalPackets)) w :=
  run_bind_of_ok (run_readFrom_ok (run_peekId hb.start hb.bytes_eq))

end Received

/-! ## What a step has done -/

/-- The server as its router sees it. -/
def ServerWorld.routing (w : ServerWorld) : RouterWorld where
  router := w.this.router
  host := w.host

/-- The size of the buffers stays, and the clock goes on. -/
structure Host.Continues (host host' : Host) : Prop where
  bufferSize : host'.company.bufferSize = host.company.bufferSize
  clock : ReadsOn host.clock host'.clock

theorem Host.Continues.trans {host host' host'' : Host} (h : host.Continues host')
    (h' : host'.Continues host'') : host.Continues host'' :=
  ⟨h'.bufferSize.trans h.bufferSize, h.clock.trans h'.clock⟩

/-- Where the server stays, the host goes on. -/
theorem SameServer.continues {w w' : ServerWorld} (h : SameServer w w') :
    w.host.Continues w'.host := ⟨h.bufferSize, h.clock⟩

/-- What a step that returns has done. -/
inductive StepFront (step : ServerStep) (w w' : ServerWorld) : Prop
  | quiet (serverId : Option StdString) :
      (∀ address, ¬ step.SendsFirst w.host.company.bufferSize address) →
      (∀ address ∈ w.this.midConnectionClients,
        ¬ step.RequestsSecond w.host.company.bufferSize address) →
      w'.this = { w.this with serverId } → w.host.Continues w'.host → StepFront step w w'
  | first {bytes : Bytes} {address : IPV4Addr} (time : UInt64) :
      step.Brings w.host.company.bufferSize address bytes →
      bytes[0]? = some PacketId.openConnectionRequest1.toUnderlying → 101 ≤ bytes.length →
      w'.this = { w.this with
        midConnectionClients := w.this.midConnectionClients.insert address
          { connectionTime := time, mtu := .ofNat bytes.length } } →
      w.host.Continues w'.host → StepFront step w w'
  | second {bytes : Bytes} {address : IPV4Addr} {request : OpenConnectionRequest2}
      {mid : SemiConnectedClient} {w₁ : ServerWorld} {rw : RouterWorld} :
      step.Brings w.host.company.bufferSize address bytes →
      bytes[0]? = some PacketId.openConnectionRequest2.toUnderlying →
      OpenConnectionRequest2.decode bytes = some request →
      w.this.midConnectionClients.lookup address = some mid → SameTime w w₁ →
      (connectClient address mid request.clientGuid w.this.instrument w.this.serverStartTime).run
        w₁.routing = .ok ⟨⟩ rw →
      w'.this = { w.this with router := rw.router } → rw.host.Continues w'.host →
      StepFront step w w'
  | routed {bytes : Bytes} {address : IPV4Addr} {b : BinaryBuffer} {w₁ : ServerWorld}
      {rw : RouterWorld} :
      step.Brings w.host.company.bufferSize address bytes →
      (∀ id ∈ bytes[0]?, id ∉ trivalPackets) → b.index = 0 → b.bytes = bytes → SameTime w w₁ →
      (route address b).run w₁.routing = .ok ⟨⟩ rw →
      w'.this = { w.this with router := rw.router } → rw.host.Continues w'.host →
      StepFront step w w'

section StepFront

variable {w w' : ServerWorld} {b b' : BinaryBuffer} {id : UInt8} {body : Bytes}
  {address : IPV4Addr}

/-- What comes before and behind a step. -/
theorem StepFront.of_same {step : ServerStep} {w₁ w₂ : ServerWorld} (hbefore : SameTime w w₁)
    (h : StepFront step w₁ w₂) (hbehind : SameServer w₂ w') : StepFront step w w' := by
  have hsame : w.host.Continues w₁.host := hbefore.sameServer.continues
  cases h with
  | quiet serverId hfirst hsecond hthis hhost =>
    rw [hbefore.this] at hsecond hthis
    rw [hbefore.bufferSize] at hfirst hsecond
    exact .quiet serverId hfirst hsecond (hbehind.this.trans hthis)
      ((hsame.trans hhost).trans hbehind.continues)
  | first time hbrings hid hlong hthis hhost =>
    rw [hbefore.this] at hthis
    rw [hbefore.bufferSize] at hbrings
    exact .first time hbrings hid hlong (hbehind.this.trans hthis)
      ((hsame.trans hhost).trans hbehind.continues)
  | second hbrings hid hdecode hmid htime hrun hthis hhost =>
    rw [hbefore.this] at hmid hrun hthis
    rw [hbefore.bufferSize] at hbrings
    exact .second hbrings hid hdecode hmid (IsTrans.trans _ _ _ hbefore htime) hrun
      (hbehind.this.trans hthis) (hhost.trans hbehind.continues)
  | routed hbrings hid hstart hbytes htime hrun hthis hhost =>
    rw [hbefore.this] at hthis
    rw [hbefore.bufferSize] at hbrings
    exact .routed hbrings hid hstart hbytes (IsTrans.trans _ _ _ hbefore htime) hrun
      (hbehind.this.trans hthis) (hhost.trans hbehind.continues)

/-- A first request that is answered puts its address on the way. -/
theorem stepFront_request1 (hb : Received b (id :: body) w.host.company.bufferSize)
    (hid : PacketId.ofByte id = some .openConnectionRequest1)
    (h : (openConnectionRequest1 (b.between [id] body) address).run w = .ok b' w') :
    StepFront (.receive (.datagram (id :: body) address)) w w' := by
  obtain ⟨⟨ocr, b₁⟩, w₁, hread, h⟩ := bind_eq_ok h
  obtain ⟨hocr, rfl⟩ := readFrom_eq_ok hread
  have hlong : 100 ≤ body.length :=
    length_of_succeeds_readNext (show 1 + 100 ≤ 2 ^ 64 by decide) ⟨_, _, hocr⟩
  obtain ⟨_, _, hget, h⟩ := bind_eq_ok h
  cases hget
  obtain ⟨b₂, w₂, hwrite, h⟩ := bind_eq_ok h
  obtain ⟨_, w₃, hsend, h⟩ := bind_eq_ok h
  obtain ⟨time, w₄, htime, h⟩ := bind_eq_ok h
  have hsame : SameServer w w₄ := IsTrans.trans _ _ _ ((within_writeInto _ _).of_run hwrite)
    (IsTrans.trans _ _ _ ((within_serverSendTo _ _ _).of_run hsend)
      (within_onRouter_time.of_run htime))
  cases h
  refine .first time ⟨rfl, hb.length_le⟩ (by rw [PacketId.ofByte_eq_some.mp hid]; rfl) ?_ ?_
    hsame.continues
  · rw [List.length_cons]
    omega
  · rw [← hsame.this, ← mtu_of_readRequest1 hocr]

/-- A second request connects its address if that is on the way. -/
theorem stepFront_request2 (hb : Received b (id :: body) w.host.company.bufferSize)
    (hid : PacketId.ofByte id = some .openConnectionRequest2)
    (h : (openConnectionRequest2 (b.between [id] body) address).run w = .ok b' w') :
    StepFront (.receive (.datagram (id :: body) address)) w w' := by
  obtain ⟨⟨request, b₁⟩, w₁, hread, h⟩ := bind_eq_ok h
  obtain ⟨hrequest, rfl⟩ := readFrom_eq_ok hread
  obtain ⟨_, _, hget, h⟩ := bind_eq_ok h
  cases hget
  dsimp only at h
  cases hmid : w.this.midConnectionClients.lookup address with
  | none =>
    rw [hmid] at h
    cases h
    refine .quiet _ (not_sendsFirst (by rw [hid]; decide) hb.length_le)
      (fun address' hmem hsecond => ?_) rfl ⟨rfl, .refl _⟩
    obtain ⟨rfl, -⟩ := (requestsSecond_iff hb.length_le _).mp hsecond
    exact AList.lookup_eq_none.mp hmid hmem
  | some mid =>
    rw [hmid] at h
    obtain ⟨_, w₁, hconnect, h⟩ := bind_eq_ok h
    obtain ⟨b₂, w₂, hwrite, h⟩ := bind_eq_ok h
    obtain ⟨_, w₃, hsend, h⟩ := bind_eq_ok h
    cases h
    have hsame : SameServer w₁ w' := IsTrans.trans _ _ _ ((within_writeInto _ _).of_run hwrite)
      ((within_serverSendTo _ _ _).of_run hsend)
    obtain ⟨rw', hrun, -, -⟩ := run_connectClient address mid request.clientGuid
      w.this.instrument w.this.serverStartTime w.routing
    cases hconnect.symm.trans (run_onRouter_ok hrun)
    exact .second ⟨rfl, hb.length_le⟩ (by rw [PacketId.ofByte_eq_some.mp hid]; rfl)
      (decode_eq_some hrequest) hmid (refl w) hrun hsame.this hsame.continues

/-- What handling a datagram does to the tables. -/
theorem stepFront_handlePacket (hb : Received b (id :: body) w.host.company.bufferSize)
    {r : Bool × BinaryBuffer} (h : (handlePacket b address).run w = .ok r w') :
    StepFront (.receive (.datagram (id :: body) address)) w w' := by
  rw [hb.run_handlePacket] at h
  split at h
  · next hid =>
    obtain ⟨b', w₁, hping, h⟩ := bind_eq_ok h
    cases h
    have hsame := (within_unconnectedPing _ _).of_run hping
    exact .quiet _ (not_sendsFirst (by rw [hid]; decide) hb.length_le)
      (fun address' _ => not_requestsSecond (by rw [hid]; decide) hb.length_le address')
      hsame.this hsame.continues
  · next hid =>
    obtain ⟨b', w₁, hrequest, h⟩ := bind_eq_ok h
    cases h
    exact stepFront_request1 hb hid hrequest
  · next hid =>
    obtain ⟨b', w₁, hrequest, h⟩ := bind_eq_ok h
    cases h
    exact stepFront_request2 hb hid hrequest
  · next hping hfirst hsecond =>
    cases h
    exact .quiet _ (not_sendsFirst hfirst hb.length_le)
      (fun address' _ => not_requestsSecond hsecond hb.length_le address') rfl ⟨rfl, .refl _⟩

/-- What dispatching one does to them. -/
theorem stepFront_dispatch (hb : Received b (id :: body) w.host.company.bufferSize)
    (h : (dispatch b address).run w = .ok ⟨⟩ w') :
    StepFront (.receive (.datagram (id :: body) address)) w w' := by
  have hrun := (run_bind_of_ok hb.run_isTrivialPacket).symm.trans h
  by_cases hid : id ∈ trivalPackets
  · rw [if_pos (decide_eq_true hid)] at hrun
    obtain ⟨r, w₁, hhandle, hrest⟩ := bind_eq_ok hrun
    have hrelease : ∀ buffer, Within SameServer (serverRelease buffer) := fun buffer =>
      (within_serverRelease buffer).mono fun _ _ => SameTime.sameServer
    have hbehind : SameServer w₁ w' := by
      refine Within.of_run ?_ hrest
      exact Within.ite (hrelease _) (Within.bind (within_serverEmit _) fun _ => hrelease _)
    exact .of_same (refl w) (stepFront_handlePacket hb hhandle) hbehind
  · rw [if_neg (by simpa using hid)] at hrun
    cases hroute : (route address b).run w.routing with
    | error e rw => cases (run_onRouter_error hroute).symm.trans hrun
    | ok u rw =>
      cases (run_onRouter_ok hroute).symm.trans hrun
      exact .routed ⟨rfl, hb.length_le⟩ (by simpa using hid) hb.start hb.bytes_eq (refl w) hroute
        rfl ⟨rfl, .refl _⟩

/-- **Every step that returns is one of these.** -/
theorem stepFront {step : ServerStep} (h : step.run.run w = .ok ⟨⟩ w') : StepFront step w w' := by
  cases step with
  | updateServerId serverId =>
    cases h
    exact .quiet _ (by rintro _ ⟨_, ⟨⟨⟩, -⟩, -⟩) (by rintro _ _ ⟨_, ⟨⟨⟩, -⟩, -⟩) rfl
      ⟨rfl, .refl _⟩
  | receive arrival =>
    obtain ⟨r, w₁, hnext, hrest⟩ := bind_eq_ok h
    have hbefore := (within_nextDatagram arrival).of_run hnext
    rcases nextDatagram_eq_ok hnext with ⟨rfl, hempty⟩ | ⟨b, bytes, address, rfl, rfl, hb⟩
    · cases hrest
      -- a datagram that has not been taken is too long, or empty
      refine .quiet _ ?_ ?_ hbefore.this hbefore.sameServer.continues
      · rintro address ⟨bytes, ⟨⟨⟩, hlen⟩, hid⟩
        rw [hempty bytes address rfl hlen] at hid
        cases hid
      · rintro address - ⟨bytes, ⟨⟨⟩, hlen⟩, hid⟩
        rw [hempty bytes address rfl hlen] at hid
        cases hid
    · obtain ⟨id, body, rfl⟩ := List.exists_cons_of_ne_nil hb.nonempty
      rw [← hbefore.bufferSize] at hb
      exact .of_same hbefore (stepFront_dispatch hb hrest) (refl w')

end StepFront

/-! ## Who gets on -/

/-- What a step that returns does to the two maps. -/
structure StepEffect (step : ServerStep) (w w' : ServerWorld) : Prop where
  protocolVersion : w'.this.protocolVersion = w.this.protocolVersion
  bufferSize : w'.host.company.bufferSize = w.host.company.bufferSize
  mid : ∀ address, address ∈ w'.this.midConnectionClients ↔
    address ∈ w.this.midConnectionClients ∨
      ∃ version, step.RequestsFirst w.host.company.bufferSize version address
  connected : ∀ address ∈ w'.this.router.connectedClients,
    address ∈ w.this.router.connectedClients ∨ address ∈ w.this.midConnectionClients ∧
      step.RequestsSecond w.host.company.bufferSize address
  connects : ∀ address ∈ w.this.midConnectionClients,
    step.RequestsSecond w.host.company.bufferSize address →
      address ∈ w'.this.router.connectedClients
  room : ∀ version address, step.RequestsFirst w.host.company.bufferSize version address →
    101 ≤ w.host.company.bufferSize

section StepEffect

variable {step : ServerStep} {w w' : ServerWorld}

/-- Without a request, the maps stay but for the clients that the router drops. -/
theorem StepEffect.of_quiet (hversion : w'.this.protocolVersion = w.this.protocolVersion)
    (hsize : w'.host.company.bufferSize = w.host.company.bufferSize)
    (hmid : w'.this.midConnectionClients = w.this.midConnectionClients)
    (hconnected : ∀ address ∈ w'.this.router.connectedClients,
      address ∈ w.this.router.connectedClients)
    (hfirst : ∀ address, ¬ step.SendsFirst w.host.company.bufferSize address)
    (hsecond : ∀ address ∈ w.this.midConnectionClients,
      ¬ step.RequestsSecond w.host.company.bufferSize address) : StepEffect step w w' where
  protocolVersion := hversion
  bufferSize := hsize
  mid address := by
    rw [hmid, or_iff_left]
    rintro ⟨version, h⟩
    exact hfirst address h.sends
  connected address h := .inl (hconnected address h)
  connects address hmem h := absurd h (hsecond address hmem)
  room version address h := absurd h.sends (hfirst address)

/-- What a step brings is one datagram. -/
theorem ServerStep.Brings.eq {size : Nat} {address address' : IPV4Addr} {bytes bytes' : Bytes}
    (h : step.Brings size address bytes) (h' : step.Brings size address' bytes') :
    address' = address ∧ bytes' = bytes := by
  obtain ⟨rfl, -⟩ := h
  obtain ⟨⟨⟩, -⟩ := h'
  exact ⟨rfl, rfl⟩

/-- **A step that returns moves an address on when it brings a request of it, and no other way.** -/
theorem step_effect (h : step.run.run w = .ok ⟨⟩ w') : StepEffect step w w' := by
  cases stepFront h with
  | quiet serverId hfirst hsecond hthis hhost =>
    refine .of_quiet ?_ hhost.bufferSize ?_ ?_ hfirst hsecond
    all_goals rw [hthis]
    exact fun _ h => h
  | @first bytes address time hbrings hid hlong hthis hhost =>
    have hsecond : ∀ address', ¬ step.RequestsSecond w.host.company.bufferSize address' := by
      rintro address' ⟨bytes', hbrings', hid'⟩
      obtain ⟨rfl, rfl⟩ := hbrings.eq hbrings'
      cases hid.symm.trans hid'
    refine ⟨by rw [hthis], hhost.bufferSize, fun address' => ?_, fun address' hmem => ?_,
      fun address' _ hrequest => absurd hrequest (hsecond address'),
      fun _ _ _ => hlong.trans hbrings.2⟩
    · have hversion : bytes[17]? = some bytes[17] := List.getElem?_eq_getElem _
      rw [hthis, AList.mem_insert]
      constructor
      · rintro (rfl | hmem)
        · exact .inr ⟨_, bytes, hbrings, hid, hversion⟩
        · exact .inl hmem
      · rintro (hmem | ⟨_, _, hbrings', -⟩)
        · exact .inr hmem
        · exact .inl (hbrings.eq hbrings').1
    · rw [hthis] at hmem
      exact .inl hmem
  | @second bytes address request mid w₁ rw hbrings hid hdecode hmid htime hrun hthis hhost =>
    obtain ⟨rw', hrun', hcompany, hconnected⟩ := run_connectClient address mid request.clientGuid
      w.this.instrument w.this.serverStartTime w₁.routing
    cases hrun.symm.trans hrun'
    have hfirst : ∀ version address',
        ¬ step.RequestsFirst w.host.company.bufferSize version address' := by
      rintro version address' ⟨bytes', hbrings', hid', -⟩
      obtain ⟨rfl, rfl⟩ := hbrings.eq hbrings'
      cases hid.symm.trans hid'
    have hmem : address ∈ w.this.midConnectionClients := by
      rw [← AList.lookup_isSome, hmid]
      rfl
    have hclients : w₁.routing.router = w.this.router := congrArg RakServer.router htime.this
    rw [hclients] at hconnected
    refine ⟨by rw [hthis], ?_, fun address' => ?_, fun address' hmem' => ?_,
      fun address' _ hrequest => ?_, fun version address' h => absurd h (hfirst version address')⟩
    · rw [hhost.bufferSize, hcompany]
      exact htime.bufferSize
    · rw [hthis, or_iff_left]
      rintro ⟨version, h⟩
      exact hfirst version address' h
    · rw [hthis] at hmem'
      rcases (hconnected address').mp hmem' with rfl | hmem'
      · exact .inr ⟨hmem, bytes, hbrings, hid⟩
      · exact .inl hmem'
    · obtain ⟨bytes', hbrings', -⟩ := hrequest
      obtain ⟨rfl, -⟩ := hbrings.eq hbrings'
      rw [hthis]
      exact (hconnected address').mpr (.inl rfl)
  | @routed bytes address b w₁ rw hbrings hid hstart _ htime hrun hthis hhost =>
    have hnobody := (within_route address hstart).of_run hrun
    have hnot : ∀ {address' bytes'} {packet : PacketId},
        step.Brings w.host.company.bufferSize address' bytes' →
        bytes'[0]? = some packet.toUnderlying → packet.toUnderlying ∉ trivalPackets := by
      intro address' bytes' packet hbrings' hid'
      obtain ⟨rfl, rfl⟩ := hbrings.eq hbrings'
      exact hid _ hid'
    refine .of_quiet (by rw [hthis]) ?_ (by rw [hthis]) (fun address' hmem => ?_) ?_ ?_
    · rw [hhost.bufferSize, hnobody.bufferSize]
      exact htime.bufferSize
    · rw [hthis] at hmem
      have hmem' := hnobody.connected address' hmem
      rwa [show w₁.routing.router = w.this.router from congrArg RakServer.router htime.this]
        at hmem'
    · rintro address' ⟨bytes', hbrings', hid'⟩
      exact hnot hbrings' hid' (by decide)
    · rintro address' - ⟨bytes', hbrings', hid'⟩
      exact hnot hbrings' hid' (by decide)

end StepEffect

end Rakro
