import Rakro.Properties.Handshake

/-!
# Which datagrams the server gets through

A request that is too short, and a second request whose address is of another family, end the
listener: the decoders throw and nothing on the way catches. Every other datagram is answered, with
one exception. The size that a pong states is two bytes more than it takes, so a `server_id` may fit
the buffer and a ping end the listener all the same.
-/

namespace Rakro

open Infra BinaryBuffer

/-! ## Reading the requests -/

/-- In front of `r`, `m` returns with the bytes as they were. -/
def Reads {α : Type} (m : BufM α) (b : BinaryBuffer) (p r : Bytes) : Prop :=
  ∃ v p' r', m.run (b.between p r) = .ok v (b.between p' r') ∧ p' ++ r' = p ++ r

section Requests

variable {b : BinaryBuffer} {p r : Bytes}

theorem reads_ping (h : 32 ≤ r.length) : Reads (readNext UnconnectedPing) b p r := by
  obtain ⟨time, r₁, htime, rfl⟩ := exists_split (n := 8) (r := r) (by omega)
  rw [List.length_append] at h
  obtain ⟨bs, r₂, hbs, rfl⟩ := exists_split (n := 16) (r := r₁) (by omega)
  rw [List.length_append] at h
  obtain ⟨guid, rest, hguid, rfl⟩ := exists_split (n := 8) (r := r₂) (by omega)
  have hrun := consumes_unconnectedPing htime hbs hguid b p rest
  simp only [List.append_assoc] at hrun
  exact ⟨_, _, _, hrun, by simp⟩

theorem reads_request1 (h : 100 ≤ r.length) : Reads (readNext OpenConnectionRequest1) b p r := by
  obtain ⟨bs, r₁, hbs, rfl⟩ := exists_split (n := 16) (r := r) (by omega)
  rw [List.length_append] at h
  obtain ⟨version, rest, rfl⟩ := List.exists_cons_of_length_pos (l := r₁) (by omega)
  rw [List.length_cons] at h
  exact ⟨_, _, _, run_readRequest1 b p version hbs (by omega), by simp⟩

/-- A second request of 33 bytes is read, if its address has the tag. -/
theorem reads_request2 (h : 33 ≤ r.length) (htag : r[16]? = some 4) :
    Reads (readNext OpenConnectionRequest2) b p r := by
  obtain ⟨bs, tag, rest, hbs, hrest, rfl, htag'⟩ := exists_tag h
  obtain rfl : tag = 4 := Option.some.inj (htag'.symm.trans htag)
  obtain ⟨x, rest, rfl⟩ := List.exists_cons_of_length_pos (l := rest) (by omega)
  rw [List.length_cons] at hrest
  refine ⟨_, _, _, run_readRequest2 b p x hbs (by omega), ?_⟩
  simp only [List.append_assoc, List.take_append_drop, List.cons_append, List.nil_append]

end Requests

/-! ## Writing the replies -/

section Replies

variable {w : ServerWorld} {b : BinaryBuffer} {bytes : Bytes} {size : Nat}

/-- A reader succeeds in the server when it does on the buffer. -/
theorem succeeds_readFrom {α : Type} {method : BufM α} :
    Succeeds (readFrom b method) w ↔ Succeeds method b := by
  constructor
  · rintro ⟨r, w', h⟩
    exact succeeds_of_ok (readFrom_eq_ok h).1
  · rintro ⟨a, b', h⟩
    exact succeeds_of_ok (run_readFrom_ok h)

theorem succeeds_writeInto {method : BufM PUnit} :
    Succeeds (writeInto b method) w ↔ Succeeds method b := by
  have hrest : ∀ (r : PUnit × BinaryBuffer) (w' : ServerWorld),
      Succeeds (do modifyCompany (·.keep r.2.realBuffer); pure r.2 : ServerM BinaryBuffer) w' :=
    fun r w' => succeeds_of_ok rfl
  exact (succeeds_bind_iff hrest).trans succeeds_readFrom

theorem succeeds_serverSendTo (bytes : Bytes) (address : IPV4Addr) (packet : PacketId) :
    Succeeds (serverSendTo bytes address packet) w := by
  refine (succeeds_bind_iff fun _ w' => succeeds_of_ok rfl).mpr ?_
  unfold serverDebug
  rw [succeeds_get_bind]
  split
  · exact succeeds_of_ok rfl
  · exact succeeds_pure _ _

theorem run_onRouter_time (w : ServerWorld) :
    (onRouter routerTime).run w = .ok (w.host.clock 0)
      { w with host := { w.host with clock := fun n => w.host.clock (n + 1) } } := rfl

/-- A reply is sent when it can be written. -/
theorem succeeds_writeReply {method : BufM PUnit} {address : IPV4Addr} {packet : PacketId} :
    Succeeds (do
      let buffer ← writeInto b method
      serverSendTo buffer.consumedSlice address packet
      pure buffer : ServerM BinaryBuffer) w ↔ Succeeds method b := by
  refine (succeeds_bind_iff fun buffer w' => ?_).trans succeeds_writeInto
  exact (succeeds_bind_iff fun _ w'' => succeeds_pure _ w'').mpr (succeeds_serverSendTo _ _ _)

/-- Once it is cleared, the buffer is all room. -/
theorem Received.clear_eq (hb : Received b bytes size) {p r : Bytes} (h : p ++ r = bytes) :
    ∃ (b' : BinaryBuffer) (room : Bytes), (b.between p r).clear = b'.between [] room ∧
      room.length = size := by
  refine ⟨{ b with beyond := [] }, p ++ r ++ b.beyond, rfl, ?_⟩
  rw [h, List.length_append, ← hb.size_eq, hb.bytes_eq]

/-- With room for what is written, only the size that is stated for it counts. -/
theorem succeeds_write {T : Type} [BinaryData T] {v : T} {enc room : Bytes}
    (hm : Emits (BinaryData.write v) enc) (hroom : enc.length ≤ room.length)
    (h0 : 1 ≤ BinaryData.size (some v)) (hlt : BinaryData.size (some v) ≤ 2 ^ 64) :
    Succeeds (write v) (b.between [] room) ↔ BinaryData.size (some v) ≤ room.length := by
  constructor
  · exact le_length_of_succeeds (by rw [List.length_nil]; omega)
  · intro h
    obtain ⟨old, rest, hold, rfl⟩ := exists_split hroom
    exact succeeds_of_ok ((run_bind_of_ok (run_boundsCheck h0 h)).trans
      (hm.writes b [] old rest hold))

end Replies

/-! ## The messages -/

section Messages

variable {w : ServerWorld} {b : BinaryBuffer} {id : UInt8} {body : Bytes} {size : Nat}

/-- A ping is answered when the pong fits with the two bytes more that it states. -/
theorem succeeds_unconnectedPing (hb : Received b (id :: body) size) {serverId : StdString}
    (hid : w.this.serverId = some serverId) (hfits : 35 + serverId.chars.length ≤ size)
    (address : IPV4Addr) :
    Succeeds (unconnectedPing (b.between [id] body) address) w ↔
      32 ≤ body.length ∧ 37 + serverId.chars.length ≤ size := by
  by_cases hlong : 32 ≤ body.length
  · obtain ⟨ping, p, r, hread, hbytes⟩ := reads_ping (b := b) (p := [id]) hlong
    obtain ⟨b', room, hclear, hroom⟩ := hb.clear_eq hbytes
    rw [and_iff_right hlong]
    unfold unconnectedPing
    rw [succeeds_bind_of_ok (run_readFrom_ok hread), succeeds_get_bind]
    dsimp only
    rw [hid, hclear]
    dsimp only
    rw [succeeds_bind_of_ok (run_onRouter_time w), succeeds_get_bind, succeeds_writeReply]
    refine (succeeds_write (emits_pongFields _) ?_ ?_ ?_).trans ?_
    all_goals simp only [size_pong, UnconnectedPong.length_bytes, hroom]
    · exact hfits
    · omega
    · have hlt := serverId.length_lt
      omega
    · omega
  · refine iff_of_false (fun h => hlong ?_) fun h => hlong h.1
    exact length_of_succeeds_readNext (show 1 + 32 ≤ 2 ^ 64 by decide)
      (succeeds_readFrom.mp h.of_bind)

/-- Either reply to a first request fits in 34 bytes. -/
theorem succeeds_replyOne {room : Bytes} (hroom : 34 ≤ room.length) (ocr : OpenConnectionRequest1)
    (server : RakServer) : Succeeds (replyOne ocr server) (b.between [] room) := by
  unfold replyOne
  split
  · exact (succeeds_write (emits_incompatibleFields _) (show 26 ≤ _ by omega)
      (show 1 ≤ 26 by decide) (show 26 ≤ 2 ^ 64 by decide)).mpr (show 26 ≤ _ by omega)
  · exact (succeeds_write (emits_reply1Fields _) (show 28 ≤ _ by omega)
      (show 1 ≤ 34 by decide) (show 34 ≤ 2 ^ 64 by decide)).mpr hroom

/-- A first request is answered when it is long enough. -/
theorem succeeds_openConnectionRequest1 (hb : Received b (id :: body) size) (address : IPV4Addr) :
    Succeeds (openConnectionRequest1 (b.between [id] body) address) w ↔ 100 ≤ body.length := by
  constructor
  · intro h
    exact length_of_succeeds_readNext (show 1 + 100 ≤ 2 ^ 64 by decide)
      (succeeds_readFrom.mp h.of_bind)
  · intro hlong
    obtain ⟨ocr, p, r, hread, hbytes⟩ := reads_request1 (b := b) (p := [id]) hlong
    obtain ⟨b', room, hclear, hroom⟩ := hb.clear_eq hbytes
    have hsize : 101 ≤ room.length := by
      have hle := hb.length_le
      rw [List.length_cons] at hle
      omega
    unfold openConnectionRequest1
    rw [succeeds_bind_of_ok (run_readFrom_ok hread), succeeds_get_bind]
    dsimp only
    rw [hclear]
    refine (succeeds_bind_iff fun buffer w' => ?_).mpr
      (succeeds_writeInto.mpr (succeeds_replyOne (by omega) ocr w.this))
    -- behind the reply nothing throws
    exact (succeeds_bind_iff fun _ _ => succeeds_of_ok rfl).mpr (succeeds_serverSendTo _ _ _)

/-- A second request is got through when it is long enough and its address has the tag. -/
theorem succeeds_openConnectionRequest2 (hb : Received b (id :: body) size) (address : IPV4Addr)
    (hroom : address ∈ w.this.midConnectionClients → 101 ≤ size) :
    Succeeds (openConnectionRequest2 (b.between [id] body) address) w ↔
      33 ≤ body.length ∧ body[16]? = some 4 := by
  constructor
  · intro h
    have hread := succeeds_readFrom.mp h.of_bind
    have hlong : 33 ≤ body.length :=
      length_of_succeeds_readNext (show 1 + 33 ≤ 2 ^ 64 by decide) hread
    exact ⟨hlong, tag_of_succeeds_readRequest2 hlong hread⟩
  · rintro ⟨hlong, htag⟩
    obtain ⟨ocr2, p, r, hread, hbytes⟩ := reads_request2 (b := b) (p := [id]) hlong htag
    obtain ⟨b', room, hclear, hsize⟩ := hb.clear_eq hbytes
    unfold openConnectionRequest2
    rw [succeeds_bind_of_ok (run_readFrom_ok hread), succeeds_get_bind]
    dsimp only
    cases hmid : w.this.midConnectionClients.lookup address with
    | none => exact succeeds_pure _ _
    | some mid =>
      dsimp only
      have hmem : address ∈ w.this.midConnectionClients := by
        rw [← AList.lookup_isSome, hmid]
        rfl
      obtain ⟨rw', hrun, -, -⟩ := run_connectClient address mid ocr2.clientGuid w.this.instrument
        w.this.serverStartTime { router := w.this.router, host := w.host }
      rw [succeeds_bind_of_ok (run_onRouter_ok hrun), hclear, succeeds_writeReply]
      have hroom := hroom hmem
      exact (succeeds_write (emits_reply2Fields _) (show 35 ≤ _ by omega)
        (show 1 ≤ 35 by decide) (show 35 ≤ 2 ^ 64 by decide)).mpr (show 35 ≤ _ by omega)

end Messages

/-! ## The handler -/

/-- What a datagram must be like for the handler to get through it. -/
def Manageable (serverId : StdString) (size : Nat) (id : UInt8) (body : Bytes) : Prop :=
  match PacketId.ofByte id with
  | some .unconnectedPing1 => 32 ≤ body.length ∧ 37 + serverId.chars.length ≤ size
  | some .openConnectionRequest1 => 100 ≤ body.length
  | some .openConnectionRequest2 => 33 ≤ body.length ∧ body[16]? = some 4
  | _ => True

section Handler

variable {start w₀ w : ServerWorld} {steps : List ServerStep} {b : BinaryBuffer}
  {address : IPV4Addr} {serverId : StdString} {id : UInt8} {body : Bytes}

/-- An address is only on its way when a buffer has held a first request. -/
theorem room_of_mem_mid (hstart : start.Started) (hreach : Reaches ServerStep.run start steps w)
    (hmem : address ∈ w.this.midConnectionClients) : 101 ≤ w.host.company.bufferSize := by
  induction hreach with
  | nil =>
    rw [hstart.mid] at hmem
    exact absurd hmem (AList.notMem_empty address)
  | snoc _ hrun ih =>
    have heffect := step_effect hrun
    rw [heffect.bufferSize]
    rcases (heffect.mid address).mp hmem with hmem | ⟨version, hfirst⟩
    · exact ih hmem
    · exact heffect.room version address hfirst

/--
**The handler returns exactly when a request is long enough, the address in a second request is
tagged as one, and the pong fits with the two bytes more that it states.**
-/
theorem succeeds_handlePacket_iff (hstart : start.Started)
    (hreach : Reaches ServerStep.run start steps w₀) (hserver : w₀.this.serverId = some serverId)
    (hfits : 35 + serverId.chars.length ≤ w₀.host.company.bufferSize)
    (hnext : (nextDatagram (.datagram (id :: body) address)).run w₀ = .ok (some (b, address)) w) :
    Succeeds (handlePacket b address) w ↔
      Manageable serverId w₀.host.company.bufferSize id body := by
  have hsame := (within_nextDatagram _).of_run hnext
  rw [← hsame.this] at hserver
  obtain hb : Received b (id :: body) w₀.host.company.bufferSize := by
    rcases nextDatagram_eq_ok hnext with ⟨hnone, -⟩ | ⟨_, _, _, hsome, harrival, hb⟩
    · cases hnone
    · cases hsome
      cases harrival
      exact hb
  have hmid : ∀ address ∈ w.this.midConnectionClients, 101 ≤ w₀.host.company.bufferSize := by
    rw [hsame.this]
    exact fun address => room_of_mem_mid hstart hreach
  have hhandled : ∀ (m : ServerM BinaryBuffer),
      Succeeds (do return (true, ← m) : ServerM (Bool × BinaryBuffer)) w ↔ Succeeds m w :=
    fun m => succeeds_bind_iff fun _ _ => succeeds_pure _ _
  rw [succeeds_congr (hb.run_handlePacket address)]
  unfold Manageable
  cases PacketId.ofByte id with
  | none => exact iff_of_true (succeeds_pure _ _) trivial
  | some packet =>
    cases packet with
    | unconnectedPing1 =>
      exact (hhandled _).trans (succeeds_unconnectedPing hb hserver hfits _)
    | openConnectionRequest1 =>
      exact (hhandled _).trans (succeeds_openConnectionRequest1 hb _)
    | openConnectionRequest2 =>
      exact (hhandled _).trans (succeeds_openConnectionRequest2 hb _ (hmid address))
    | _ => exact iff_of_true (succeeds_pure _ _) trivial

end Handler

/-- The empty name. -/
def noName : StdString := ⟨[], by decide⟩

/-- A server with a pool of one buffer. -/
def namelessServer : ServerWorld :=
  .new { rentedBufferCount := 1, rentedBufferSize := 40, rentedBlockBufferCount := 1 } false
    fun _ => 0

/-- The same with a name of no letters. -/
def namedServer : ServerWorld := after (ServerStep.updateServerId noName).run namelessServer

theorem namelessServer_started : namelessServer.Started := ⟨namelessServer, rfl, rfl⟩

theorem namedServer_reached :
    Reaches ServerStep.run namelessServer [.updateServerId noName] namedServer :=
  Reaches.nil.snoc rfl

/-- A ping of 33 bytes is answered, in the buffer of 40 that it has come in. -/
theorem succeeds_handlePacket_ping : ∃ b w,
    (nextDatagram (.datagram (1 :: List.replicate 32 0) {})).run namedServer =
        .ok (some (b, {})) w ∧
      Succeeds (handlePacket b {}) w := by
  have hserver : namedServer.this.serverId = some noName := rfl
  obtain ⟨b, w, hnext⟩ : ∃ b w, (nextDatagram (.datagram (1 :: List.replicate 32 0) {})).run
      namedServer = .ok (some (b, {})) w := ⟨_, _, rfl⟩
  have hmanageable : Manageable noName namedServer.host.company.bufferSize 1
      (List.replicate 32 0) := by
    show 32 ≤ _ ∧ _ ≤ _
    decide
  have hiff := succeeds_handlePacket_iff namelessServer_started namedServer_reached hserver
    (by decide) hnext
  exact ⟨b, w, hnext, hiff.mpr hmanageable⟩

/-- A ping of one byte ends the listener. -/
theorem not_succeeds_handlePacket_one : ∃ b w,
    (nextDatagram (.datagram [1] {})).run namedServer = .ok (some (b, {})) w ∧
      ¬ Succeeds (handlePacket b {}) w := by
  refine ⟨_, _, rfl, ?_⟩
  decide +kernel

end Rakro
