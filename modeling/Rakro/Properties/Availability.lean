import Rakro.Infra.Output
import Rakro.Properties.Sessions

/-!
# Anyone can connect

A first request of the server's version is answered in every state that the server comes to, and so
is a second request of an address on its way. What the others send in between makes no difference,
so an address that is not connected becomes a client with these two.
-/

namespace Rakro

open Infra BinaryBuffer

/-! ## Parts that send one datagram -/

section Sending

variable {α : Type} {out : Bytes} {address : IPV4Addr} {w : ServerWorld} {b : BinaryBuffer}

/-- The part returns, and sends one datagram. -/
abbrev SendsTo (address : IPV4Addr) (out : Bytes) (m : ServerM α) (w : ServerWorld) : Prop :=
  Outputs ServerWorld.datagrams [(out, address)] m w

/-- The part returns, and sends nothing. -/
abbrev SendsNothing (m : ServerM α) (w : ServerWorld) : Prop := Outputs ServerWorld.datagrams [] m w

/-- A part that leaves the datagrams alone sends nothing when it returns. -/
theorem sendsNothing_of_hushed {m : ServerM α} (hm : Within Hushed m) (h : Succeeds m w) :
    SendsNothing m w := by
  obtain ⟨a, w', hrun⟩ := h
  exact outputs_of_run hrun (hm.of_run hrun).datagrams

theorem sendsNothing_serverRelease (buffer : RentedBuffer) (w : ServerWorld) :
    SendsNothing (serverRelease buffer) w := outputs_of_run rfl rfl

theorem sendsNothing_connectClient (address : IPV4Addr) (mid : SemiConnectedClient) (guid : UInt64)
    (debugger : Option DebugInstrument) (serverStartTime : UInt64) (w : ServerWorld) :
    SendsNothing (onRouter (connectClient address mid guid debugger serverStartTime)) w := by
  by_cases hmem : address ∈ w.this.router.connectedClients
  · exact outputs_of_run (run_onRouter_ok (run_connectClient_known hmem)) rfl
  · exact outputs_of_run (run_onRouter_ok (run_connectClient_new hmem)) rfl

/-- `send_to` sends its datagram. -/
theorem sendsTo_serverSendTo (packet : PacketId) :
    SendsTo address out (serverSendTo out address packet) w := by
  have hdebug : Succeeds (serverDebug (.onSend out packet.toUnderlying address)) w := by
    unfold serverDebug
    rw [succeeds_get_bind]
    split
    · exact succeeds_of_ok rfl
    · exact succeeds_pure _ _
  obtain ⟨a, w', hrun, hsame⟩ := sendsNothing_of_hushed (hushed_serverDebug _) hdebug
  rw [List.append_nil] at hsame
  exact .of_bind hrun hsame ⟨_, _, rfl, List.filterMap_append⟩

/-- A message that can be written is the one datagram. -/
theorem sendsTo_reply {T : Type} [BinaryData T] {v : T} {enc : Bytes}
    (hm : Emits (BinaryData.write v) enc) (hlen : enc.length < 2 ^ 64)
    (hwrite : Succeeds (write v) b.clear) (packet : PacketId) {f : BinaryBuffer → ServerM α}
    (hf : ∀ buffer w', SendsNothing (f buffer) w') :
    SendsTo address enc (writeInto b.clear (write v) >>= fun buffer =>
      serverSendTo buffer.consumedSlice address packet >>= fun _ => f buffer) w := by
  refine (sendsNothing_of_hushed (hushed_writeInto _ _) (succeeds_writeInto.mpr hwrite)).bind
    fun buffer w' hrun => ?_
  rw [writeInto_eq_ok hm hlen hrun]
  exact (sendsTo_serverSendTo packet).bind_free fun _ => hf buffer

end Sending

/-! ## The two requests -/

/-- A first request of the version, which fits into a buffer. -/
structure IsFirstRequest (bytes : Bytes) (version : UInt8) (size : Nat) : Prop where
  id : bytes[0]? = some PacketId.openConnectionRequest1.toUnderlying
  version : bytes[17]? = some version
  long : 101 ≤ bytes.length
  fits : bytes.length ≤ size

/-- A second request whose address is tagged as one of IPv4. -/
structure IsSecondRequest (bytes : Bytes) (size : Nat) : Prop where
  id : bytes[0]? = some PacketId.openConnectionRequest2.toUnderlying
  tag : bytes[17]? = some 4
  long : 34 ≤ bytes.length
  fits : bytes.length ≤ size

/-- The server's reply to a first request of its version. -/
def RakServer.firstReply (server : RakServer) (bytes : Bytes) : Bytes :=
  ({ serverGuid := server.serverGuid, mtu := .ofNat bytes.length } : OpenConnectionReply1).bytes

/-- The server's reply to a second request. -/
def RakServer.secondReply (server : RakServer) (address : IPV4Addr)
    (request : OpenConnectionRequest2) : Bytes :=
  ({ serverGuid := server.serverGuid, mtu := request.mtu, clientAddress := .fromIpv4 address } :
    OpenConnectionReply2).bytes

section Requests

variable {w : ServerWorld} {b : BinaryBuffer} {id : UInt8} {body bytes : Bytes} {size : Nat}
  {address : IPV4Addr}

/-- A first request of the server's version is answered. -/
theorem sendsTo_openConnectionRequest1 (address : IPV4Addr) (hb : Received b (id :: body) size)
    (h : IsFirstRequest (id :: body) w.this.protocolVersion size) :
    SendsTo address (w.this.firstReply (id :: body))
      (openConnectionRequest1 (b.between [id] body) address) w := by
  have hlong := h.long
  rw [List.length_cons] at hlong
  obtain ⟨ocr, p, r, hread, hbytes⟩ := reads_request1 (b := b) (p := [id]) (r := body) (by omega)
  obtain ⟨-, hmtu, hversion⟩ := readRequest1_eq_ok hread
  have hsame : ocr.protoVersion = w.this.protocolVersion :=
    Option.some.inj (hversion.symm.trans h.version)
  obtain ⟨b', room, hclear, hroom⟩ := hb.clear_eq hbytes
  have hfits := h.fits
  rw [List.length_cons] at hfits
  unfold openConnectionRequest1
  refine .of_bind (run_readFrom_ok hread) rfl (.of_bind rfl rfl ?_)
  dsimp only
  rw [replyOne, if_neg (not_not.mpr hsame)]
  have hwrite : Succeeds (write ({ serverGuid := w.this.serverGuid, mtu := ocr.mtu } :
      OpenConnectionReply1)) (b.between p r).clear := by
    rw [hclear]
    exact (succeeds_write (emits_reply1Fields _) (show 28 ≤ _ by omega) (show 1 ≤ 34 by decide)
      (show 34 ≤ 2 ^ 64 by decide)).mpr (show 34 ≤ _ by omega)
  have hlength := OpenConnectionReply1.length_bytes
    { serverGuid := w.this.serverGuid, mtu := ocr.mtu }
  rw [RakServer.firstReply, ← hmtu]
  exact sendsTo_reply (emits_reply1Fields _) (by omega) hwrite _ fun _ _ => outputs_of_run rfl rfl

/-- A second request is answered to an address that has made the first one. -/
theorem sendsTo_openConnectionRequest2 (hb : Received b (id :: body) size)
    (h : IsSecondRequest (id :: body) size) (hsize : 101 ≤ size)
    (hmid : address ∈ w.this.midConnectionClients) {request : OpenConnectionRequest2}
    (hrequest : OpenConnectionRequest2.decode (id :: body) = some request) :
    SendsTo address (w.this.secondReply address request)
      (openConnectionRequest2 (b.between [id] body) address) w := by
  have hlong := h.long
  rw [List.length_cons] at hlong
  obtain ⟨ocr2, p, r, hread, hbytes⟩ := reads_request2 (b := b) (p := [id]) (r := body) (by omega)
    (by rw [← List.getElem?_cons_succ (a := id)]; exact h.tag)
  obtain ⟨b', room, hclear, hroom⟩ := hb.clear_eq hbytes
  obtain rfl : ocr2 = request := Option.some.inj ((decode_eq_some hread).symm.trans hrequest)
  obtain ⟨mid, hmid⟩ := Option.isSome_iff_exists.mp (AList.lookup_isSome.mpr hmid)
  unfold openConnectionRequest2
  refine .of_bind (run_readFrom_ok hread) rfl (.of_bind rfl rfl ?_)
  dsimp only
  rw [hmid]
  dsimp only
  have hwrite : Succeeds (write
      ({ serverGuid := w.this.serverGuid, mtu := ocr2.mtu, clientAddress := .fromIpv4 address } :
        OpenConnectionReply2)) (b.between p r).clear := by
    rw [hclear]
    exact (succeeds_write (emits_reply2Fields _) (show 35 ≤ _ by omega) (show 1 ≤ 35 by decide)
      (show 35 ≤ 2 ^ 64 by decide)).mpr (show 35 ≤ _ by omega)
  have hlength := OpenConnectionReply2.length_bytes
    { serverGuid := w.this.serverGuid, mtu := ocr2.mtu, clientAddress := .fromIpv4 address }
  exact (sendsNothing_connectClient address mid ocr2.clientGuid w.this.instrument
    w.this.serverStartTime w).bind fun _ _ _ =>
    (sendsTo_reply (emits_reply2Fields _) (by omega) hwrite _ fun _ _ => outputs_pure _ _)

/-- What is in the handler is in the round. -/
theorem sendsTo_dispatch {out : Bytes} (hb : Received b (id :: body) size)
    (hid : id ∈ trivalPackets) (h : SendsTo address out (handlePacket b address) w) :
    SendsTo address out (dispatch b address) w := by
  unfold dispatch
  refine .of_bind hb.run_isTrivialPacket rfl ?_
  rw [if_pos (decide_eq_true hid)]
  refine h.bind_free ?_
  rintro ⟨_ | _, buffer⟩ w
  · have hprinted : ∀ line, Within Hushed (serverEmit (.printed line)) :=
      fun _ => hushed_serverEmit rfl
    exact outputs_of_run rfl (hprinted _ w).datagrams
  · exact sendsNothing_serverRelease _ w

end Requests

/-! ## The step -/

section Step

variable {w : ServerWorld} {bytes : Bytes} {address : IPV4Addr}

/-- The buffer is filled as far as it goes, and a datagram that is longer is an error. -/
theorem run_recvValue (rented : RentedBuffer) (bytes : Bytes) (address : IPV4Addr)
    (w : ServerWorld) : (recvValue rented (.datagram bytes address)).run w =
      .ok (rented.filled bytes, if rented.memory.length < bytes.length then .error wsaEMsgSize
          else .ok (bytes.length, address))
        { w with host := { w.host with company := w.host.company.keep (rented.filled bytes) } } :=
  rfl

/-- A datagram is received when there is a buffer for it. -/
theorem exists_received (hrent : w.host.company.RentsAtOnce) (hne : bytes ≠ [])
    (hfits : bytes.length ≤ w.host.company.bufferSize) (address : IPV4Addr) :
    ∃ b w', (nextDatagram (.datagram bytes address)).run w = .ok (some (b, address)) w' ∧
      Received b bytes w.host.company.bufferSize := by
  obtain ⟨rented, company, hcompany⟩ := hrent.returns
  have hlen : rented.memory.length = w.host.company.bufferSize :=
    (BufferCompany.rent_eq_ok hcompany).1
  have hpos := List.length_pos_iff.mpr hne
  rw [← hlen] at hfits ⊢
  obtain ⟨r, w', hrun⟩ : Succeeds (nextDatagram (.datagram bytes address)) w := by
    unfold nextDatagram
    rw [succeeds_bind_of_ok (run_serverRent_ok hcompany),
      succeeds_bind_of_ok (run_recvValue rented bytes address _), if_neg (Nat.not_lt.mpr hfits)]
    dsimp only
    rw [if_neg (by omega), RentedBuffer.filled, ofRentedLimit_received hfits]
    exact succeeds_pure _ _
  rcases nextDatagram_eq_ok hrun with ⟨-, hempty⟩ | ⟨b, _, _, rfl, ⟨⟩, hb⟩
  · exact absurd (hempty bytes address rfl (hlen ▸ hfits)) hne
  · exact ⟨b, w', hrun, hlen ▸ hb⟩

/-- A step is the round of its datagram. -/
theorem outputs_receive {new : List (Bytes × IPV4Addr)} (hrent : w.host.company.RentsAtOnce)
    (hne : bytes ≠ []) (hfits : bytes.length ≤ w.host.company.bufferSize)
    (h : ∀ b w', (nextDatagram (.datagram bytes address)).run w = .ok (some (b, address)) w' →
      Received b bytes w.host.company.bufferSize →
        Outputs ServerWorld.datagrams new (dispatch b address) w') :
    Outputs ServerWorld.datagrams new (ServerStep.receive (.datagram bytes address)).run w := by
  obtain ⟨b, w', hnext, hb⟩ := exists_received hrent hne hfits address
  exact .of_bind hnext ((hushed_nextDatagram _).of_run hnext).datagrams (h b w' hnext hb)

/-- The whole round answers a first request. -/
theorem sendsTo_first (address : IPV4Addr) (hrent : w.host.company.RentsAtOnce)
    (h : IsFirstRequest bytes w.this.protocolVersion w.host.company.bufferSize) :
    SendsTo address (w.this.firstReply bytes)
      (ServerStep.receive (.datagram bytes address)).run w := by
  obtain ⟨id, body, rfl⟩ := List.exists_cons_of_length_pos (l := bytes) (by have := h.long; omega)
  refine outputs_receive hrent (List.cons_ne_nil _ _) h.fits fun b w' hnext hb => ?_
  obtain rfl : id = PacketId.openConnectionRequest1.toUnderlying := Option.some.inj h.id
  rw [← ((hushed_nextDatagram _).of_run hnext).this] at h ⊢
  refine sendsTo_dispatch hb (by decide) (.congr (hb.run_handlePacket address) ?_)
  exact (sendsTo_openConnectionRequest1 address hb h).bind_free fun _ _ => outputs_pure _ _

/-- A second request can be decoded. -/
theorem IsSecondRequest.decodes {size : Nat} (h : IsSecondRequest bytes size) :
    ∃ request, OpenConnectionRequest2.decode bytes = some request := by
  obtain ⟨id, body, rfl⟩ := List.exists_cons_of_length_pos (l := bytes) (by have := h.long; omega)
  have hlong := h.long
  rw [List.length_cons] at hlong
  obtain ⟨request, p, r, hread, -⟩ := reads_request2 (b := {}) (p := [id]) (r := body) (by omega)
    (by rw [← List.getElem?_cons_succ (a := id)]; exact h.tag)
  exact ⟨request, decode_eq_some hread⟩

/-- The whole round answers a second request. -/
theorem sendsTo_second (hrent : w.host.company.RentsAtOnce)
    (h : IsSecondRequest bytes w.host.company.bufferSize) (hsize : 101 ≤ w.host.company.bufferSize)
    (hmid : address ∈ w.this.midConnectionClients) {request : OpenConnectionRequest2}
    (hrequest : OpenConnectionRequest2.decode bytes = some request) :
    SendsTo address (w.this.secondReply address request)
      (ServerStep.receive (.datagram bytes address)).run w := by
  obtain ⟨id, body, rfl⟩ := List.exists_cons_of_length_pos (l := bytes) (by have := h.long; omega)
  refine outputs_receive hrent (List.cons_ne_nil _ _) h.fits fun b w' hnext hb => ?_
  obtain rfl : id = PacketId.openConnectionRequest2.toUnderlying := Option.some.inj h.id
  rw [← ((hushed_nextDatagram _).of_run hnext).this] at hmid ⊢
  refine sendsTo_dispatch hb (by decide) (.congr (hb.run_handlePacket address) ?_)
  exact (sendsTo_openConnectionRequest2 hb h hsize hmid hrequest).bind_free fun _ _ =>
    outputs_pure _ _

end Step

/-! ## Runs -/

section Runs

variable {config : ServerConfig} {start w w' : ServerWorld} {address : IPV4Addr}
  {steps : List ServerStep} {bytes₁ bytes₂ : Bytes}

theorem ServerWorld.StartedWith.started (h : w.StartedWith config) : w.Started := by
  obtain ⟨w₀, hfresh, -, hrun⟩ := h
  exact ⟨w₀, hfresh, hrun⟩

/-- No datagram of the steps comes from the address. -/
def KeepsQuiet (address : IPV4Addr) (steps : List ServerStep) : Prop :=
  ∀ bytes, ServerStep.receive (.datagram bytes address) ∉ steps

/-- What comes from the others changes neither the offer to an address nor its session. -/
theorem table_of_keepsQuiet {between : List ServerStep}
    (hbetween : Reaches ServerStep.run w between w') (hquiet : KeepsQuiet address between) :
    w'.this.table.offers address = w.this.table.offers address ∧
      w'.this.table.sessions address = w.this.table.sessions address := by
  induction hbetween with
  | nil => exact ⟨rfl, rfl⟩
  | @snoc l step w₁ w₂ hl hrun ih =>
    obtain ⟨hoffers, hsessions⟩ := ih fun bytes hmem => hquiet bytes (List.mem_append_left _ hmem)
    obtain ⟨move, hcalls, htable⟩ := moves_step hrun
    have hpeer : move.peer ≠ some address := by
      intro hpeer
      obtain ⟨bytes, rfl, -⟩ := hcalls.brings_of_peer hpeer
      exact hquiet bytes (List.mem_append_right _ (List.mem_singleton.mpr rfl))
    have happly := w₁.this.table.apply_of_peer_ne hpeer
    rw [htable]
    exact ⟨happly.1.trans hoffers, happly.2.trans hsessions⟩

/-- Without a session, an address is not connected. -/
theorem notMem_of_sessions (h : w.this.table.sessions address = none) :
    address ∉ w.this.router.connectedClients :=
  AList.lookup_eq_none.mp (Option.map_eq_none_iff.mp h)

/-- A first request makes its offer and leaves the sessions alone. -/
theorem table_of_first
    (hrun : (ServerStep.receive (.datagram bytes₁ address)).run.run w = .ok ⟨⟩ w')
    (h : IsFirstRequest bytes₁ w.this.protocolVersion w.host.company.bufferSize) :
    (∃ time, w'.this.table.offers address =
        some { connectionTime := time, mtu := .ofNat bytes₁.length }) ∧
      w'.this.table.sessions = w.this.table.sessions := by
  have hbrings : (ServerStep.receive (.datagram bytes₁ address)).Brings w.host.company.bufferSize
      address bytes₁ := ⟨rfl, h.fits⟩
  refine ⟨lookup_mid_first hrun hbrings h.id, ?_⟩
  obtain ⟨move, hcalls, htable⟩ := moves_step hrun
  obtain ⟨offer, rfl⟩ := hcalls.of_sendsFirst ⟨bytes₁, hbrings, h.id⟩
  rw [htable]
  rfl

/--
**Who sends the two requests of the handshake gets connected**, in whatever state the server is and
whatever the others send in between: each request is answered, and the client that is made has the
length of the first one for its MTU.
-/
theorem connects_of_requests (hpositive : config.Positive) (hstart : start.StartedWith config)
    (hreach : Reaches ServerStep.run start steps w)
    (h₁ : IsFirstRequest bytes₁ w.this.protocolVersion config.rentedBufferSize)
    (h₂ : IsSecondRequest bytes₂ config.rentedBufferSize)
    (hnew : address ∉ w.this.router.connectedClients) :
    ∃ request, OpenConnectionRequest2.decode bytes₂ = some request ∧
      ∃ w₁, (ServerStep.receive (.datagram bytes₁ address)).run.run w = .ok ⟨⟩ w₁ ∧
        w₁.datagrams = w.datagrams ++ [(w.this.firstReply bytes₁, address)] ∧
        ∀ between w₂, Reaches ServerStep.run w₁ between w₂ → KeepsQuiet address between →
          ∃ w₃, (ServerStep.receive (.datagram bytes₂ address)).run.run w₂ = .ok ⟨⟩ w₃ ∧
            w₃.datagrams = w₂.datagrams ++ [(w.this.secondReply address request, address)] ∧
            ∃ client, w₃.this.router.connectedClients.lookup address = some client ∧
              client.IsFresh ∧ client.mtu = .ofNat bytes₁.length ∧
              client.guid = request.clientGuid := by
  have hsettled : ∀ {steps : List ServerStep} {w : ServerWorld},
      Reaches ServerStep.run start steps w → w.host.company.RentsAtOnce ∧
        w.host.company.bufferSize = config.rentedBufferSize := fun hreach => by
    have hsettled := settled_of_reaches hpositive hstart hreach
    exact ⟨hsettled.pooled.backs.rentsAtOnce hsettled.room,
      hsettled.pooled.backs.configured.bufferSize⟩
  obtain ⟨request, hrequest⟩ := h₂.decodes
  obtain ⟨hrent, hsize⟩ := hsettled hreach
  obtain ⟨⟨⟩, w₁, hrun₁, hsent₁⟩ := sendsTo_first address hrent (hsize ▸ h₁)
  refine ⟨request, hrequest, w₁, hrun₁, hsent₁, fun between w₂ hbetween hquiet => ?_⟩
  have hreach₁ := hreach.snoc hrun₁
  have hreach₂ := hreach₁.trans hbetween
  obtain ⟨hrent₂, hsize₂⟩ := hsettled hreach₂
  -- the offer of the first request is still there, and there is no session
  obtain ⟨⟨time, hoffer⟩, hsessions⟩ := table_of_first hrun₁ (hsize ▸ h₁)
  obtain ⟨hoffers₂, hsessions₂⟩ := table_of_keepsQuiet hbetween hquiet
  have hmid : w₂.this.midConnectionClients.lookup address = _ := hoffers₂.trans hoffer
  have hnew₂ : address ∉ w₂.this.router.connectedClients := by
    refine notMem_of_sessions (hsessions₂.trans ?_)
    rw [hsessions]
    exact congrArg (Option.map _) (AList.lookup_eq_none.mpr hnew)
  rw [← hsize₂] at h₂
  have hfits : 101 ≤ w₂.host.company.bufferSize := by
    rw [hsize₂]
    exact h₁.long.trans h₁.fits
  have hmem : address ∈ w₂.this.midConnectionClients := by
    rw [← AList.lookup_isSome, hmid]
    rfl
  obtain ⟨⟨⟩, w₃, hrun₃, hsent₃⟩ := sendsTo_second hrent₂ h₂ hfits hmem hrequest
  obtain ⟨request', hrequest', hclient⟩ := lookup_second hrun₃ ⟨rfl, h₂.fits⟩ h₂.id hmid hnew₂
  cases hrequest.symm.trans hrequest'
  refine ⟨w₃, hrun₃, ?_, _, hclient, rfl, rfl, rfl⟩
  have hguid : w₂.this.serverGuid = w.this.serverGuid :=
    (settings_of_reaches hreach₂).1.trans (settings_of_reaches hreach).1.symm
  rw [hsent₃, RakServer.secondReply, hguid]
  rfl

end Runs

/-- Another address connects while the first one does. -/
theorem connects_of_requests_other :
    ∃ request, OpenConnectionRequest2.decode secondRequest = some request ∧
      ∃ w₁, (ServerStep.receive (.datagram (firstRequest 6) { sAddr := 1 })).run.run
          (afterAll ServerStep.run threeServer (handshake 6 ++ [asks 0])) = .ok ⟨⟩ w₁ ∧
        w₁.datagrams =
          (afterAll ServerStep.run threeServer (handshake 6 ++ [asks 0])).datagrams ++
            [((afterAll ServerStep.run threeServer (handshake 6 ++ [asks 0])).this.firstReply
              (firstRequest 6), { sAddr := 1 })] ∧
        ∀ between w₂, Reaches ServerStep.run w₁ between w₂ → KeepsQuiet { sAddr := 1 } between →
          ∃ w₃, (ServerStep.receive (.datagram secondRequest { sAddr := 1 })).run.run w₂ =
              .ok ⟨⟩ w₃ ∧
            w₃.datagrams = w₂.datagrams ++
              [((afterAll ServerStep.run threeServer (handshake 6 ++ [asks 0])).this.secondReply
                { sAddr := 1 } request, { sAddr := 1 })] ∧
            ∃ client, w₃.this.router.connectedClients.lookup { sAddr := 1 } = some client ∧
              client.IsFresh ∧ client.mtu = .ofNat (firstRequest 6).length ∧
              client.guid = request.clientGuid :=
  connects_of_requests ⟨by decide, by decide, by decide⟩ threeServer_started threeServer_asked
    ⟨by decide, by decide +kernel, by decide, by decide⟩
    ⟨by decide, by decide, by decide, by decide⟩ (by decide +kernel)

end Rakro
