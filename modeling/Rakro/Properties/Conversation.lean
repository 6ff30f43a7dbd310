import Rakro.Properties.AnyMagic
import Rakro.Properties.PacketReplies
import Rakro.Properties.PoolLevel
import Mathlib.Algebra.Order.Pi

/-!
# What the server sends

A step of the server sends only to the address that its datagram came from, and only what the
datagram asks for: a message of the handshake, or what a connected client answers to the frames of
it. `Exchanged` says so of any part of a step, however it ends, and keeps the account
of `Answered` for each address.
-/

namespace Rakro

open Infra BinaryBuffer

/-! ## The replies -/

/-- What the server may send to `address` for a datagram of it. -/
inductive Reply (server : RakServer) (address : IPV4Addr) (bytes : Bytes) : Bytes → Prop
  | unconnectedPong {time : UInt64} {serverId : StdString} :
      bytes[0]? = some PacketId.unconnectedPing1.toUnderlying → server.serverId = some serverId →
      Reply server address bytes
        ({ time, serverId, serverGuid := server.serverGuid } : UnconnectedPong).bytes
  | incompatibleProtocol {version : UInt8} :
      bytes[0]? = some PacketId.openConnectionRequest1.toUnderlying → bytes[17]? = some version →
      version ≠ server.protocolVersion → Reply server address bytes
        ({ clientProtocol := version, serverGuid := server.serverGuid } :
          IncompatibleProtocol).bytes
  | openConnectionReply1 : bytes[0]? = some PacketId.openConnectionRequest1.toUnderlying →
      bytes[17]? = some server.protocolVersion → Reply server address bytes
        ({ serverGuid := server.serverGuid, mtu := .ofNat bytes.length } :
          OpenConnectionReply1).bytes
  | openConnectionReply2 {request : OpenConnectionRequest2} :
      bytes[0]? = some PacketId.openConnectionRequest2.toUnderlying →
      OpenConnectionRequest2.decode bytes = some request →
      address ∈ server.midConnectionClients → Reply server address bytes
        ({ serverGuid := server.serverGuid, mtu := request.mtu, clientAddress := .fromIpv4 address } :
          OpenConnectionReply2).bytes
  | answer {client : RakroServerClient} {out : Bytes} :
      server.router.connectedClients.lookup address = some client → client.Replies bytes out →
      Reply server address bytes out

/-- What may be sent in a step: a reply to the address that its datagram comes from. -/
def ServerStep.Allows (step : ServerStep) (server : RakServer) (datagram : Bytes × IPV4Addr) :
    Prop :=
  ∃ bytes, step = .receive (.datagram bytes datagram.2) ∧
    Reply server datagram.2 bytes datagram.1

/-! ## The account of the server -/

/-- What goes to the address. -/
def bytesTo (a : IPV4Addr) (datagrams : List (Bytes × IPV4Addr)) : Nat :=
  bytesOf (datagrams.filter fun datagram => datagram.2 = a)

theorem bytesTo_append (a : IPV4Addr) (new more : List (Bytes × IPV4Addr)) :
    bytesTo a (new ++ more) = bytesTo a new + bytesTo a more := by
  unfold bytesTo
  rw [List.filter_append, bytesOf_append]

theorem bytesTo_of_forall {address : IPV4Addr} {new : List (Bytes × IPV4Addr)}
    (h : ∀ datagram ∈ new, datagram.2 = address) (a : IPV4Addr) :
    bytesTo a new = Pi.single (M := fun _ => Nat) address (bytesOf new) a := by
  unfold bytesTo
  rw [Pi.single_apply]
  split
  · next ha =>
    rw [List.filter_eq_self.mpr fun datagram hmem => decide_eq_true (by rw [h datagram hmem, ha])]
  · next ha =>
    rw [List.filter_eq_nil_iff.mpr fun datagram hmem => by
      rw [decide_eq_true_eq, h datagram hmem]
      exact Ne.symm ha]
    rfl

/-- What may be sent to the address for the frames that its client has stored. -/
def ServerWorld.owed (w : ServerWorld) (a : IPV4Addr) : Nat :=
  (w.this.router.connectedClients.lookup a).elim 0 RakroServerClient.owed

/-- Each client is at its own address. -/
def ServerWorld.Addressed (w : ServerWorld) : Prop :=
  AllEntries (fun address (client : RakroServerClient) => client.address = address)
    w.this.router.connectedClients

/-- From `w` to `w'`, the server sends the datagrams `new`. -/
structure Exchanging (allowed : Bytes × IPV4Addr → Prop) (c : IPV4Addr → Nat)
    (w w' : ServerWorld) (new : List (Bytes × IPV4Addr)) : Prop where
  datagrams : w'.datagrams = w.datagrams ++ new
  replies : ∀ datagram ∈ new, allowed datagram
  filed : ∀ a client, w'.this.router.connectedClients.lookup a = some client →
    ∀ index b, client.ackBuffer.lookup index = some b → (∃ earlier : RakroServerClient,
      w.this.router.connectedClients.lookup a = some earlier ∧
        earlier.ackBuffer.lookup index = some b) ∨ (b.consumedSlice, a) ∈ new
  paid : ∀ a, bytesTo a new + w'.owed a ≤ c a + w.owed a

/--
The server has only sent what is allowed, to an address `a` of `c a` bytes together and what had been
saved up, and what newly waits for an acknowledgement is a part of it.
-/
def Exchanged (allowed : Bytes × IPV4Addr → Prop) (c : IPV4Addr → Nat) (w w' : ServerWorld) :
    Prop :=
  w.Addressed → w'.Addressed ∧ ∃ new, Exchanging allowed c w w' new

section Exchanged

variable {allowed : Bytes × IPV4Addr → Prop} {c d : IPV4Addr → Nat} {w w' w'' : ServerWorld}

theorem Exchanging.append {new more : List (Bytes × IPV4Addr)}
    (h : Exchanging allowed c w w' new) (h' : Exchanging allowed d w' w'' more) :
    Exchanging allowed (c + d) w w'' (new ++ more) where
  datagrams := by rw [h'.datagrams, h.datagrams, List.append_assoc]
  replies datagram hmem := by
    rcases List.mem_append.mp hmem with hmem | hmem
    · exact h.replies datagram hmem
    · exact h'.replies datagram hmem
  filed a client hclient index b hlookup := by
    rcases h'.filed a client hclient index b hlookup with ⟨earlier, hearlier, hlookup⟩ | hmem
    · rcases h.filed a earlier hearlier index b hlookup with hbefore | hmem
      · exact .inl hbefore
      · exact .inr (List.mem_append_left _ hmem)
    · exact .inr (List.mem_append_right _ hmem)
  paid a := by
    have hpaid := h.paid a
    have hpaid' := h'.paid a
    rw [bytesTo_append, Pi.add_apply]
    omega

/-- Nothing is sent, and the clients are as they were. -/
theorem exchanged_same (hdatagrams : w'.datagrams = w.datagrams)
    (hclients : w'.this.router.connectedClients = w.this.router.connectedClients) :
    Exchanged allowed 0 w w' := by
  intro haddressed
  refine ⟨by unfold ServerWorld.Addressed; rwa [hclients], [], ?_, nofun, ?_, ?_⟩
  · rw [hdatagrams, List.append_nil]
  · intro a client hclient index b hlookup
    exact .inl ⟨client, hclients ▸ hclient, hlookup⟩
  · intro a
    unfold ServerWorld.owed
    rw [hclients]
    exact Nat.le_refl _

instance (allowed : Bytes × IPV4Addr → Prop) : IsGraded (Exchanged allowed) where
  refl w := exchanged_same rfl rfl
  trans h h' := by
    intro haddressed
    obtain ⟨haddressed, new, hnew⟩ := h haddressed
    obtain ⟨haddressed, more, hmore⟩ := h' haddressed
    exact ⟨haddressed, new ++ more, hnew.append hmore⟩
  mono hle h := by
    intro haddressed
    obtain ⟨haddressed, new, hnew⟩ := h haddressed
    exact ⟨haddressed, new, hnew.datagrams, hnew.replies, hnew.filed, fun a =>
      (hnew.paid a).trans (Nat.add_le_add_right (hle a) _)⟩

end Exchanged

/-- For the datagram, which comes in `w`, only replies are sent, of `k` times its bytes. -/
abbrev Exchanges (k : Nat) (bytes : Bytes) (address : IPV4Addr) (w w' : ServerWorld) : Prop :=
  Exchanged ((ServerStep.receive (.datagram bytes address)).Allows w.this)
    (Pi.single address (k * bytes.length)) w w'

/-! ## What sends nothing -/

/-- The server is as it was, and the socket has sent nothing. -/
structure Hushed (w w' : ServerWorld) : Prop where
  this : w'.this = w.this
  datagrams : w'.datagrams = w.datagrams

instance : IsPreorder ServerWorld Hushed where
  refl _ := ⟨rfl, rfl⟩
  trans _ _ _ h h' := ⟨h'.1.trans h.1, h'.2.trans h.2⟩

section Hushed

variable {α : Type} {allowed : Bytes × IPV4Addr → Prop} {w w' : ServerWorld}

/-- Where nothing is sent, the exchange is empty. -/
theorem Hushed.exchanged (h : Hushed w w') : Exchanged allowed 0 w w' :=
  exchanged_same h.datagrams (by rw [h.this])

theorem exchanged_of_hushed {m : ServerM α} (h : Within Hushed m) :
    Within (Exchanged allowed 0) m := h.mono fun _ _ => Hushed.exchanged

theorem hushed_readFrom (b : BinaryBuffer) (method : BufM α) :
    Within Hushed (readFrom b method) := by
  intro w
  unfold readFrom after EStateM.run
  cases method b <;> exact refl w

theorem hushed_modifyCompany (f : BufferCompany → BufferCompany) :
    Within Hushed (modifyCompany f) := fun _ => ⟨rfl, rfl⟩

theorem hushed_writeInto (b : BinaryBuffer) (method : BufM PUnit) :
    Within Hushed (writeInto b method) :=
  Within.bind (hushed_readFrom b method) fun _ => Within.bind (hushed_modifyCompany _) fun _ =>
    Within.pure _

theorem hushed_time : Within Hushed (onRouter routerTime) := fun _ => ⟨rfl, rfl⟩

theorem hushed_serverEmit {event : Event} (h : event.datagram? = none) :
    Within Hushed (serverEmit event) := by
  refine fun w => ⟨rfl, ?_⟩
  show (w.host.trace ++ [event]).filterMap Event.datagram? = w.host.trace.filterMap Event.datagram?
  rw [List.filterMap_append, List.filterMap_cons_none h, List.filterMap_nil, List.append_nil]

theorem hushed_serverDebug (call : DebugCall) : Within Hushed (serverDebug call) :=
  Within.bind Within.get fun _ => Within.ite (hushed_serverEmit rfl) (Within.pure _)

theorem hushed_serverRelease (buffer : RentedBuffer) : Within Hushed (serverRelease buffer) :=
  hushed_modifyCompany _

theorem hushed_serverRent : Within Hushed serverRent := by
  refine Within.bind Within.get fun w => ?_
  split
  · exact Within.bind (hushed_modifyCompany _) fun _ => Within.pure _
  · exact Within.throw _

/-- Receiving sends nothing. -/
theorem hushed_nextDatagram (arrival : Arrival) : Within Hushed (nextDatagram arrival) := by
  refine Within.bind hushed_serverRent fun _ => Within.bind ?_ ?_
  · cases arrival with
    | failed errorCode => exact Within.pure _
    | datagram bytes address => exact Within.bind (hushed_modifyCompany _) fun _ => Within.pure _
  · rintro ⟨rawData, _ | ⟨leng, address⟩⟩
    · exact Within.ite (Within.bind (hushed_serverRelease _) fun _ => Within.pure _) (Within.throw _)
    · refine Within.ite (Within.bind (hushed_serverRelease _) fun _ => Within.pure _) ?_
      split
      · exact Within.pure _
      · exact Within.throw _

end Hushed

/-! ## Sending a reply -/

section Sending

variable {α : Type} {allowed : Bytes × IPV4Addr → Prop} {address : IPV4Addr} {w w' : ServerWorld}
  {b : BinaryBuffer}

theorem exchanged_serverEmit {out : Bytes} (h : allowed (out, address)) :
    Within (Exchanged allowed (Pi.single address out.length)) (serverEmit (.sent out address)) := by
  intro w haddressed
  refine ⟨haddressed, [(out, address)], ?_, ?_, ?_, ?_⟩
  · exact List.filterMap_append
  · intro datagram hmem
    rw [List.mem_singleton.mp hmem]
    exact h
  · exact fun a client hclient index b hlookup => .inl ⟨client, hclient, hlookup⟩
  · intro a
    rw [bytesTo_of_forall fun datagram hmem => congrArg Prod.snd (List.mem_singleton.mp hmem)]
    exact Nat.le_refl _

theorem exchanged_serverSendTo {out : Bytes} (h : allowed (out, address)) (packet : PacketId) :
    Within (Exchanged allowed (Pi.single address out.length)) (serverSendTo out address packet) :=
  Within.free_bind (exchanged_of_hushed (hushed_serverDebug _)) fun _ => exchanged_serverEmit h

/-- What has been written into a cleared buffer is in front of its cursor. -/
theorem writeInto_eq_ok {T : Type} [BinaryData T] {v : T} {enc : Bytes}
    (hm : Emits (BinaryData.write v) enc) (hlen : enc.length < 2 ^ 64) {b' : BinaryBuffer}
    (h : (writeInto b.clear (write v)).run w = .ok b' w') : b'.consumedSlice = enc := by
  obtain ⟨⟨_, written⟩, w₁, hread, hrest⟩ := bind_eq_ok h
  cases hrest
  obtain ⟨hrun, -⟩ := readFrom_eq_ok hread
  obtain ⟨_, b₁, hcheck, hrun⟩ := bind_eq_ok hrun
  obtain rfl := boundsCheck_eq_ok hcheck
  have hclear : b.clear = ({ b with beyond := [] } : BinaryBuffer).between [] (b.bytes ++ b.beyond) :=
    rfl
  rw [hclear] at hrun
  by_cases hroom : enc.length ≤ (b.bytes ++ b.beyond).length
  · obtain ⟨old, rest, hold, hsplit⟩ := exists_split hroom
    rw [hsplit, hm.writes _ _ _ _ hold] at hrun
    cases hrun
    exact between_consumedSlice _ _ _
  · obtain ⟨e, b'', herror⟩ := hm.overflows { b with beyond := [] } [] (b.bytes ++ b.beyond)
      (by rw [List.length_nil]; omega) (by omega)
    cases hrun.symm.trans herror

/-- A reply is written, and then it is sent. -/
theorem exchanged_reply {T : Type} [BinaryData T] {v : T} {enc : Bytes}
    (hm : Emits (BinaryData.write v) enc) (hlen : enc.length < 2 ^ 64)
    (hallowed : allowed (enc, address)) (packet : PacketId) {f : BinaryBuffer → ServerM α}
    (hf : ∀ b', Within (Exchanged allowed 0) (f b')) :
    Within (Exchanged allowed (Pi.single address enc.length))
      (writeInto b.clear (write v) >>= fun buffer =>
        serverSendTo buffer.consumedSlice address packet >>= fun _ => f buffer) := by
  have hwrite : Within (Exchanged allowed 0) (writeInto b.clear (write v)) :=
    exchanged_of_hushed (hushed_writeInto _ _)
  refine (hwrite.bind_of_run fun w b' w' hrun => ?_).more (zero_add _).le
  rw [writeInto_eq_ok hm hlen hrun]
  exact (exchanged_serverSendTo hallowed packet).bind_free fun _ => hf b'

end Sending

/-! ## The messages of an address that connects -/

section Messages

variable {address : IPV4Addr} {w : ServerWorld} {b : BinaryBuffer} {id : UInt8} {body : Bytes}
  {k : Nat}

/-- A first part that is silent leaves it to the rest. -/
theorem exchanged_hushed_bind {α β : Type} {allowed : Bytes × IPV4Addr → Prop} {c : IPV4Addr → Nat}
    {m : ServerM α} {f : α → ServerM β} (hm : Within Hushed m) (hf : ∀ a w', m.run w = .ok a w' →
      w'.this = w.this → Exchanged allowed c w' (after (f a) w')) :
    Exchanged allowed c w (after (m >>= f) w) := by
  have h := graded_after_bind (hm w).exchanged fun a w' hrun =>
    hf a w' hrun (hm.of_run hrun).this
  rwa [zero_add] at h

/-- A ping is answered to its sender, and pays for the answer. -/
theorem exchanges_unconnectedPing
    (hid : PacketId.ofByte id = some .unconnectedPing1)
    (hk : ∀ serverId ∈ w.this.serverId, 35 + serverId.chars.length ≤ 33 * k) :
    Exchanges k (id :: body) address w
      (after (unconnectedPing (b.between [id] body) address) w) := by
  refine exchanged_hushed_bind (hushed_readFrom _ _) fun r w' hrun hsame => ?_
  obtain ⟨hread, rfl⟩ := readFrom_eq_ok hrun
  have hlong : 32 ≤ body.length :=
    length_of_succeeds_readNext (show 1 + 32 ≤ 2 ^ 64 by decide) ⟨_, _, hread⟩
  dsimp only
  rw [after_get_bind]
  cases hserver : w.this.serverId with
  | none => exact IsGraded.mono zero_le (IsGraded.refl w)
  | some serverId =>
    refine exchanged_hushed_bind hushed_time fun time w' _ hsame' => ?_
    rw [after_get_bind, hsame']
    have hlt := serverId.length_lt
    have hlength := UnconnectedPong.length_bytes
      { time, serverId, serverGuid := w.this.serverGuid }
    dsimp only at hlength
    have hreply : Reply w.this address (id :: body)
        ({ time, serverId, serverGuid := w.this.serverGuid } : UnconnectedPong).bytes :=
      .unconnectedPong (by rw [PacketId.ofByte_eq_some.mp hid]; rfl) hserver
    refine IsGraded.mono (Pi.single_mono address ?_) (exchanged_reply (emits_pongFields _)
      (by omega) ⟨_, rfl, hreply⟩ _ (fun _ => free_pure _) w')
    -- a ping has 33 bytes
    have hfits := hk serverId hserver
    have hmul : k * 33 ≤ k * (id :: body).length :=
      Nat.mul_le_mul_left k (by rw [List.length_cons]; omega)
    omega

/-- The version and the MTU of a first request are in the datagram. -/
theorem readRequest1_eq_ok {request : OpenConnectionRequest1} {b' : BinaryBuffer}
    (h : (readNext OpenConnectionRequest1).run (b.between [id] body) = .ok request b') :
    100 ≤ body.length ∧ request.mtu = .ofNat (id :: body).length ∧
      (id :: body)[17]? = some request.protoVersion := by
  have hlong : 100 ≤ body.length :=
    length_of_succeeds_readNext (show 1 + 100 ≤ 2 ^ 64 by decide) ⟨_, _, h⟩
  refine ⟨hlong, mtu_of_readRequest1 h, ?_⟩
  obtain ⟨bs, r, hbs, rfl⟩ := exists_split (n := 16) (r := body) (by omega)
  rw [List.length_append] at hlong
  obtain ⟨version, rest, rfl⟩ := List.exists_cons_of_length_pos (l := r) (by omega)
  rw [List.length_cons] at hlong
  rw [run_readRequest1 b [id] version hbs (by omega)] at h
  injection h with hrequest
  rw [← hrequest, List.getElem?_cons_succ, List.getElem?_append_right (by omega), hbs]
  rfl

theorem exchanges_openConnectionRequest1
    (hid : PacketId.ofByte id = some .openConnectionRequest1) (hk : 14 ≤ k) :
    Exchanges k (id :: body) address w
      (after (openConnectionRequest1 (b.between [id] body) address) w) := by
  refine exchanged_hushed_bind (hushed_readFrom _ _) fun r w' hrun hsame => ?_
  obtain ⟨hread, rfl⟩ := readFrom_eq_ok hrun
  obtain ⟨hlong, hmtu, hversion⟩ := readRequest1_eq_ok hread
  have hid' : (id :: body)[0]? = some PacketId.openConnectionRequest1.toUnderlying := by
    rw [PacketId.ofByte_eq_some.mp hid]
    rfl
  have hmul : 14 * 28 ≤ k * (id :: body).length :=
    Nat.mul_le_mul hk (by rw [List.length_cons]; omega)
  dsimp only
  rw [after_get_bind]
  -- the entry of the address on its way is none of the clients
  have hrest : ∀ buffer : BinaryBuffer, Within
      (Exchanged ((ServerStep.receive (.datagram (id :: body) address)).Allows w.this) 0)
      (onRouter routerTime >>= fun connectionTime => (modify fun w : ServerWorld =>
        { w with this :=
            { w.this with
              midConnectionClients :=
                w.this.midConnectionClients.insert address
                  { connectionTime, mtu := r.1.mtu } } }) >>= fun _ =>
        (pure buffer : ServerM BinaryBuffer)) := fun buffer =>
    Within.free_bind (exchanged_of_hushed hushed_time) fun _ => Within.free_bind
      (fun _ => exchanged_same rfl rfl) fun _ => free_pure _
  unfold replyOne
  split
  · next hne =>
    have hlength := IncompatibleProtocol.length_bytes
      { clientProtocol := r.1.protoVersion, serverGuid := w.this.serverGuid }
    refine IsGraded.mono (Pi.single_mono address ?_) (exchanged_reply (emits_incompatibleFields _)
      (by omega) ⟨_, rfl, .incompatibleProtocol hid' hversion hne⟩ _ hrest w)
    omega
  · next heq =>
    have hlength := OpenConnectionReply1.length_bytes
      { serverGuid := w.this.serverGuid, mtu := r.1.mtu }
    refine IsGraded.mono (Pi.single_mono address ?_) (exchanged_reply (emits_reply1Fields _)
      (by omega) ?_ _ hrest w)
    · omega
    · rw [hmtu]
      exact ⟨_, rfl, .openConnectionReply1 hid' (by rw [hversion, not_not.mp heq])⟩

/-- A client that is new has nothing stored and nothing sent. -/
theorem exchanged_connectClient {allowed : Bytes × IPV4Addr → Prop} (mid : SemiConnectedClient)
    (guid : UInt64) (debugger : Option DebugInstrument) (serverStartTime : UInt64) :
    Within (Exchanged allowed 0)
      (onRouter (connectClient address mid guid debugger serverStartTime)) := by
  intro w
  by_cases hmem : address ∈ w.this.router.connectedClients
  · rw [after_of_ok (run_onRouter_ok (run_connectClient_known hmem))]
    exact IsGraded.refl w
  · rw [after_of_ok (run_onRouter_ok (run_connectClient_new hmem))]
    intro haddressed
    refine ⟨AllEntries.insert haddressed rfl, [], (List.append_nil _).symm, nofun, ?_, ?_⟩
    · intro a client hclient index b hlookup
      by_cases ha : a = address
      · subst ha
        cases (AList.lookup_insert _).symm.trans hclient
        cases hlookup
      · exact .inl ⟨client, (AList.lookup_insert_ne ha).symm.trans hclient, hlookup⟩
    · intro a
      show 0 + ((w.this.router.connectedClients.insert address _).lookup a).elim 0 _ ≤ _
      by_cases ha : a = address
      · rw [ha, AList.lookup_insert]
        exact Nat.zero_le _
      · rw [AList.lookup_insert_ne ha]
        exact Nat.le_refl _

theorem exchanges_openConnectionRequest2
    (hid : PacketId.ofByte id = some .openConnectionRequest2) (hk : 14 ≤ k) :
    Exchanges k (id :: body) address w
      (after (openConnectionRequest2 (b.between [id] body) address) w) := by
  refine exchanged_hushed_bind (hushed_readFrom _ _) fun r w' hrun hsame => ?_
  obtain ⟨hread, rfl⟩ := readFrom_eq_ok hrun
  have hlong : 33 ≤ body.length :=
    length_of_succeeds_readNext (show 1 + 33 ≤ 2 ^ 64 by decide) ⟨_, _, hread⟩
  have hmul : 14 * 34 ≤ k * (id :: body).length :=
    Nat.mul_le_mul hk (by rw [List.length_cons]; omega)
  dsimp only
  rw [after_get_bind]
  cases hmid : w.this.midConnectionClients.lookup address with
  | none => exact IsGraded.mono zero_le (IsGraded.refl w)
  | some mid =>
    dsimp only
    have hmem : address ∈ w.this.midConnectionClients := by
      rw [← AList.lookup_isSome, hmid]
      rfl
    have hreply : Reply w.this address (id :: body) _ :=
      .openConnectionReply2 (by rw [PacketId.ofByte_eq_some.mp hid]; rfl) (decode_eq_some hread) hmem
    have hlength := OpenConnectionReply2.length_bytes
      { serverGuid := w.this.serverGuid, mtu := r.1.mtu, clientAddress := .fromIpv4 address }
    refine IsGraded.mono (Pi.single_mono address ?_)
      (Within.free_bind (exchanged_connectClient _ _ _ _) (fun _ => exchanged_reply
        (emits_reply2Fields _) (by omega) ⟨_, rfl, hreply⟩ _ fun _ => free_pure _) w)
    omega

end Messages

/-! ## A routed datagram -/

section Routed

variable {address : IPV4Addr} {w : ServerWorld} {b : BinaryBuffer}

/-- What an address is owed is what its client holds back. -/
theorem owed_of_lookup {client : RakroServerClient}
    (h : w.this.router.connectedClients.lookup address = some client) :
    w.owed address = client.owed := by
  unfold ServerWorld.owed
  rw [h]
  rfl

/-- The client goes back into the map with what has become of it. -/
theorem exchanged_store {allowed : Bytes × IPV4Addr → Prop} {c : Nat}
    {client : RakroServerClient} {v : World} {rw' : RouterWorld}
    (hrw : rw' = w.routing.store address v)
    (hclient : w.this.router.connectedClients.lookup address = some client)
    (haddress : v.this.address = client.address) {new : List (Bytes × IPV4Addr)}
    (hnew : Answering (fun out => allowed (out, address)) client.address c
      (w.routing.entered client) v new) : Exchanged allowed (Pi.single address c) w
      { this := { w.this with router := rw'.router }, host := rw'.host } := by
  subst hrw
  intro haddressed
  rw [haddressed address client hclient] at haddress hnew
  refine ⟨AllEntries.insert haddressed haddress, new, hnew.datagrams, ?_, ?_, ?_⟩
  · rintro ⟨out, a⟩ hmem
    obtain ⟨rfl, hallowed⟩ := hnew.answers _ hmem
    exact hallowed
  · intro a client' hclient' index b hlookup
    by_cases ha : a = address
    · subst ha
      cases (AList.lookup_insert _).symm.trans hclient'
      rcases hnew.filed index b hlookup with hlookup | hmem
      · exact .inl ⟨client, hclient, hlookup⟩
      · exact .inr hmem
    · exact .inl ⟨client', (AList.lookup_insert_ne ha).symm.trans hclient', hlookup⟩
  · intro a
    rw [bytesTo_of_forall fun datagram hmem => (hnew.answers datagram hmem).1]
    show _ + ((w.this.router.connectedClients.insert address v.this).lookup a).elim 0 _ ≤ _
    by_cases ha : a = address
    · subst ha
      rw [AList.lookup_insert, Pi.single_eq_same, Pi.single_eq_same, owed_of_lookup hclient]
      exact hnew.paid
    · rw [AList.lookup_insert_ne ha, Pi.single_eq_of_ne ha, Pi.single_eq_of_ne ha]
      exact Nat.le_refl _

/-- A datagram of a client is answered to it, and pays for the answers. -/
theorem exchanges_route (hstart : b.index = 0) {bytes : Bytes} (hbytes : b.bytes = bytes)
    {k : Nat} (hk : 14 ≤ k) :
    Exchanges k bytes address w (after (onRouter (route address b)) w) := by
  have hmul : 14 * b.bytes.length ≤ k * bytes.length := by
    rw [hbytes]
    exact Nat.mul_le_mul_right _ hk
  cases hrun : w.this.router.connectedClients.lookup address with
  | none =>
    rw [after_of_ok (run_onRouter_ok (run_route_unknown hrun b))]
    exact IsGraded.mono (R := Exchanged _) zero_le (exchanged_same rfl rfl)
  | some client =>
    by_cases htimeout : w.this.router.timeout < w.host.clock 0 - client.lastPacket
    · -- what is owed to a client that is dropped is not sent
      rw [after_of_ok (run_onRouter_ok (run_route_timeout hrun htimeout b))]
      intro haddressed
      refine ⟨haddressed.erase address, [], (List.append_nil _).symm, nofun, ?_, ?_⟩
      · intro a client' hclient' index b' hlookup
        have ha : a ≠ address := by
          rintro rfl
          exact absurd ((AList.lookup_erase _ _).symm.trans hclient') nofun
        exact .inl ⟨client', (AList.lookup_erase_ne ha).symm.trans hclient', hlookup⟩
      · intro a
        show 0 + ((w.this.router.connectedClients.erase address).lookup a).elim 0 _ ≤ _
        by_cases ha : a = address
        · rw [ha, AList.lookup_erase]
          exact Nat.zero_le _
        · rw [AList.lookup_erase_ne ha, Nat.zero_add]
          exact Nat.le_add_left _ _
    · have hrouted := run_route_known
        (show w.routing.router.connectedClients.lookup address = _ from hrun) htimeout b
      obtain ⟨hsession, new, hnew⟩ := answering_processPacket hstart (w.routing.entered client)
      have haddress : _ = client.address := congrArg Session.address hsession
      have hallowed : ∀ out, (w.routing.entered client).this.Replies b.bytes out →
          (ServerStep.receive (.datagram bytes address)).Allows w.this (out, address) := by
        intro out hreplies
        rw [hbytes] at hreplies
        exact ⟨bytes, rfl, .answer hrun hreplies.of_lastPacket⟩
      have hnew : Answering _ client.address _ _ _ new := hnew.mono hallowed hmul
      cases hprocess : (processPacket b).run (w.routing.entered client) with
      | ok u v =>
        rw [hprocess] at hrouted
        rw [after_of_ok hprocess] at haddress hnew
        rw [after_of_ok (run_onRouter_ok hrouted)]
        exact exchanged_store rfl hrun haddress hnew
      | error e v =>
        rw [hprocess] at hrouted
        rw [after_of_error hprocess] at haddress hnew
        rw [after_of_error (run_onRouter_error hrouted)]
        exact exchanged_store rfl hrun haddress hnew

end Routed

/-! ## A step -/

section Step

variable {address : IPV4Addr} {w : ServerWorld} {b : BinaryBuffer} {id : UInt8} {body : Bytes}
  {size k : Nat}

/-- What an address has sent in the step. -/
def ServerStep.receivedFrom (a : IPV4Addr) : ServerStep → Nat
  | .receive (.datagram bytes address) => Pi.single (M := fun _ => Nat) address bytes.length a
  | _ => 0

/-- The id of the server has room in a pong of `k` times the bytes of a ping. -/
def PongFits (k : Nat) (serverId : StdString) : Prop := 35 + serverId.chars.length ≤ 33 * k

instance (k : Nat) (serverId : StdString) : Decidable (PongFits k serverId) := Nat.decLe _ _

/-- Every pong of the server, and everything else that it sends, is no more than `k` times as long. -/
structure Amplifies (k : Nat) (server : RakServer) : Prop where
  fourteen_le : 14 ≤ k
  pong : ∀ serverId ∈ server.serverId, PongFits k serverId

/-- Some factor is large enough for the name of the server. -/
theorem exists_amplifies (server : RakServer) : ∃ k, Amplifies k server := by
  cases hserver : server.serverId with
  | none => exact ⟨14, Nat.le_refl _, by simp [hserver]⟩
  | some serverId =>
    refine ⟨14 + serverId.chars.length, Nat.le_add_right _ _, fun id hid => ?_⟩
    rw [hserver] at hid
    cases hid
    unfold PongFits
    omega

/-- A datagram of a trivial kind is answered to its sender, if at all. -/
theorem exchanges_handlePacket (hb : Received b (id :: body) size) (hk : Amplifies k w.this) :
    Exchanges k (id :: body) address w (after (handlePacket b address) w) := by
  rw [after_congr (hb.run_handlePacket address)]
  split
  · next hid =>
    exact graded_bind_free (R := Exchanged _) (exchanges_unconnectedPing hid hk.pong) fun _ =>
      free_pure _
  · next hid =>
    exact graded_bind_free (R := Exchanged _) (exchanges_openConnectionRequest1 hid hk.fourteen_le)
      fun _ => free_pure _
  · next hid =>
    exact graded_bind_free (R := Exchanged _) (exchanges_openConnectionRequest2 hid hk.fourteen_le)
      fun _ => free_pure _
  · exact IsGraded.mono (R := Exchanged _) zero_le (IsGraded.refl w)

/-- A datagram of any kind is. -/
theorem exchanges_dispatch (hb : Received b (id :: body) size) (hk : Amplifies k w.this) :
    Exchanges k (id :: body) address w (after (dispatch b address) w) := by
  have hrun : (dispatch b address).run w = _ := run_bind_of_ok hb.run_isTrivialPacket
  rw [after_congr hrun]
  by_cases hid : id ∈ trivalPackets
  · rw [if_pos (decide_eq_true hid)]
    have hrelease : ∀ buffer, Within Hushed (serverRelease buffer) := hushed_serverRelease
    exact graded_bind_free (R := Exchanged _) (exchanges_handlePacket hb hk) fun r =>
      exchanged_of_hushed (Within.ite (hrelease _)
        (Within.bind (hushed_serverEmit rfl) fun _ => hrelease _))
  · rw [if_neg (by simpa using hid)]
    exact exchanges_route hb.start hb.bytes_eq hk.fourteen_le

/-- **However a step ends, it sends what it may, and no more than it may.** -/
theorem exchanged_step (hk : Amplifies k w.this) : ∀ step : ServerStep,
    Exchanged (step.Allows w.this) (fun a => k * step.receivedFrom a) w (after step.run w)
  | .updateServerId serverId => IsGraded.mono (R := Exchanged _) zero_le (exchanged_same rfl rfl)
  | .receive arrival => by
    refine exchanged_hushed_bind (hushed_nextDatagram arrival) fun r w' hrun hsame => ?_
    rcases nextDatagram_eq_ok hrun with ⟨rfl, -⟩ | ⟨b, bytes, address, rfl, rfl, hb⟩
    · exact IsGraded.mono (R := Exchanged _) zero_le (IsGraded.refl w')
    · obtain ⟨id, body, rfl⟩ := List.exists_cons_of_ne_nil hb.nonempty
      rw [← hsame] at hk
      have h : Exchanges k (id :: body) address w' (after (dispatch b address) w') :=
        exchanges_dispatch hb hk
      unfold Exchanges at h
      rw [hsame] at h
      refine IsGraded.mono (R := Exchanged _) (fun a => ?_) h
      show _ ≤ k * Pi.single (M := fun _ => Nat) address (id :: body).length a
      rw [Pi.single_apply, Pi.single_apply, mul_ite, mul_zero]

end Step

/-! ## The settings -/

/-- What the listener never changes. -/
structure SameSettings (w w' : ServerWorld) : Prop where
  serverId : w'.this.serverId = w.this.serverId
  serverGuid : w'.this.serverGuid = w.this.serverGuid
  protocolVersion : w'.this.protocolVersion = w.this.protocolVersion
  instrument : w'.this.instrument = w.this.instrument
  serverStartTime : w'.this.serverStartTime = w.this.serverStartTime

instance : IsPreorder ServerWorld SameSettings where
  refl _ := ⟨rfl, rfl, rfl, rfl, rfl⟩
  trans _ _ _ h h' :=
    ⟨h'.1.trans h.1, h'.2.trans h.2, h'.3.trans h.3, h'.4.trans h.4, h'.5.trans h.5⟩

section Settings

variable {α : Type}

theorem settings_of_same {m : ServerM α} (h : Within SameServer m) : Within SameSettings m :=
  h.mono fun _ _ hsame => by
    constructor <;> rw [hsame.this]

theorem settings_of_hushed {m : ServerM α} (h : Within Hushed m) : Within SameSettings m :=
  h.mono fun _ _ hsame => by
    constructor <;> rw [hsame.this]

theorem settings_onRouter (method : RouterM α) : Within SameSettings (onRouter method) := by
  intro w
  cases hrun : method.run w.routing with
  | ok a rw =>
    rw [after_of_ok (run_onRouter_ok hrun)]
    exact ⟨rfl, rfl, rfl, rfl, rfl⟩
  | error e rw =>
    rw [after_of_error (run_onRouter_error hrun)]
    exact ⟨rfl, rfl, rfl, rfl, rfl⟩

theorem settings_openConnectionRequest1 (b : BinaryBuffer) (address : IPV4Addr) :
    Within SameSettings (openConnectionRequest1 b address) := by
  refine Within.bind (settings_of_same (within_readFrom _ _)) fun _ => ?_
  refine Within.bind Within.get fun _ => ?_
  refine Within.bind (settings_of_same (within_writeInto _ _)) fun _ => ?_
  refine Within.bind (settings_of_same (within_serverSendTo _ _ _)) fun _ => ?_
  refine Within.bind (settings_onRouter _) fun _ => ?_
  refine Within.bind (fun _ => ⟨rfl, rfl, rfl, rfl, rfl⟩) fun _ => ?_
  exact Within.pure _

theorem settings_openConnectionRequest2 (b : BinaryBuffer) (address : IPV4Addr) :
    Within SameSettings (openConnectionRequest2 b address) := by
  refine Within.bind (settings_of_same (within_readFrom _ _)) fun _ =>
    Within.bind Within.get fun _ => ?_
  dsimp only
  split
  · exact Within.pure _
  · refine Within.bind (settings_onRouter _) fun _ => ?_
    refine Within.bind (settings_of_same (within_writeInto _ _)) fun _ => ?_
    refine Within.bind (settings_of_same (within_serverSendTo _ _ _)) fun _ => ?_
    exact Within.pure _

theorem settings_dispatch (b : BinaryBuffer) (address : IPV4Addr) :
    Within SameSettings (dispatch b address) := by
  have hrelease : ∀ buffer, Within SameSettings (serverRelease buffer) := fun buffer =>
    settings_of_hushed (hushed_serverRelease buffer)
  refine Within.bind (Within.bind (settings_of_same (within_readFrom _ _)) fun _ =>
    Within.pure _) fun _ => Within.ite (Within.bind ?_ fun _ => ?_) (settings_onRouter _)
  · refine Within.bind (settings_of_same (within_readFrom _ _)) fun _ => ?_
    dsimp only
    split
    · exact Within.bind (settings_of_same (within_unconnectedPing _ _)) fun _ => Within.pure _
    · exact Within.bind (settings_openConnectionRequest1 _ _) fun _ => Within.pure _
    · exact Within.bind (settings_openConnectionRequest2 _ _) fun _ => Within.pure _
    · exact Within.pure _
  · exact Within.ite (hrelease _) (Within.bind (settings_of_same (within_serverEmit _)) fun _ =>
      hrelease _)

/-- A round of the listener keeps the settings. -/
theorem settings_receive (arrival : Arrival) : Within SameSettings (RakServer.receive arrival) := by
  refine Within.bind (settings_of_hushed (hushed_nextDatagram arrival)) fun r => ?_
  cases r with
  | none => exact Within.pure _
  | some next => exact settings_dispatch _ _

/-- The next id of the server has room too. -/
theorem Amplifies.after {k : Nat} {w : ServerWorld} (hk : Amplifies k w.this) {step : ServerStep}
    (hstep : ∀ id, step = .updateServerId id → PongFits k id) :
    Amplifies k (after step.run w).this where
  fourteen_le := hk.fourteen_le
  pong := by
    cases step with
    | updateServerId id =>
      intro serverId hid
      cases hid
      exact hstep id rfl
    | receive arrival =>
      have hsame : (Infra.after (ServerStep.receive arrival).run w).this.serverId = _ :=
        (settings_receive arrival w).serverId
      rw [hsame]
      exact hk.pong

end Settings

/-! ## Runs -/

section Runs

variable {start : ServerWorld} {k : Nat}

/-- A server that has just started has no clients. -/
theorem addressed_of_started (hstart : start.Started) : start.Addressed := by
  unfold ServerWorld.Addressed
  rw [hstart.connected]
  exact allEntries_empty _

/-- In a run, every client stays under its own address. -/
theorem addressed_afterAll (hstart : start.Started) (steps : List ServerStep) :
    (afterAll ServerStep.run start steps).Addressed := by
  refine afterAll_induction (P := fun _ w => ServerWorld.Addressed w) (addressed_of_started hstart)
    (fun l step _ haddressed => ?_) steps (List.prefix_refl _)
  obtain ⟨k, hk⟩ := exists_amplifies (afterAll ServerStep.run start l).this
  exact (exchanged_step hk step haddressed).1

/--
**Whatever has happened to a started server, it sends only to the address that a datagram has just
come from, and only what is a reply to it.**
-/
theorem sends_replies (hstart : start.Started) (steps : List ServerStep) (step : ServerStep) :
    ∃ new, (afterAll ServerStep.run start (steps ++ [step])).datagrams =
        (afterAll ServerStep.run start steps).datagrams ++ new ∧
      ∀ datagram ∈ new, step.Allows (afterAll ServerStep.run start steps).this datagram := by
  obtain ⟨k, hk⟩ := exists_amplifies (afterAll ServerStep.run start steps).this
  obtain ⟨-, new, hnew⟩ := exchanged_step hk step (addressed_afterAll hstart steps)
  rw [afterAll_concat]
  exact ⟨new, hnew.datagrams, hnew.replies⟩

/-- What waits for an acknowledgement of a client is there to be sent to it again. -/
def ServerWorld.Filed (w : ServerWorld) (datagrams : List (Bytes × IPV4Addr)) : Prop :=
  ∀ a client, w.this.router.connectedClients.lookup a = some client →
    ∀ index b, client.ackBuffer.lookup index = some b → (b.consumedSlice, a) ∈ datagrams

/--
**Whatever waits for an acknowledgement has been sent to the address of its client, just as it
waits there.**
-/
theorem filed_of_started (hstart : start.Started) (steps : List ServerStep) :
    ∃ new, (afterAll ServerStep.run start steps).datagrams = start.datagrams ++ new ∧
      (afterAll ServerStep.run start steps).Filed new := by
  refine afterAll_induction
    (P := fun _ (w : ServerWorld) => ∃ new, w.datagrams = start.datagrams ++ new ∧ w.Filed new)
    ⟨[], (List.append_nil _).symm, ?_⟩ (fun l step _ ih => ?_) steps (List.prefix_refl _)
  · intro a client hclient
    rw [hstart.connected] at hclient
    cases hclient
  · obtain ⟨old, hold, hfiled⟩ := ih
    obtain ⟨k, hk⟩ := exists_amplifies (afterAll ServerStep.run start l).this
    obtain ⟨-, new, hnew⟩ := exchanged_step hk step (addressed_afterAll hstart l)
    refine ⟨old ++ new, by rw [hnew.datagrams, hold, List.append_assoc], ?_⟩
    intro a client hclient index b hlookup
    rcases hnew.filed a client hclient index b hlookup with ⟨earlier, hearlier, hbefore⟩ | hmem
    · exact List.mem_append_left _ (hfiled a earlier hearlier index b hbefore)
    · exact List.mem_append_right _ hmem

/-- What the address has sent in the steps. -/
def bytesFrom (a : IPV4Addr) (steps : List ServerStep) : Nat :=
  (steps.map (ServerStep.receivedFrom a)).sum

/-- The last step adds what it has received. -/
theorem bytesFrom_concat (a : IPV4Addr) (steps : List ServerStep) (step : ServerStep) :
    bytesFrom a (steps ++ [step]) = bytesFrom a steps + step.receivedFrom a := by
  unfold bytesFrom
  rw [List.map_append, List.sum_append, List.map_singleton, List.sum_singleton]

/--
**An address is sent no more than `k` times the bytes that it has sent itself**, when a pong has no
more than `k` times the bytes of a ping and `k` is 14 at least.
-/
theorem bytesTo_le_of_amplifies (hstart : start.Started) (hk : Amplifies k start.this)
    (steps : List ServerStep) (hids : ∀ id, .updateServerId id ∈ steps → PongFits k id) :
    ∃ new, (afterAll ServerStep.run start steps).datagrams = start.datagrams ++ new ∧
      ∀ a, bytesTo a new ≤ k * bytesFrom a steps := by
  suffices h : Amplifies k (afterAll ServerStep.run start steps).this ∧ ∃ new,
      (afterAll ServerStep.run start steps).datagrams = start.datagrams ++ new ∧
        ∀ a, bytesTo a new + (afterAll ServerStep.run start steps).owed a ≤ k * bytesFrom a steps by
    obtain ⟨-, new, hnew, hpaid⟩ := h
    exact ⟨new, hnew, fun a => (Nat.le_add_right _ _).trans (hpaid a)⟩
  refine afterAll_induction
    (P := fun l (w : ServerWorld) => Amplifies k w.this ∧ ∃ new,
      w.datagrams = start.datagrams ++ new ∧ ∀ a, bytesTo a new + w.owed a ≤ k * bytesFrom a l)
    ⟨hk, [], (List.append_nil _).symm, fun a => ?_⟩ (fun l step hl ih => ?_) steps
    (List.prefix_refl _)
  · unfold ServerWorld.owed
    rw [hstart.connected]
    rfl
  · obtain ⟨hamplifies, old, hold, hbefore⟩ := ih
    obtain ⟨-, new, hnew⟩ := exchanged_step hamplifies step (addressed_afterAll hstart l)
    refine ⟨hamplifies.after fun id hid => hids id ?_, old ++ new, ?_, fun a => ?_⟩
    · exact hl.subset (List.mem_append_right _ (List.mem_singleton.mpr hid.symm))
    · rw [hnew.datagrams, hold, List.append_assoc]
    · have hpaid := hnew.paid a
      have hearlier := hbefore a
      rw [bytesTo_append, bytesFrom_concat, Nat.mul_add]
      omega

end Runs

theorem threeServer_isStarted : threeServer.Started := ⟨threeServer, rfl, rfl⟩

/-- A request of a connected address, and the answer to it. -/
theorem sends_replies_asks : ∃ new,
    (afterAll ServerStep.run threeServer (handshake 6 ++ [asks 0])).datagrams =
        (afterAll ServerStep.run threeServer (handshake 6)).datagrams ++ new ∧
      ∀ datagram ∈ new,
        (asks 0).Allows (afterAll ServerStep.run threeServer (handshake 6)).this datagram :=
  sends_replies threeServer_isStarted (handshake 6) (asks 0)

/-- A NACK asks for what has been sent to be sent again, but it is not replied to. -/
example (server : RakServer) (address : IPV4Addr) (r out : Bytes) :
    ¬ Reply server address (PacketId.nack.toUnderlying :: r) out := by
  intro h
  cases h with
  | unconnectedPong hid | incompatibleProtocol hid | openConnectionReply1 hid
  | openConnectionReply2 hid => cases hid
  | answer _ hreplies =>
    obtain ⟨hset, -, -⟩ := hreplies
    have hid := hset.id
    obtain ⟨rfl, -⟩ := List.cons.inj hset.bytes
    exact absurd hid.2 (by decide)

/-- The datagrams of a handshake, a request and its answer. -/
theorem filed_asks : ∃ new,
    (afterAll ServerStep.run threeServer (handshake 6 ++ [asks 0])).datagrams =
        threeServer.datagrams ++ new ∧
      (afterAll ServerStep.run threeServer (handshake 6 ++ [asks 0])).Filed new :=
  filed_of_started threeServer_isStarted (handshake 6 ++ [asks 0])

/-- The same datagrams, counted. -/
theorem bytesTo_le_asks : ∃ new,
    (afterAll ServerStep.run threeServer (handshake 6 ++ [asks 0])).datagrams =
        threeServer.datagrams ++ new ∧
      ∀ a, bytesTo a new ≤ 14 * bytesFrom a (handshake 6 ++ [asks 0]) :=
  bytesTo_le_of_amplifies threeServer_isStarted ⟨Nat.le_refl _, by decide⟩ _
    (fun id hmem => by simp [handshake, asks] at hmem)

/-- A server without a name answers a ping of 33 bytes with 35, and `k` is 14 for all that. -/
example : bytesTo {} (afterAll ServerStep.run namedServer
    [.receive (.datagram (1 :: List.replicate 32 0) {})]).datagrams = 35 := by decide +kernel

end Rakro
