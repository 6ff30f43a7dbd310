import Rakro.Infra.Erasing
import Rakro.Infra.Holdings
import Rakro.Properties.Handshake

/-!
# The debug instrument only looks on

An instrument is told what the server and its clients do, and it is asked one question: whether to
throw on a frame that is stored already. One that always says yes, as the base class does and as a
client without an instrument acts, makes no difference: with all the instruments taken away, every
run goes on in the same way, but for the calls. That an instrument only looks on is part of
`DebugInstrument`: it neither changes what it is shown nor throws.
-/

namespace Rakro

open Infra

/-! ## Without the instruments -/

/-- A call of the debug instrument. -/
def Event.isDebug : Event → Bool
  | .debug _ => true
  | _ => false

/-- The host without the calls in its trace. -/
def Host.muted (host : Host) : Host :=
  { host with trace := host.trace.filter fun event => !event.isDebug }

/-- The client as it would be without an instrument. -/
def RakroServerClient.muted (client : RakroServerClient) : RakroServerClient :=
  { client with debugger := none }

/-- The state of a client as it would be without an instrument. -/
def World.muted (w : World) : World where
  this := w.this.muted
  host := w.host.muted

/-- What the instrument is asked it answers as if it were not there. -/
def DebugInstrument.Lenient (instrument : DebugInstrument) : Prop :=
  ∀ data info, instrument.unexpectedExistOfDataInOofBuffer data info = true

/-- The instrument of the client says yes, if it has one. -/
def RakroServerClient.Lenient (client : RakroServerClient) : Prop :=
  ∀ debugger ∈ client.debugger, debugger.Lenient

/-- The instrument of the client says yes. -/
def World.Lenient (w : World) : Prop := w.this.Lenient

/-- The method does the same without the instrument. -/
abbrev BlindClient {α : Type} (m : ClientM α) : Prop := Blind World.Lenient World.muted m

/-! ## The primitives -/

section Primitives

variable {α : Type}

/-- An update that treats the muted client alike is blind. -/
theorem blind_modifyThis {f : RakroServerClient → RakroServerClient}
    (hf : ∀ client, (f client).debugger = client.debugger ∧ f client.muted = (f client).muted) :
    BlindClient (modifyThis f) := by
  refine Blind.modify (fun w hw => ?_) fun w _ => congrArg (World.mk · _) (hf w.this).2
  show ∀ debugger ∈ (f w.this).debugger, _
  rw [(hf w.this).1]
  exact hw

theorem blind_modifyHost {f : Host → Host} (hf : ∀ host, f host.muted = (f host).muted) :
    BlindClient (modifyHost f) :=
  Blind.modify (fun _ hw => hw) fun w _ => congrArg (World.mk _) (hf w.host)

/-- An event that is not the instrument's shows in the muted trace. -/
theorem Host.muted_log (host : Host) {event : Event} (h : event.isDebug = false) :
    { host.muted with trace := host.muted.trace ++ [event] } =
      Host.muted { host with trace := host.trace ++ [event] } := by
  unfold Host.muted
  rw [List.filter_append, List.filter_singleton, h]
  rfl

theorem blind_emit {event : Event} (h : event.isDebug = false) : BlindClient (emit event) :=
  blind_modifyHost fun host => host.muted_log h

/-- A call of the instrument does not. -/
theorem Host.muted_call (host : Host) (call : DebugCall) :
    Host.muted { host with trace := host.trace ++ [.debug call] } = host.muted := by
  unfold Host.muted
  rw [List.filter_append, show [Event.debug call].filter _ = [] from rfl, List.append_nil]

/-- The call is not in the trace of the one, and nothing else comes of it. -/
theorem blind_debug (call : DebugCall) : BlindClient (debug call) := by
  intro w hw
  have hdebug : (debug call).run w =
      (if w.this.debugger.isSome then emit (.debug call) else pure ⟨⟩ : ClientM PUnit).run w := rfl
  have hmuted : (debug call).run w.muted = .ok ⟨⟩ w.muted := rfl
  rw [after_congr hdebug, hdebug, hmuted]
  by_cases h : w.this.debugger.isSome
  · rw [if_pos h, run_emit]
    exact ⟨hw, congrArg (fun host => EStateM.Result.ok _ (World.mk w.this.muted host))
      (w.host.muted_call call).symm⟩
  · rw [if_neg h]
    exact ⟨hw, rfl⟩

theorem blind_release (b : BinaryBuffer) : BlindClient (release b) :=
  blind_modifyHost fun _ => rfl

theorem blind_timeSinceEpoch : BlindClient timeSinceEpoch := fun _ hw => ⟨hw, rfl⟩

theorem blind_rent : BlindClient rent := by
  refine Blind.get_bind (fun _ _ => rfl) fun w _ => ?_
  split
  · exact Blind.bind (blind_modifyHost fun _ => rfl) fun _ => Blind.pure _
  · exact Blind.throw _

theorem blind_assert (condition : Bool) : BlindClient (rakroAssert condition) :=
  Blind.get_bind (fun _ _ => rfl) fun _ _ => Blind.ite (Blind.pure _) (Blind.throw _)

theorem blind_onBuffer (b : BinaryBuffer) (m : BufM α) : BlindClient (onBuffer b m) := by
  intro w hw
  cases h : m.run b with
  | ok a b' =>
    rw [after_of_ok (run_onBuffer_ok h), run_onBuffer_ok h, run_onBuffer_ok h]
    exact ⟨hw, rfl⟩
  | error e b' =>
    rw [after_of_error (run_onBuffer_error h), run_onBuffer_error h, run_onBuffer_error h]
    exact ⟨hw, rfl⟩

theorem blind_onSendBuffer (b : BinaryBuffer) (m : BufM α) : BlindClient (onSendBuffer b m) := by
  intro w hw
  cases h : m.run b with
  | ok a b' =>
    rw [after_of_ok (run_onSendBuffer_ok h), run_onSendBuffer_ok h, run_onSendBuffer_ok h]
    exact ⟨hw, rfl⟩
  | error e b' =>
    rw [after_of_error (run_onSendBuffer_error h), run_onSendBuffer_error h,
      run_onSendBuffer_error h]
    exact ⟨hw, rfl⟩

theorem blind_guarded {b : BinaryBuffer} {body : ClientM α} (hbody : BlindClient body) :
    BlindClient (guarded b body) := by
  intro w hw
  obtain ⟨hlenient, hrun⟩ := hbody w hw
  cases h : body.run w with
  | ok a w' =>
    rw [h] at hrun
    rw [after_of_ok h] at hlenient
    rw [after_of_ok (run_guarded_ok h), run_guarded_ok hrun, run_guarded_ok h]
    exact ⟨hlenient, rfl⟩
  | error e w' =>
    rw [h] at hrun
    rw [after_of_error h] at hlenient
    rw [after_of_error (run_guarded_error h), run_guarded_error hrun, run_guarded_error h]
    exact ⟨hlenient, rfl⟩

theorem blind_owning {b : BinaryBuffer} {body : ClientM α} (hbody : BlindClient body) :
    BlindClient (owning b body) :=
  Blind.bind (blind_guarded hbody) fun _ => Blind.bind (blind_release b) fun _ => Blind.pure _

end Primitives

/-! ## Replies -/

theorem blind_makeHeader : BlindClient makeHeader :=
  Blind.get_bind (fun _ _ => rfl) fun _ _ => Blind.pure _

theorem blind_keepSent (rely : FrameReliability) (sent : BinaryBuffer) :
    BlindClient (keepSent rely sent) := by
  refine Blind.ite (Blind.get_bind (fun _ _ => rfl) fun _ _ =>
    Blind.bind (blind_modifyThis fun _ => ⟨rfl, rfl⟩) fun _ => ?_) (blind_release _)
  exact Blind.get_bind (fun _ _ => rfl) fun _ _ =>
    Blind.ite (blind_release _) (blind_modifyThis fun _ => ⟨rfl, rfl⟩)

theorem blind_readyBuffer (b : BinaryBuffer) (rely : FrameReliability) :
    BlindClient (readyBuffer b rely) := by
  refine Blind.bind blind_rent fun _ => Blind.bind (blind_guarded ?_) fun _ =>
    Blind.bind (blind_keepSent _ _) fun _ => Blind.pure _
  refine Blind.bind blind_makeHeader fun _ => ?_
  refine Blind.bind (blind_onSendBuffer _ _) fun _ => ?_
  refine Blind.get_bind (fun _ _ => rfl) fun _ _ => ?_
  refine Blind.bind (blind_emit rfl) fun _ => ?_
  exact Blind.pure _

theorem blind_sendTo (bytes : Bytes) : BlindClient (sendTo bytes) :=
  Blind.get_bind (fun _ _ => rfl) fun _ _ => Blind.bind (blind_debug _) fun _ => blind_emit rfl

theorem blind_acceptConnection (packetInfo : ConnectionRequest) :
    BlindClient (acceptConnection packetInfo) := by
  refine Blind.bind blind_timeSinceEpoch fun _ => ?_
  refine Blind.get_bind (fun _ _ => rfl) fun _ _ => ?_
  refine Blind.bind blind_rent fun _ => ?_
  refine blind_owning ?_
  exact Blind.bind (blind_onSendBuffer _ _) fun _ => Blind.bind (blind_readyBuffer _ _)
    fun _ => blind_sendTo _

theorem blind_connectionRequest (b : BinaryBuffer) : BlindClient (connectionRequest b) :=
  Blind.bind (blind_onBuffer _ _) fun _ => Blind.bind (blind_modifyThis fun _ => ⟨rfl, rfl⟩)
    fun _ => Blind.ite (Blind.pure _) (blind_acceptConnection _)

theorem blind_answerPing (b sent : BinaryBuffer) : BlindClient (answerPing b sent) := by
  refine Blind.ite (Blind.bind (blind_onBuffer _ _) fun _ => ?_) (Blind.ite ?_ (Blind.pure _))
  · refine Blind.bind blind_timeSinceEpoch fun _ => ?_
    refine Blind.get_bind (fun _ _ => rfl) fun _ _ => ?_
    refine Blind.bind (blind_onSendBuffer _ _) fun _ => ?_
    exact Blind.pure _
  · exact Blind.bind (blind_onBuffer _ _) fun _ => Blind.bind (blind_onSendBuffer _ _)
      fun _ => Blind.pure _

theorem blind_unhandled (b : BinaryBuffer) : BlindClient (unhandled b) :=
  Blind.get_bind (fun _ _ => rfl) fun _ _ => blind_debug _

theorem blind_connectedPingPong (b : BinaryBuffer) : BlindClient (connectedPingPong b) := by
  refine Blind.bind blind_rent fun _ => Blind.bind (blind_owning ?_) fun _ =>
    blind_unhandled _
  refine Blind.bind (blind_answerPing _ _) fun _ => ?_
  refine Blind.bind (blind_readyBuffer _ _) fun _ => ?_
  refine Blind.bind (blind_sendTo _) fun _ => ?_
  exact Blind.pure _

theorem blind_switchData (packetId : UInt8) (b : BinaryBuffer) :
    BlindClient (switchData packetId b) := by
  unfold switchData
  split
  · exact blind_connectionRequest b
  · exact Blind.pure _
  · exact blind_connectedPingPong b
  · exact blind_unhandled b

theorem blind_processData (b : BinaryBuffer) : BlindClient (processData b) :=
  blind_owning (Blind.bind (blind_emit rfl) fun _ => Blind.bind (blind_debug _) fun _ =>
    Blind.bind (blind_onBuffer _ _) fun _ => blind_switchData _ _)

/-! ## Frames -/

theorem blind_orderedNext (channel : UInt8) : BlindClient (orderedNext channel) := by
  refine Blind.get_bind (fun _ _ => rfl) fun w _ => ?_
  split
  · exact Blind.pure _
  · exact Blind.throw _

theorem blind_sequencedNext (channel : UInt8) : BlindClient (sequencedNext channel) := by
  refine Blind.get_bind (fun _ _ => rfl) fun w _ => ?_
  split
  · exact Blind.pure _
  · exact Blind.throw _

theorem blind_bumpOrdered (channel : UInt8) : BlindClient (bumpOrdered channel) :=
  Blind.bind (blind_orderedNext channel) fun _ => blind_modifyThis fun _ => ⟨rfl, rfl⟩

theorem blind_setSequenced (channel : UInt8) (value : UInt32) :
    BlindClient (setSequenced channel value) := blind_modifyThis fun _ => ⟨rfl, rfl⟩

/-- The loop over the stored packets is blind, by induction on its fuel. -/
theorem blind_drain (channel : UInt8) : ∀ (fuel : Nat) (key : OrderKey),
    BlindClient (drain channel fuel key)
  | 0, _ => Blind.throw _
  | fuel + 1, key => by
    refine Blind.get_bind (fun _ _ => rfl) fun w _ => ?_
    split
    · exact Blind.pure _
    · refine Blind.bind (blind_modifyThis fun _ => ⟨rfl, rfl⟩) fun _ => ?_
      refine Blind.get_bind (fun _ _ => rfl) fun _ _ => ?_
      refine Blind.bind (blind_processData _) fun _ => ?_
      split
      · exact Blind.throw _
      · exact Blind.bind (blind_bumpOrdered channel) fun _ => blind_drain channel fuel _

/-- The question is answered with yes, or there is nobody to ask. -/
theorem blind_alreadyStored (b : BinaryBuffer) (info : FrameInfo) (orderInfo : OrderInformation) :
    BlindClient (alreadyStored b info orderInfo) := by
  refine Blind.bind (blind_debug _) fun _ => Blind.bind (blind_release _) fun _ => fun w hw => ?_
  cases hdebugger : w.this.debugger with
  | none =>
    rw [after_get_bind, run_get_bind, run_get_bind, hdebugger]
    exact ⟨hw, rfl⟩
  | some debugger =>
    rw [after_get_bind, run_get_bind, run_get_bind, hdebugger]
    dsimp only
    rw [hw debugger hdebugger, if_pos rfl]
    exact ⟨hw, rfl⟩

/-- A lenient instrument does not decide on an ordered frame. -/
theorem blind_processOrdered (b : BinaryBuffer) (info : FrameInfo) (orderInfo : OrderInformation) :
    BlindClient (processOrdered b info orderInfo) := by
  refine Blind.bind (blind_orderedNext _) fun _ => Blind.ite ?_ (Blind.ite ?_ ?_)
  · refine Blind.bind (blind_bumpOrdered _) fun _ => ?_
    refine Blind.bind (blind_processData b) fun _ => ?_
    refine Blind.get_bind (fun _ _ => rfl) fun _ _ => ?_
    refine Blind.bind (blind_drain _ _ _) fun _ => ?_
    exact Blind.pure _
  · exact Blind.bind (blind_release b) fun _ => Blind.pure _
  · refine Blind.bind (blind_setSequenced _ _) fun _ => Blind.get_bind (fun _ _ => rfl)
      fun _ _ => Blind.ite ?_ ?_
    · exact Blind.bind (blind_alreadyStored _ _ _) fun _ => Blind.pure _
    · exact Blind.bind (blind_modifyThis fun _ => ⟨rfl, rfl⟩) fun _ => Blind.pure _

theorem blind_processSequenced (b : BinaryBuffer) (info : FrameInfo) (sequenceIndex : UInt24) :
    BlindClient (processSequenced b info sequenceIndex) := by
  refine Blind.bind (blind_debug _) fun _ => Blind.bind (blind_assert _) fun _ => ?_
  split
  · exact Blind.throw _
  · refine Blind.bind (blind_sequencedNext _) fun _ => Blind.bind (blind_orderedNext _)
      fun _ => Blind.ite ?_ ?_
    · exact Blind.bind (blind_setSequenced _ _) fun _ => blind_processData b
    · exact Blind.bind (blind_debug _) fun _ => blind_release b

theorem blind_orderFrame (b : BinaryBuffer) (info : FrameInfo) :
    BlindClient (orderFrame b info) := by
  unfold orderFrame
  split
  · exact blind_processOrdered b info _
  · exact Blind.pure _

theorem blind_processFrame (b : BinaryBuffer) (info : FrameInfo) :
    BlindClient (processFrame b info) := by
  refine Blind.bind (blind_emit rfl) fun _ => ?_
  split
  · exact blind_processSequenced b info _
  · refine Blind.bind (blind_orderFrame b info) fun rest => ?_
    cases rest with
    | some b' => exact blind_processData b'
    | none => exact Blind.pure _

theorem blind_handFrame (b : BinaryBuffer) (header : FrameInfo) :
    BlindClient (handFrame b header) :=
  Blind.ite (blind_emit rfl) (blind_processFrame b header)

/-! ## Datagrams -/

theorem blind_eraseAckBuffer (id : UInt24) : BlindClient (eraseAckBuffer id) := by
  refine Blind.get_bind (fun _ _ => rfl) fun w _ => ?_
  split
  · exact Blind.pure _
  · exact Blind.bind (blind_modifyThis fun _ => ⟨rfl, rfl⟩) fun _ => blind_release _

theorem blind_processAck (b : BinaryBuffer) : BlindClient (processAck b) := by
  refine blind_owning (Blind.bind (blind_onBuffer _ _) fun (ack, _) => ?_)
  dsimp only
  cases ack.allPackets with
  | some ids => exact Blind.forM blind_eraseAckBuffer ids
  | none => exact Blind.throw _

theorem blind_frameLoop : ∀ (fuel : Nat) (b : BinaryBuffer), BlindClient (frameLoop fuel b)
  | 0, _ => Blind.throw _
  | fuel + 1, b => by
    refine Blind.ite (Blind.bind (blind_onBuffer _ _) fun (header, b') =>
      Blind.bind (blind_emit rfl) fun _ => ?_) (Blind.pure _)
    split
    · exact Blind.throw _
    · exact Blind.bind (blind_handFrame _ _) fun _ => blind_frameLoop fuel _

theorem blind_advanceWindow (seq expected : UInt24) :
    BlindClient (advanceWindow seq expected) := by
  refine Blind.bind (Blind.get_bind (fun _ _ => rfl) fun w _ => Blind.ite ?_ (Blind.pure _))
    fun _ => blind_modifyThis fun _ => ⟨rfl, rfl⟩
  split
  · exact blind_modifyThis fun _ => ⟨rfl, rfl⟩
  · exact Blind.throw _

theorem blind_processFrameSet (b : BinaryBuffer) : BlindClient (processFrameSet b) := by
  refine Blind.bind (blind_onBuffer _ _) fun _ => Blind.get_bind (fun _ _ => rfl) fun _ _ =>
    Blind.ite (Blind.pure _) ?_
  exact Blind.bind (blind_advanceWindow _ _) fun _ => blind_frameLoop _ _

/-- **However a datagram is processed, it makes no difference whether an instrument looks on.** -/
theorem blind_processPacket (b : BinaryBuffer) : BlindClient (processPacket b) := by
  refine Blind.bind (blind_guarded (blind_onBuffer _ _)) fun _ =>
    Blind.ite (blind_release _) (Blind.ite ?_ (blind_owning (blind_processFrameSet _)))
  split
  · exact Blind.bind (blind_emit rfl) fun _ => blind_release _
  · exact blind_processAck _
  · exact blind_release _

/-! ## The router -/

/-- The router as it would be if no client had an instrument. -/
def RouterWorld.muted (rw : RouterWorld) : RouterWorld where
  router :=
    { rw.router with
      connectedClients := mapValues RakroServerClient.muted rw.router.connectedClients }
  host := rw.host.muted

/-- The instruments of the clients say yes. -/
def RouterWorld.Lenient (rw : RouterWorld) : Prop :=
  AllEntries (fun _ (client : RakroServerClient) => client.Lenient) rw.router.connectedClients

section Router

variable {address : IPV4Addr} {rw : RouterWorld}

theorem blind_routerTime : Blind RouterWorld.Lenient RouterWorld.muted routerTime :=
  fun _ h => ⟨h, rfl⟩

/-- The client goes back into the map. -/
theorem RouterWorld.muted_store (rw : RouterWorld) (address : IPV4Addr) (w : World) :
    rw.muted.store address w.muted = (rw.store address w).muted :=
  congrArg (fun clients => RouterWorld.mk { rw.router with connectedClients := clients } w.host.muted)
    (insert_mapValues RakroServerClient.muted)

/-- Nor does it for a datagram that is routed, in time or too late. -/
theorem blind_route (b : BinaryBuffer) :
    Blind RouterWorld.Lenient RouterWorld.muted (route address b) := by
  intro rw hrw
  have hlookup : rw.muted.router.connectedClients.lookup address = _ :=
    lookup_mapValues RakroServerClient.muted
  cases hclient : rw.router.connectedClients.lookup address with
  | none =>
    rw [hclient] at hlookup
    rw [after_congr (run_route_unknown hclient b), run_route_unknown hclient,
      run_route_unknown hlookup]
    exact ⟨hrw, rfl⟩
  | some client =>
    rw [hclient] at hlookup
    by_cases htimeout : rw.router.timeout < rw.host.clock 0 - client.lastPacket
    · rw [after_of_ok (run_route_timeout hclient htimeout b), run_route_timeout hclient htimeout,
        run_route_timeout hlookup htimeout]
      refine ⟨AllEntries.erase hrw address, ?_⟩
      show _ = EStateM.Result.ok _ (RouterWorld.mk { rw.router with
        connectedClients := mapValues _ (rw.router.connectedClients.erase address) } _)
      rw [← erase_mapValues]
      rfl
    · have hpacket := blind_processPacket b (rw.entered client) (hrw address client hclient)
      have hknown := run_route_known hclient htimeout b
      have hmuted := run_route_known hlookup htimeout b
      have hentered : rw.muted.entered client.muted = (rw.entered client).muted := rfl
      rw [hentered, hpacket.2] at hmuted
      cases hrun : (processPacket b).run (rw.entered client) with
      | ok u w =>
        rw [hrun] at hknown hmuted
        rw [after_of_ok hrun] at hpacket
        rw [after_of_ok hknown, hknown, hmuted]
        refine ⟨AllEntries.insert hrw hpacket.1, ?_⟩
        exact congrArg (EStateM.Result.ok u) (rw.muted_store address w)
      | error e w =>
        rw [hrun] at hknown hmuted
        rw [after_of_error hrun] at hpacket
        rw [after_of_error hknown, hknown, hmuted]
        refine ⟨AllEntries.insert hrw hpacket.1, ?_⟩
        exact congrArg (EStateM.Result.error e) (rw.muted_store address w)

/-- The one gives the new client an instrument, the other none. -/
theorem erases_connectClient (mid : SemiConnectedClient) (guid : UInt64)
    {debugger : Option DebugInstrument} (hdebugger : ∀ d ∈ debugger, d.Lenient)
    (serverStartTime : UInt64) : Erases RouterWorld.Lenient RouterWorld.muted
      (connectClient address mid guid debugger serverStartTime)
      (connectClient address mid guid none serverStartTime) := by
  intro rw hrw
  have hiff : address ∈ rw.muted.router.connectedClients ↔ address ∈ rw.router.connectedClients :=
    mem_mapValues RakroServerClient.muted
  by_cases hmem : address ∈ rw.router.connectedClients
  · rw [after_of_ok (run_connectClient_known hmem), run_connectClient_known hmem,
      run_connectClient_known (hiff.mpr hmem)]
    exact ⟨hrw, rfl⟩
  · rw [after_of_ok (run_connectClient_new hmem), run_connectClient_new hmem,
      run_connectClient_new (mt hiff.mp hmem)]
    refine ⟨AllEntries.insert hrw hdebugger, ?_⟩
    show EStateM.Result.ok _ (RouterWorld.mk { rw.router with
      connectedClients := (mapValues _ rw.router.connectedClients).insert address
        (RakroServerClient.muted { guid, debugger, mtu := mid.mtu, address
                                   lastPacket := rw.host.clock 0, serverStartTime }) } _) = _
    rw [insert_mapValues]
    rfl

end Router

/-! ## The server -/

/-- The server as it would be without an instrument, its clients included. -/
def RakServer.muted (server : RakServer) : RakServer :=
  { server with
    instrument := none
    router :=
      { server.router with
        connectedClients := mapValues RakroServerClient.muted server.router.connectedClients } }

/-- The server and its surroundings as they would be if it had never had an instrument. -/
def ServerWorld.muted (w : ServerWorld) : ServerWorld where
  this := w.this.muted
  host := w.host.muted

/-- The instrument of the server and those of its clients say yes. -/
structure ServerWorld.Lenient (w : ServerWorld) : Prop where
  instrument : ∀ debugger ∈ w.this.instrument, debugger.Lenient
  clients : w.routing.Lenient

/-- The method of the server does the same without the instruments. -/
abbrev BlindServer {α : Type} (m : ServerM α) : Prop :=
  Blind ServerWorld.Lenient ServerWorld.muted m

section Server

variable {α : Type} {address : IPV4Addr}

/-- What erases on the router erases on the server. -/
theorem erases_onRouter {m n : RouterM α}
    (h : Erases RouterWorld.Lenient RouterWorld.muted m n) :
    Erases ServerWorld.Lenient ServerWorld.muted (onRouter m) (onRouter n) := by
  intro w hw
  obtain ⟨hlenient, hmuted⟩ := h w.routing hw.clients
  cases hrun : m.run w.routing with
  | ok a rw' =>
    rw [hrun] at hmuted
    rw [after_of_ok hrun] at hlenient
    rw [after_of_ok (run_onRouter_ok hrun), run_onRouter_ok hrun, run_onRouter_ok hmuted]
    exact ⟨⟨hw.instrument, hlenient⟩, rfl⟩
  | error e rw' =>
    rw [hrun] at hmuted
    rw [after_of_error hrun] at hlenient
    rw [after_of_error (run_onRouter_error hrun), run_onRouter_error hrun,
      run_onRouter_error hmuted]
    exact ⟨⟨hw.instrument, hlenient⟩, rfl⟩

theorem blind_readFrom (b : BinaryBuffer) (method : BufM α) : BlindServer (readFrom b method) := by
  intro w hw
  unfold readFrom after EStateM.run
  cases method b with
  | ok a b' => exact ⟨hw, rfl⟩
  | error e b' => exact ⟨hw, rfl⟩

theorem blind_modifyCompany (f : BufferCompany → BufferCompany) :
    BlindServer (modifyCompany f) :=
  Blind.modify (fun _ hw => ⟨hw.instrument, hw.clients⟩) fun _ _ => rfl

theorem blind_writeInto (b : BinaryBuffer) (method : BufM PUnit) :
    BlindServer (writeInto b method) :=
  Blind.bind (blind_readFrom _ _) fun _ => Blind.bind (blind_modifyCompany _) fun _ =>
    Blind.pure _

theorem blind_serverEmit {event : Event} (h : event.isDebug = false) :
    BlindServer (serverEmit event) :=
  Blind.modify (fun _ hw => ⟨hw.instrument, hw.clients⟩) fun w _ =>
    congrArg (ServerWorld.mk w.this.muted) (w.host.muted_log h)

/-- A call of the instrument changes nothing but the trace. -/
theorem blind_serverDebug (call : DebugCall) : BlindServer (serverDebug call) := by
  intro w hw
  have hdebug : (serverDebug call).run w =
      (if w.this.instrument.isSome then serverEmit (.debug call) else pure ⟨⟩ :
        ServerM PUnit).run w := rfl
  have hmuted : (serverDebug call).run w.muted = .ok ⟨⟩ w.muted := rfl
  rw [after_congr hdebug, hdebug, hmuted]
  by_cases h : w.this.instrument.isSome
  · rw [if_pos h]
    exact ⟨⟨hw.instrument, hw.clients⟩,
      congrArg (fun host => EStateM.Result.ok _ (ServerWorld.mk w.this.muted host))
        (w.host.muted_call call).symm⟩
  · rw [if_neg h]
    exact ⟨hw, rfl⟩

theorem blind_serverSendTo (bytes : Bytes) (address : IPV4Addr) (packet : PacketId) :
    BlindServer (serverSendTo bytes address packet) :=
  Blind.bind (blind_serverDebug _) fun _ => blind_serverEmit rfl

theorem blind_unconnectedPing (b : BinaryBuffer) : BlindServer (unconnectedPing b address) := by
  refine Blind.bind (blind_readFrom _ _) fun _ => Blind.get_bind (fun _ _ => rfl) fun w _ => ?_
  split
  · exact Blind.throw _
  · refine Blind.bind (erases_onRouter blind_routerTime) fun _ => ?_
    refine Blind.get_bind (fun _ _ => rfl) fun _ _ => ?_
    refine Blind.bind (blind_writeInto _ _) fun _ => ?_
    refine Blind.bind (blind_serverSendTo _ _ _) fun _ => ?_
    exact Blind.pure _

theorem blind_openConnectionRequest1 (b : BinaryBuffer) :
    BlindServer (openConnectionRequest1 b address) := by
  refine Blind.bind (blind_readFrom _ _) fun _ => ?_
  refine Blind.get_bind (fun _ _ => rfl) fun _ _ => ?_
  refine Blind.bind (blind_writeInto _ _) fun _ => ?_
  refine Blind.bind (blind_serverSendTo _ _ _) fun _ => ?_
  refine Blind.bind (erases_onRouter blind_routerTime) fun _ => ?_
  refine Blind.bind (Blind.modify (fun _ hw => ⟨hw.instrument, hw.clients⟩) fun _ _ => rfl)
    fun _ => ?_
  exact Blind.pure _

/-- A second request hands the instrument to the client, and is answered blindly. -/
theorem blind_openConnectionRequest2 (b : BinaryBuffer) :
    BlindServer (openConnectionRequest2 b address) := by
  refine Blind.bind (blind_readFrom _ _) fun r => Erases.get_bind fun w hw => ?_
  have hmuted : w.muted.this.midConnectionClients = w.this.midConnectionClients := rfl
  dsimp only
  rw [hmuted]
  cases w.this.midConnectionClients.lookup address with
  | none => exact Blind.pure _
  | some mid =>
    refine Erases.bind (erases_onRouter (erases_connectClient mid _ hw.instrument _)) fun _ => ?_
    refine Blind.bind (blind_writeInto _ _) fun _ => ?_
    refine Blind.bind (blind_serverSendTo _ _ _) fun _ => ?_
    exact Blind.pure _

theorem blind_handlePacket (b : BinaryBuffer) : BlindServer (handlePacket b address) := by
  refine Blind.bind (blind_readFrom _ _) fun r => ?_
  dsimp only
  split
  · exact Blind.bind (blind_unconnectedPing _) fun _ => Blind.pure _
  · exact Blind.bind (blind_openConnectionRequest1 _) fun _ => Blind.pure _
  · exact Blind.bind (blind_openConnectionRequest2 _) fun _ => Blind.pure _
  · exact Blind.pure _

theorem blind_serverRelease (buffer : RentedBuffer) : BlindServer (serverRelease buffer) :=
  blind_modifyCompany _

/-- Every datagram is dispatched blindly. -/
theorem blind_dispatch (b : BinaryBuffer) : BlindServer (dispatch b address) := by
  refine Blind.bind (Blind.bind (blind_readFrom _ _) fun _ => Blind.pure _) fun _ =>
    Blind.ite (Blind.bind (blind_handlePacket b) fun _ => ?_) (erases_onRouter (blind_route b))
  exact Blind.ite (blind_serverRelease _) (Blind.bind (blind_serverEmit rfl) fun _ =>
    blind_serverRelease _)

theorem blind_serverRent : BlindServer serverRent := by
  refine Blind.get_bind (fun _ _ => rfl) fun w _ => ?_
  split
  · exact Blind.bind (blind_modifyCompany _) fun _ => Blind.pure _
  · exact Blind.throw _

theorem blind_nextDatagram (arrival : Arrival) : BlindServer (nextDatagram arrival) := by
  refine Blind.bind blind_serverRent fun _ => Blind.bind ?_ ?_
  · cases arrival with
    | failed errorCode => exact Blind.pure _
    | datagram bytes address => exact Blind.bind (blind_modifyCompany _) fun _ => Blind.pure _
  · rintro ⟨rawData, _ | ⟨leng, address⟩⟩
    · exact Blind.ite (Blind.bind (blind_serverRelease _) fun _ => Blind.pure _) (Blind.throw _)
    · refine Blind.ite (Blind.bind (blind_serverRelease _) fun _ => Blind.pure _) ?_
      split
      · exact Blind.pure _
      · exact Blind.throw _

/-- Every step of the server is blind. -/
theorem blind_step : ∀ step : ServerStep, BlindServer step.run
  | .updateServerId _ =>
    Blind.modify (fun _ hw => ⟨hw.instrument, hw.clients⟩) fun _ _ => rfl
  | .receive arrival => by
    refine Blind.bind (blind_nextDatagram arrival) fun r => ?_
    cases r with
    | none => exact Blind.pure _
    | some next => exact blind_dispatch _

end Server

/-- Without the instruments, the server comes through the same states and ends a step as before. -/
theorem run_muted {w : ServerWorld} (hw : w.Lenient) (steps : List ServerStep) (step : ServerStep) :
    afterAll ServerStep.run w.muted steps = (afterAll ServerStep.run w steps).muted ∧
      step.run.run (afterAll ServerStep.run w steps).muted =
        onState ServerWorld.muted (step.run.run (afterAll ServerStep.run w steps)) := by
  obtain ⟨hlenient, hmuted⟩ := Blind.afterAll_eq blind_step hw steps
  exact ⟨hmuted, (blind_step step _ hlenient).2⟩

/-! ## The choice of an instrument -/

/-- The server is given the instrument, and then it is started. -/
def ServerWorld.watchedBy (w : ServerWorld) (debugger : Option DebugInstrument) : ServerWorld :=
  after (do RakServer.updateDebugger debugger; RakServer.start) w

section Watched

variable {w : ServerWorld} {debugger debugger' : Option DebugInstrument}

/-- With a lenient instrument, the server's routing stays lenient. -/
theorem lenient_watchedBy (hw : w.routing.Lenient) (h : ∀ d ∈ debugger, d.Lenient) :
    (w.watchedBy debugger).Lenient := ⟨h, hw⟩

/-- Muted, a server does not show its instrument. -/
theorem muted_watchedBy : (w.watchedBy debugger).muted = (w.watchedBy debugger').muted := rfl

/--
**It makes no difference which lenient instrument is installed before the start, or whether there is
one at all.** The runs go through the same states, but for the instruments and the calls of them, and
end in the same way.
-/
theorem updateDebugger_transparent (hw : w.routing.Lenient) (h : ∀ d ∈ debugger, d.Lenient)
    (h' : ∀ d ∈ debugger', d.Lenient) (steps : List ServerStep) (step : ServerStep) :
    (afterAll ServerStep.run (w.watchedBy debugger) steps).muted =
        (afterAll ServerStep.run (w.watchedBy debugger') steps).muted ∧
      onState ServerWorld.muted
          (step.run.run (afterAll ServerStep.run (w.watchedBy debugger) steps)) =
        onState ServerWorld.muted
          (step.run.run (afterAll ServerStep.run (w.watchedBy debugger') steps)) := by
  obtain ⟨hstates, hend⟩ := run_muted (lenient_watchedBy hw h) steps step
  obtain ⟨hstates', hend'⟩ := run_muted (lenient_watchedBy hw h') steps step
  have hmuted : (afterAll ServerStep.run (w.watchedBy debugger) steps).muted =
      (afterAll ServerStep.run (w.watchedBy debugger') steps).muted := by
    rw [← hstates, ← hstates', muted_watchedBy]
  exact ⟨hmuted, by rw [← hend, ← hend', hmuted]⟩

end Watched

theorem smallServer_lenient : smallServer.routing.Lenient := allEntries_empty _

theorem lenient_default : ∀ d ∈ (some {} : Option DebugInstrument), d.Lenient := by
  rintro _ ⟨⟩ _ _
  rfl

/-- With the instrument of the base class and without. -/
theorem updateDebugger_transparent_default :
    (afterAll ServerStep.run (smallServer.watchedBy (some {})) (handshake 6)).muted =
        (afterAll ServerStep.run (smallServer.watchedBy none) (handshake 6)).muted ∧
      onState ServerWorld.muted ((ServerStep.receive (.datagram [0x80] {})).run.run
          (afterAll ServerStep.run (smallServer.watchedBy (some {})) (handshake 6))) =
        onState ServerWorld.muted ((ServerStep.receive (.datagram [0x80] {})).run.run
          (afterAll ServerStep.run (smallServer.watchedBy none) (handshake 6))) :=
  updateDebugger_transparent smallServer_lenient lenient_default (fun _ h => by cases h)
    (handshake 6) _

/-- One that says no lets the server go on where another ends it: at a frame that is stored already. -/
example : ∀ debugger ∈ [some { unexpectedExistOfDataInOofBuffer := fun _ _ => false }, none],
    Succeeds ((handshake 6 ++ [0, 1].map fun number : UInt8 => ServerStep.receive (.datagram
      [0x80, number, 0, 0, 0x60, 0, 8, 0, 0, 0, 1, 0, 0, 0, 19] {})).forM ServerStep.run)
      (smallServer.watchedBy debugger) ↔ debugger.isSome := by
  decide +kernel

end Rakro
