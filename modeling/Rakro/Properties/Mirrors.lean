import Rakro.Properties.Twins
import Rakro.Properties.PoolLevel

/-!
# Two servers side by side

A datagram comes to two servers that have the same for its address, and have whatever they have for
the others. Both answer it alike, route it alike and keep or drop its client alike, so they have the
same for the address behind it, and have left the others out of it.
-/

namespace Rakro

open Infra BinaryBuffer

/-! ## Two servers -/

/-- The server without its clients and those on their way. -/
def RakServer.bare (server : RakServer) : RakServer :=
  { server with
    midConnectionClients := ∅, router := { server.router with connectedClients := ∅ } }

/-- These are the other addresses that the server knows. -/
structure RakServer.Around (server : RakServer) (address : IPV4Addr) (others : Bystanders) :
    Prop where
  clients : server.router.connectedClients.erase address = others.clients
  mids : server.midConnectionClients.erase address = others.mids

/-- The two servers know the same of the address, with the buffers `left` and `right` in scope. -/
structure Setting.Mirrors (s : Setting) (left right : List BufferId) (w v : ServerWorld) :
    Prop where
  bare : w.this.bare = s.server ∧ v.this.bare = s.server
  ndebug : w.host.ndebug = s.ndebug ∧ v.host.ndebug = s.ndebug
  here : w.this.Around s.address s.here
  there : v.this.Around s.address s.there
  mid : v.this.midConnectionClients.lookup s.address = w.this.midConnectionClients.lookup s.address
  client : (v.this.router.connectedClients.lookup s.address).map RakroServerClient.value =
    (w.this.router.connectedClients.lookup s.address).map RakroServerClient.value
  own : ∀ client ∈ w.this.router.connectedClients.lookup s.address,
    client.address = s.address ∧ client.Detached
  clock : v.host.clock = w.host.clock
  traces : ∃ new, SendsOnlyTo s.address new ∧ w.host.trace = s.here.trace ++ new ∧
    v.host.trace = s.there.trace ++ new
  pooledHere : w.Pooled s.config left
  pooledThere : v.Pooled s.config right
  scopes : right.length ≤ left.length

/-- Two copies of one datagram, in buffers of one size. -/
structure WholeCopies (b c : BinaryBuffer) : Prop extends Copies b c where
  length_eq : c.realBuffer.memory.length = b.realBuffer.memory.length

section Mirrors

variable {α : Type} {s : Setting} {left right : List BufferId} {w v : ServerWorld}
  {b c : BinaryBuffer} {x y : BufferId}

/-- What does not concern the addresses is the same of both. -/
theorem Setting.Mirrors.read {β : Type} (h : s.Mirrors left right w v) (g : RakServer → β)
    (hg : ∀ server, g server.bare = g server) : g v.this = g w.this := by
  rw [← hg v.this, ← hg w.this, h.bare.1, h.bare.2]

variable (s left right) in
/-- The method keeps the servers alike. -/
abbrev KeepsMirrors (m n : ServerM α) : Prop :=
  Agrees (s.Mirrors left right) m n (s.Mirrors left right)

/-! ### The primitives -/

theorem Setting.Mirrors.logged (h : s.Mirrors left right w v) {event : Event}
    (hsent : ∀ bytes other, event = .sent bytes other → other = s.address) :
    s.Mirrors left right
      { w with host := { w.host with trace := w.host.trace ++ [event] } }
      { v with host := { v.host with trace := v.host.trace ++ [event] } } := by
  obtain ⟨new, honly, hhere, hthere⟩ := h.traces
  refine ⟨h.bare, h.ndebug, h.here, h.there, h.mid, h.client, h.own, h.clock,
    ⟨new ++ [event], ?_, ?_, ?_⟩, h.pooledHere.of_same ⟨rfl, rfl⟩,
    h.pooledThere.of_same ⟨rfl, rfl⟩, h.scopes⟩
  · intro bytes other hmem
    rcases List.mem_append.mp hmem with hmem | hmem
    · exact honly bytes other hmem
    · exact hsent bytes other (List.mem_singleton.mp hmem).symm
  · rw [← List.append_assoc, ← hhere]
  · rw [← List.append_assoc, ← hthere]

theorem keepsMirrors_emit {event : Event}
    (hsent : ∀ bytes other, event = .sent bytes other → other = s.address) :
    KeepsMirrors s left right (serverEmit event) (serverEmit event) :=
  Agrees.modify fun _ _ h => h.logged hsent

theorem keepsMirrors_sendTo (bytes : Bytes) (packet : PacketId) :
    KeepsMirrors s left right (serverSendTo bytes s.address packet)
      (serverSendTo bytes s.address packet) := by
  refine Agrees.bind (S := s.Mirrors left right) (Simulates.get_bind fun w v h => ?_) fun _ =>
    keepsMirrors_emit ?_
  · rw [h.read RakServer.instrument fun _ => rfl]
    exact Simulates.ite Iff.rfl (fun _ => keepsMirrors_emit (by rintro _ _ ⟨⟩)) fun _ =>
      Agrees.pure _
  · rintro _ _ ⟨⟩
    rfl

/-- The buffers of the pools change hands. -/
theorem Setting.Mirrors.repooled (h : s.Mirrors left right w v) {left' right' : List BufferId}
    {company company' : BufferCompany}
    (hhere : company.Backs s.config w.this.router.parked left')
    (hthere : company'.Backs s.config v.this.router.parked right')
    (hscopes : right'.length ≤ left'.length) :
    s.Mirrors left' right' { w with host := { w.host with company := company } }
      { v with host := { v.host with company := company' } } :=
  ⟨h.bare, h.ndebug, h.here, h.there, h.mid, h.client, h.own, h.clock, h.traces,
    ⟨hhere, h.pooledHere.views⟩, ⟨hthere, h.pooledThere.views⟩, hscopes⟩

/-- The clock is read. -/
theorem Setting.Mirrors.ticked (h : s.Mirrors left right w v) :
    s.Mirrors left right
      { w with host := { w.host with clock := fun n => w.host.clock (n + 1) } }
      { v with host := { v.host with clock := fun n => v.host.clock (n + 1) } } := by
  refine ⟨h.bare, h.ndebug, h.here, h.there, h.mid, h.client, h.own, ?_, h.traces,
    h.pooledHere.of_same ⟨rfl, rfl⟩, h.pooledThere.of_same ⟨rfl, rfl⟩, h.scopes⟩
  funext n
  exact congrFun h.clock (n + 1)

theorem keepsMirrors_time :
    KeepsMirrors s left right (onRouter routerTime) (onRouter routerTime) := by
  intro w v now w' h hrun
  cases hrun
  exact ⟨_, _, rfl, (congrFun h.clock 0).symm, h.ticked⟩

theorem simulates_readFrom {R : ServerWorld → ServerWorld → Prop} {m : BufM α} (hm : Reading m)
    (hcopies : WholeCopies b c) : Simulates R (readFrom b m) (readFrom c m) fun r r' w v =>
      (r.1 = r'.1 ∧ WholeCopies r.2 r'.2) ∧ R w v := by
  intro w v r w' hR hrun
  obtain ⟨hread, rfl⟩ := readFrom_eq_ok hrun
  obtain ⟨a', c', hread', hsame, hview⟩ := hm.simulates b c r.1 r.2 hcopies.toSameView hread
  have hframe := hm.within.of_run hread
  have hframe' := hm.within.of_run hread'
  refine ⟨(a', c'), v, run_readFrom_ok hread', ⟨hsame, ⟨hview, hcopies.left.of_read hframe,
    hcopies.right.of_read hframe'⟩, ?_⟩, hR⟩
  rw [hframe.unchanged, hframe'.unchanged]
  exact hcopies.length_eq

theorem simulates_readFrom_bind {R : ServerWorld → ServerWorld → Prop} {β : Type} {m : BufM α}
    (hm : Reading m) (hcopies : WholeCopies b c) {f g : α × BinaryBuffer → ServerM β}
    {Q : β → β → ServerWorld → ServerWorld → Prop}
    (hf : ∀ a b c, WholeCopies b c → Simulates R (f (a, b)) (g (a, c)) Q) :
    Simulates R (readFrom b m >>= f) (readFrom c m >>= g) Q := by
  refine Simulates.bind (simulates_readFrom hm hcopies) fun r r' => Simulates.of_and fun hr => ?_
  obtain ⟨a, b'⟩ := r
  obtain ⟨a', c'⟩ := r'
  obtain rfl : a = a' := hr.1
  exact hf a b' c' hr.2

/-- A buffer outside the pool is not kept there. -/
theorem BufferCompany.keep_of_home_none {rented : RentedBuffer} (h : rented.home = none)
    (company : BufferCompany) : company.keep rented = company := by
  unfold BufferCompany.keep
  rw [h]

/-- What is written into a copy is not written into the pool. -/
theorem run_writeInto_outside {m : BufM PUnit} {b b' : BinaryBuffer} {u : PUnit}
    (h : m.run b = .ok u b') (hb' : b'.Outside) (w : ServerWorld) :
    (writeInto b m).run w = .ok b' w := by
  unfold writeInto
  rw [run_bind_of_ok (run_readFrom_ok h)]
  unfold modifyCompany
  rw [run_bind_of_ok (EStateM.run_modify _ _)]
  dsimp only
  rw [BufferCompany.keep_of_home_none (show b'.realBuffer.home = none from hb'.home)]
  rfl

theorem simulates_writeInto {R : ServerWorld → ServerWorld → Prop} {m : BufM PUnit}
    (hm : Filling m) (hcopies : WholeCopies b c) :
    Simulates R (writeInto b.clear m) (writeInto c.clear m) fun b' c' w v =>
      (b'.Outside ∧ c'.Outside ∧ c'.consumedSlice = b'.consumedSlice) ∧ R w v := by
  intro w v b' w' h hrun
  obtain ⟨r, w₁, hfrom, -⟩ := bind_eq_ok hrun
  obtain ⟨hwrite, rfl⟩ := readFrom_eq_ok hfrom
  have hclear : SameWritten b.clear c.clear := ⟨hcopies.length_eq, rfl, rfl⟩
  obtain ⟨u, c', hwrite', hsame⟩ := hm.simulates _ _ _ _ hclear hwrite
  have hframe := hm.within.of_run hwrite
  have hframe' := hm.within.of_run hwrite'
  have hhere : r.2.Outside :=
    ⟨hframe.home_eq.trans hcopies.left.home, hframe.owner_eq.trans hcopies.left.owner⟩
  have hthere : c'.Outside :=
    ⟨hframe'.home_eq.trans hcopies.right.home, hframe'.owner_eq.trans hcopies.right.owner⟩
  cases (run_writeInto_outside hwrite hhere _).symm.trans hrun
  exact ⟨c', v, run_writeInto_outside hwrite' hthere v, ⟨hhere, hthere, hsame.written⟩, h⟩

/-! ### The messages of an address that connects -/

variable (s left right) in
/-- The methods answer alike, and the copy that they hand back is one still. -/
abbrev AnswersAlike (m n : ServerM BinaryBuffer) : Prop :=
  Simulates (s.Mirrors left right) m n fun b c w v =>
    (b.Outside ∧ c.Outside) ∧ s.Mirrors left right w v

/-- A reply is written over the request and sent. -/
theorem answersAlike_reply {m : BufM PUnit} (hm : Filling m) (hcopies : WholeCopies b c)
    (packet : PacketId) {f : BinaryBuffer → ServerM BinaryBuffer}
    (hf : ∀ b c, b.Outside → c.Outside → AnswersAlike s left right (f b) (f c)) :
    AnswersAlike s left right
      (do
        let buffer ← writeInto b.clear m
        serverSendTo buffer.consumedSlice s.address packet
        f buffer)
      (do
        let buffer ← writeInto c.clear m
        serverSendTo buffer.consumedSlice s.address packet
        f buffer) := by
  refine Simulates.bind (simulates_writeInto hm hcopies) fun b' c' =>
    Simulates.of_and fun hwritten => ?_
  rw [hwritten.2.2]
  exact Agrees.bind (keepsMirrors_sendTo _ _) fun _ => hf b' c' hwritten.1 hwritten.2.1

theorem answersAlike_pure (hb : b.Outside) (hc : c.Outside) :
    AnswersAlike s left right (pure b) (pure c) := Simulates.pure fun _ _ h => ⟨⟨hb, hc⟩, h⟩

theorem answersAlike_unconnectedPing (hcopies : WholeCopies b c) :
    AnswersAlike s left right (unconnectedPing b s.address) (unconnectedPing c s.address) := by
  refine simulates_readFrom_bind (reading_readNext UnconnectedPing) hcopies
    fun _ b' c' hcopies' => Simulates.get_bind fun w v h => ?_
  rw [h.read RakServer.serverId fun _ => rfl]
  cases w.this.serverId with
  | none => exact Simulates.throw _
  | some serverId =>
    refine Agrees.bind keepsMirrors_time fun time => Simulates.get_bind fun w v h => ?_
    rw [h.read RakServer.serverGuid fun _ => rfl]
    exact answersAlike_reply (filling_write _) hcopies' _ fun _ _ => answersAlike_pure

/-- The address is on its way to connect. -/
theorem keepsMirrors_insertMid (mid : SemiConnectedClient) :
    KeepsMirrors s left right
      (modify fun w => { w with this := { w.this with
        midConnectionClients := w.this.midConnectionClients.insert s.address mid } })
      (modify fun w => { w with this := { w.this with
        midConnectionClients := w.this.midConnectionClients.insert s.address mid } }) := by
  refine Agrees.modify fun w v h => ?_
  refine ⟨h.bare, h.ndebug, ⟨h.here.clients, ?_⟩, ⟨h.there.clients, ?_⟩, ?_, h.client, h.own,
    h.clock, h.traces, h.pooledHere.of_same ⟨rfl, rfl⟩, h.pooledThere.of_same ⟨rfl, rfl⟩, h.scopes⟩
  · exact erase_insert_self.trans h.here.mids
  · exact erase_insert_self.trans h.there.mids
  · exact (AList.lookup_insert v.this.midConnectionClients).trans
      (AList.lookup_insert w.this.midConnectionClients).symm

theorem answersAlike_openConnectionRequest1 (hcopies : WholeCopies b c) :
    AnswersAlike s left right (openConnectionRequest1 b s.address)
      (openConnectionRequest1 c s.address) := by
  refine simulates_readFrom_bind (reading_readNext OpenConnectionRequest1) hcopies
    fun ocr b' c' hcopies' => Simulates.get_bind fun w v h => ?_
  have hreply : replyOne ocr v.this = replyOne ocr w.this := by
    unfold replyOne
    rw [h.read RakServer.protocolVersion fun _ => rfl, h.read RakServer.serverGuid fun _ => rfl]
  dsimp only
  rw [hreply]
  refine answersAlike_reply (filling_replyOne _ _) hcopies' _ fun b c hb hc => ?_
  exact Agrees.bind keepsMirrors_time fun _ => Agrees.bind (keepsMirrors_insertMid _) fun _ =>
    answersAlike_pure hb hc

/-- The address is connected on both sides or on none. -/
theorem Setting.Mirrors.mem_clients (h : s.Mirrors left right w v) :
    s.address ∈ w.this.router.connectedClients ↔ s.address ∈ v.this.router.connectedClients := by
  rw [← AList.lookup_isSome, ← AList.lookup_isSome,
    ← Option.isSome_map (f := RakroServerClient.value), ← h.client, Option.isSome_map]

/-- What is looked up behind an insertion is what was put in. -/
theorem map_value_insert (clients : AList fun _ : IPV4Addr => RakroServerClient)
    (address : IPV4Addr) (client : RakroServerClient) :
    ((clients.insert address client).lookup address).map RakroServerClient.value =
      some client.value := by
  rw [AList.lookup_insert]
  rfl

/-- The address is connected in both, or has been. -/
theorem keepsMirrors_connectClient (mid : SemiConnectedClient) (guid : UInt64)
    (debugger : Option DebugInstrument) (serverStartTime : UInt64) :
    KeepsMirrors s left right
      (onRouter (connectClient s.address mid guid debugger serverStartTime))
      (onRouter (connectClient s.address mid guid debugger serverStartTime)) := by
  intro w v u w' h hrun
  have hyields : ∀ scope, Yields (ServerWorld.Pooled s.config scope)
      (onRouter (connectClient s.address mid guid debugger serverStartTime)) fun _ =>
        ServerWorld.Pooled s.config scope :=
    fun scope => yields_onRouter (keepsPooled_connectClient _ _ _ _)
  have hpooled := hyields left w u w' h.pooledHere hrun
  by_cases hmem : s.address ∈ w.this.router.connectedClients
  · have hknown : (connectClient s.address mid guid debugger serverStartTime).run v.routing =
        .ok ⟨⟩ v.routing := run_connectClient_known (h.mem_clients.mp hmem)
    cases (run_onRouter_ok (run_connectClient_known hmem)).symm.trans hrun
    exact ⟨⟨⟩, v, run_onRouter_ok hknown, rfl, h⟩
  · have hnew : (connectClient s.address mid guid debugger serverStartTime).run v.routing = _ :=
      run_connectClient_new (mt h.mem_clients.mpr hmem)
    have hrun' := run_onRouter_ok hnew
    have hpooled' := hyields right v _ _ h.pooledThere hrun'
    cases (run_onRouter_ok (run_connectClient_new hmem)).symm.trans hrun
    refine ⟨⟨⟩, _, hrun', rfl, h.bare, h.ndebug,
      ⟨erase_insert_self.trans h.here.clients, h.here.mids⟩,
      ⟨erase_insert_self.trans h.there.clients, h.there.mids⟩, h.mid, ?_, ?_, h.ticked.clock,
      h.traces, hpooled, hpooled', h.scopes⟩
    · rw [show v.routing.host.clock = w.routing.host.clock from h.clock]
      exact (map_value_insert ..).trans (map_value_insert ..).symm
    · intro client hclient
      cases (AList.lookup_insert w.this.router.connectedClients).symm.trans hclient
      exact ⟨rfl, allEntries_empty _⟩

theorem answersAlike_openConnectionRequest2 (hcopies : WholeCopies b c) :
    AnswersAlike s left right (openConnectionRequest2 b s.address)
      (openConnectionRequest2 c s.address) := by
  refine simulates_readFrom_bind (reading_readNext OpenConnectionRequest2) hcopies
    fun ocr2 b' c' hcopies' => Simulates.get_bind fun w v h => ?_
  dsimp only
  rw [h.mid, h.read RakServer.instrument fun _ => rfl,
    h.read RakServer.serverStartTime fun _ => rfl, h.read RakServer.serverGuid fun _ => rfl]
  cases w.this.midConnectionClients.lookup s.address with
  | none => exact answersAlike_pure hcopies'.left hcopies'.right
  | some mid =>
    exact Agrees.bind (keepsMirrors_connectClient _ _ _ _) fun _ =>
      answersAlike_reply (filling_write _) hcopies' _ fun _ _ => answersAlike_pure

theorem keepsMirrors_isTrivialPacket (hcopies : WholeCopies b c) :
    KeepsMirrors s left right (isTrivialPacket b) (isTrivialPacket c) :=
  simulates_readFrom_bind (reading_readNextPeak UInt8) hcopies fun _ _ _ _ => Agrees.pure _

/-- A datagram that nobody handles is the same in both. -/
structure HandledAlike (r r' : Bool × BinaryBuffer) : Prop where
  handled : r'.1 = r.1
  left : r.2.Outside
  right : r'.2.Outside
  bytes : r.1 = false → r'.2.bytes = r.2.bytes

/-- What is answered alike is handled alike. -/
theorem AnswersAlike.handled {m n : ServerM BinaryBuffer} (h : AnswersAlike s left right m n) :
    Simulates (s.Mirrors left right) (do return (true, ← m)) (do return (true, ← n))
      fun r r' w v => HandledAlike r r' ∧ s.Mirrors left right w v :=
  Simulates.bind h fun _ _ => Simulates.of_and fun houtside => Simulates.pure fun _ _ h =>
    ⟨⟨rfl, houtside.1, houtside.2, by rintro ⟨⟩⟩, h⟩

theorem simulates_handlePacket (hcopies : WholeCopies b c) :
    Simulates (s.Mirrors left right) (handlePacket b s.address) (handlePacket c s.address)
      fun r r' w v => HandledAlike r r' ∧ s.Mirrors left right w v := by
  refine simulates_readFrom_bind (reading_readNext UInt8) hcopies fun id b' c' hcopies' => ?_
  dsimp only
  split
  · exact (answersAlike_unconnectedPing hcopies').handled
  · exact (answersAlike_openConnectionRequest1 hcopies').handled
  · exact (answersAlike_openConnectionRequest2 hcopies').handled
  · exact Simulates.pure fun _ _ h =>
      ⟨⟨rfl, hcopies'.left, hcopies'.right, fun _ => hcopies'.bytes_eq⟩, h⟩

/-! ### Routing -/

/-- A client at work on its datagram is in two worlds. -/
theorem Setting.Mirrors.entered {client client' : RakroServerClient}
    (h : s.Mirrors left right w v)
    (hclient : w.this.router.connectedClients.lookup s.address = some client)
    (hclient' : v.this.router.connectedClients.lookup s.address = some client')
    (hvalue : client'.value = client.value) :
    s.Twins left right (w.routing.entered client) (v.routing.entered client') := by
  obtain ⟨haddress, hdetached⟩ := h.own client hclient
  have hpooled := h.pooledHere.entered hclient
  have hpooled' := h.pooledThere.entered hclient'
  rw [show w.routing.router.connectedClients.erase s.address = _ from h.here.clients] at hpooled
  rw [show v.routing.router.connectedClients.erase s.address = _ from h.there.clients] at hpooled'
  refine ⟨?_, haddress, hdetached, h.ndebug, h.ticked.clock, h.traces, hpooled, hpooled', h.scopes⟩
  have hnow : v.routing.host.clock 0 = w.routing.host.clock 0 := congrFun h.clock 0
  exact congrArg₂ (fun value now => ({ value.1 with lastPacket := now }, value.2)) hvalue hnow

/-- The client is put back. -/
theorem Setting.Mirrors.store (h : s.Mirrors left right w v) {w' v' : World}
    (htwins : s.Twins left right w' v') :
    s.Mirrors left right
      { this := { w.this with router := (w.routing.store s.address w').router }
        host := (w.routing.store s.address w').host }
      { this := { v.this with router := (v.routing.store s.address v').router }
        host := (v.routing.store s.address v').host } := by
  have hpooled : (w.routing.store s.address w').Pooled s.config left := by
    refine h.pooledHere.stored ?_
    rw [show w.routing.router.connectedClients.erase s.address = _ from h.here.clients]
    exact htwins.pooledHere
  have hpooled' : (v.routing.store s.address v').Pooled s.config right := by
    refine h.pooledThere.stored ?_
    rw [show v.routing.router.connectedClients.erase s.address = _ from h.there.clients]
    exact htwins.pooledThere
  refine ⟨h.bare, htwins.ndebug, ⟨erase_insert_self.trans h.here.clients, h.here.mids⟩,
    ⟨erase_insert_self.trans h.there.clients, h.there.mids⟩, h.mid, ?_, ?_, htwins.clock,
    htwins.traces, hpooled, hpooled', h.scopes⟩
  · exact (map_value_insert ..).trans
      ((congrArg some htwins.value).trans (map_value_insert ..).symm)
  · intro client hclient
    cases (AList.lookup_insert w.this.router.connectedClients).symm.trans hclient
    exact ⟨htwins.address, htwins.detached⟩

theorem destroy_outside (hb : b.Outside) (company : BufferCompany) :
    company.destroy b.realBuffer = company := BufferCompany.destroy_of_owner_none hb.owner company

/-- A client that is silent for too long is dropped in both. -/
theorem Setting.Mirrors.dropped (hsize : 1 ≤ s.config.rentedBufferSize) (hb : b.Outside)
    (hc : c.Outside) {client client' : RakroServerClient} (h : s.Mirrors left right w v)
    (hclient : w.this.router.connectedClients.lookup s.address = some client)
    (hclient' : v.this.router.connectedClients.lookup s.address = some client') :
    s.Mirrors left right
      { this := { w.this with router := (w.routing.dropped s.address client b).router }
        host := (w.routing.dropped s.address client b).host }
      { this := { v.this with router := (v.routing.dropped s.address client' c).router }
        host := (v.routing.dropped s.address client' c).host } := by
  have hpooled : (w.routing.dropped s.address client b).Pooled s.config left :=
    h.pooledHere.dropped hsize hclient fun hbacks => by rwa [destroy_outside hb]
  have hpooled' : (v.routing.dropped s.address client' c).Pooled s.config right :=
    h.pooledThere.dropped hsize hclient' fun hbacks => by rwa [destroy_outside hc]
  refine ⟨h.bare, h.ndebug, ⟨erase_erase_self.trans h.here.clients, h.here.mids⟩,
    ⟨erase_erase_self.trans h.there.clients, h.there.mids⟩, h.mid, ?_, ?_, h.ticked.clock,
    h.traces, hpooled, hpooled', h.scopes⟩
  · exact congrArg (Option.map RakroServerClient.value)
      ((AList.lookup_erase s.address v.this.router.connectedClients).trans
        (AList.lookup_erase s.address w.this.router.connectedClients).symm)
  · intro client hclient
    cases (AList.lookup_erase s.address w.this.router.connectedClients).symm.trans hclient

theorem run_route_outside (hb : b.Outside) {rw : RouterWorld} {address : IPV4Addr}
    (h : rw.router.connectedClients.lookup address = none) :
    (route address b).run rw = .ok ⟨⟩ rw := by
  have hnone : releaseAll rw.host.company [b] = rw.host.company := destroy_outside hb _
  rw [run_route_unknown h]
  unfold routerRelease
  rw [EStateM.run_modify, hnone]

theorem keepsMirrors_route (hsize : 1 ≤ s.config.rentedBufferSize) (hcopies : Copies b c) :
    KeepsMirrors s left right (onRouter (route s.address b)) (onRouter (route s.address c)) := by
  intro w v u w' h hrun
  have hclients := h.client
  cases hclient : w.this.router.connectedClients.lookup s.address with
  | none =>
    rw [hclient, Option.map_none, Option.map_eq_none_iff] at hclients
    cases (run_onRouter_ok (run_route_outside hcopies.left hclient)).symm.trans hrun
    exact ⟨⟨⟩, v, run_onRouter_ok (run_route_outside hcopies.right hclients), rfl, h⟩
  | some client =>
    rw [hclient, Option.map_some, Option.map_eq_some_iff] at hclients
    obtain ⟨client', hclient', hvalue⟩ := hclients
    have hsilent : v.routing.router.timeout < v.routing.host.clock 0 - client'.lastPacket ↔
        w.routing.router.timeout < w.routing.host.clock 0 - client.lastPacket := by
      rw [show v.routing.router.timeout = w.routing.router.timeout from
        h.read (fun server => server.router.timeout) fun _ => rfl,
        show v.routing.host.clock = w.routing.host.clock from h.clock,
        show client'.lastPacket = client.lastPacket from
          congrArg (fun value => value.1.lastPacket) hvalue]
    by_cases htimeout : w.routing.router.timeout < w.routing.host.clock 0 - client.lastPacket
    · cases (run_onRouter_ok (run_route_timeout hclient htimeout b)).symm.trans hrun
      exact ⟨⟨⟩, _, run_onRouter_ok (run_route_timeout hclient' (hsilent.mpr htimeout) c), rfl,
        h.dropped hsize hcopies.left hcopies.right hclient hclient'⟩
    · have hroute := run_route_known hclient htimeout b
      have hroute' := run_route_known hclient' (mt hsilent.mp htimeout) c
      cases hpacket : (processPacket b).run (w.routing.entered client) with
      | error e w₁ =>
        rw [hpacket] at hroute
        cases (run_onRouter_error hroute).symm.trans hrun
      | ok u₁ w₁ =>
        obtain ⟨u₂, v₁, hpacket', rfl, htwins⟩ := keepsTwins_processPacket hsize hcopies _ _ _ _
          (h.entered hclient hclient' hvalue) hpacket
        rw [hpacket] at hroute
        rw [hpacket'] at hroute'
        cases (run_onRouter_ok hroute).symm.trans hrun
        exact ⟨_, _, run_onRouter_ok hroute', rfl, h.store htwins⟩

/-! ### Rounds of the loop -/

/-- A buffer that is outside on both sides is given back alike. -/
theorem keepsMirrors_release (hb : b.Outside) (hc : c.Outside) :
    KeepsMirrors s left right (serverRelease b.realBuffer) (serverRelease c.realBuffer) := by
  refine Agrees.modify fun w v h => ?_
  dsimp only
  rw [destroy_outside hb, destroy_outside hc]
  exact h

/-- **What is made of a datagram does not depend on what the server has for other addresses.** -/
theorem keepsMirrors_dispatch (hsize : 1 ≤ s.config.rentedBufferSize) (hcopies : WholeCopies b c) :
    KeepsMirrors s left right (dispatch b s.address) (dispatch c s.address) := by
  refine Agrees.bind (keepsMirrors_isTrivialPacket hcopies) fun trivial => ?_
  refine Simulates.ite Iff.rfl (fun _ => ?_) fun _ => keepsMirrors_route hsize hcopies.toCopies
  refine Simulates.bind (simulates_handlePacket hcopies) fun r r' => Simulates.of_and fun hr => ?_
  obtain ⟨handled, b'⟩ := r
  obtain ⟨handled', c'⟩ := r'
  obtain rfl : handled' = handled := hr.handled
  dsimp only
  refine Simulates.ite Iff.rfl (fun _ => keepsMirrors_release hr.left hr.right) fun hnot => ?_
  rw [show c'.bytes = b'.bytes from hr.bytes (Bool.eq_false_iff.mpr hnot)]
  refine Agrees.bind (keepsMirrors_emit (by rintro _ _ ⟨⟩)) fun _ =>
    keepsMirrors_release hr.left hr.right

/-- The datagrams that are kept for an address, and those for the others. -/
theorem length_parked (router : ClientRouter) (address : IPV4Addr) :
    router.parked.length =
      ((router.connectedClients.lookup address).map RakroServerClient.value).elim 0
          (fun value => value.2.length) +
        (holdings RakroServerClient.parked (router.connectedClients.erase address)).length := by
  unfold ClientRouter.parked
  cases hclient : router.connectedClients.lookup address with
  | none =>
    rw [erase_of_notMem (AList.lookup_eq_none.mp hclient), Option.map_none, Option.elim_none,
      Nat.zero_add]
  | some client =>
    rw [(holdings_perm hclient).length_eq, List.length_append, ← length_kept]
    rfl

/-- No more is kept there than here. -/
theorem Setting.Mirrors.length_parked_le (h : s.Mirrors left right w v) :
    v.this.router.parked.length ≤ w.this.router.parked.length := by
  rw [length_parked _ s.address, length_parked w.this.router s.address, h.client, h.here.clients,
    h.there.clients]
  exact Nat.add_le_add_left s.fewer _

/-- What can be rented here can be rented there. -/
theorem simulates_serverRent :
    Simulates (s.Mirrors left right) serverRent serverRent fun r r' w v =>
      ∃ p : BufferId × BufferId, (r.Owns s.config.rentedBufferSize p.1 ∧
        r'.Owns s.config.rentedBufferSize p.2) ∧ s.Mirrors (p.1 :: left) (p.2 :: right) w v := by
  intro w v r w' h hrun
  cases hrent : w.host.company.rent with
  | error e => cases (run_serverRent_error hrent).symm.trans hrun
  | ok rented =>
    cases (run_serverRent_ok hrent).symm.trans hrun
    obtain ⟨x, howns, hbacks⟩ := h.pooledHere.backs.rent hrent
    have hroom : v.routing.router.parked.length + right.length < s.config.capacity := by
      have hle : w.this.router.parked.length + (x :: left).length ≤ s.config.capacity :=
        hbacks.length_le
      have hparked : v.routing.router.parked.length ≤ w.this.router.parked.length :=
        h.length_parked_le
      have hscopes := h.scopes
      rw [List.length_cons] at hle
      omega
    obtain ⟨rented', company', hrent'⟩ := h.pooledThere.backs.rent_returns hroom
    obtain ⟨y, howns', hbacks'⟩ := h.pooledThere.backs.rent hrent'
    exact ⟨_, _, run_serverRent_ok hrent', (x, y), ⟨howns, howns'⟩,
      h.repooled hbacks hbacks' (Nat.succ_le_succ h.scopes)⟩

/-- The buffer of a datagram is returned in both. -/
theorem agrees_serverRelease (hsize : 1 ≤ s.config.rentedBufferSize) {rented rented' : RentedBuffer}
    (howns : rented.Owns s.config.rentedBufferSize x)
    (howns' : rented'.Owns s.config.rentedBufferSize y) :
    Agrees (s.Mirrors (x :: left) (y :: right)) (serverRelease rented) (serverRelease rented')
      (s.Mirrors left right) :=
  Agrees.modify fun _ _ h => h.repooled (h.pooledHere.backs.release hsize howns)
    (h.pooledThere.backs.release hsize howns') (Nat.le_of_succ_le_succ h.scopes)

/-- The datagram is received into the buffers of both. -/
theorem simulates_recvValue {rented rented' : RentedBuffer} (bytes : Bytes)
    (howns : rented.Owns s.config.rentedBufferSize x)
    (howns' : rented'.Owns s.config.rentedBufferSize y) (hx : x ∈ left) (hy : y ∈ right) :
    Simulates (s.Mirrors left right) (recvValue rented (.datagram bytes s.address))
      (recvValue rented' (.datagram bytes s.address)) fun r r' w v =>
        (r.1 = rented.filled bytes ∧ r'.1 = rented'.filled bytes ∧ r'.2 = r.2 ∧
          r.2 = if s.config.rentedBufferSize < bytes.length then .error wsaEMsgSize
            else .ok (bytes.length, s.address)) ∧ s.Mirrors left right w v := by
  intro w v r w' h hrun
  cases hrun
  refine ⟨_, _, rfl, ⟨rfl, rfl, ?_, ?_⟩,
    h.repooled (h.pooledHere.backs.keep (howns.filled bytes) hx)
      (h.pooledThere.backs.keep (howns'.filled bytes) hy) h.scopes⟩
  · rw [howns.length, howns'.length]
  · rw [howns.length]

variable (s left right) in
/-- What the loops go on with: a datagram in a buffer of each, or nothing. Then each may have lost a
buffer, which only happens when the buffers are empty. -/
inductive NextAlike : Option (BinaryBuffer × IPV4Addr) → Option (BinaryBuffer × IPV4Addr) →
    ServerWorld → ServerWorld → Prop
  | nothing {left' right' : List BufferId} {w v : ServerWorld} : left.length ≤ left'.length →
      s.Mirrors left' right' w v → NextAlike none none w v
  | datagram {x y : BufferId} {b c : BinaryBuffer} {w v : ServerWorld} :
      1 ≤ s.config.rentedBufferSize → b.realBuffer.Owns s.config.rentedBufferSize x →
      c.realBuffer.Owns s.config.rentedBufferSize y → WholeCopies b.copied c.copied →
      s.Mirrors (x :: left) (y :: right) w v →
      NextAlike (some (b, s.address)) (some (c, s.address)) w v

/-- A datagram is passed over. -/
theorem simulates_passOver {rented rented' : RentedBuffer}
    (howns : rented.Owns s.config.rentedBufferSize x)
    (howns' : rented'.Owns s.config.rentedBufferSize y) :
    Simulates (s.Mirrors (x :: left) (y :: right)) (do serverRelease rented; pure none)
      (do serverRelease rented'; pure none) (NextAlike s left right) := by
  by_cases hsize : 1 ≤ s.config.rentedBufferSize
  · exact Agrees.bind (agrees_serverRelease hsize howns howns') fun _ =>
      Simulates.pure fun _ _ h => .nothing (Nat.le_refl _) h
  · have hempty : ∀ {rented : RentedBuffer} {x : BufferId},
        rented.Owns s.config.rentedBufferSize x → ∀ company : BufferCompany,
          company.destroy rented = company := by
      intro rented x howns company
      have hlength := howns.length
      unfold BufferCompany.destroy
      rw [if_neg (by omega)]
    refine Simulates.bind (Simulates.modify (Q := fun _ _ => s.Mirrors (x :: left) (y :: right))
      fun w v h => ?_) fun _ _ =>
        Simulates.pure fun _ _ h => .nothing (Nat.le_succ _) h
    dsimp only
    rw [hempty howns, hempty howns']
    exact h

/-- The datagram lies in the buffers of both. -/
theorem wholeCopies_receivedInto {rented rented' : RentedBuffer} {size : Nat} {bytes : Bytes}
    (howns : rented.Owns size x) (howns' : rented'.Owns size y) :
    WholeCopies (receivedInto rented bytes).copied (receivedInto rented' bytes).copied where
  bytes_eq := rfl
  index_eq := rfl
  left := ⟨rfl, rfl⟩
  right := ⟨rfl, rfl⟩
  length_eq := by
    show (bytes ++ rented'.memory.drop bytes.length).length =
      (bytes ++ rented.memory.drop bytes.length).length
    rw [List.length_append, List.length_append, List.length_drop, List.length_drop, howns.length,
      howns'.length]

theorem simulates_nextDatagram (bytes : Bytes) :
    Simulates (s.Mirrors left right) (nextDatagram (.datagram bytes s.address))
      (nextDatagram (.datagram bytes s.address)) (NextAlike s left right) := by
  refine Simulates.bind simulates_serverRent fun rented rented' => Simulates.of_exists fun p =>
    Simulates.of_and fun howns => ?_
  refine Simulates.bind (simulates_recvValue bytes howns.1 howns.2 List.mem_cons_self
    List.mem_cons_self) fun r r' => Simulates.of_and ?_
  obtain ⟨filled, result⟩ := r
  obtain ⟨filled', result'⟩ := r'
  rintro ⟨rfl, rfl, hsame, hresult⟩
  dsimp only at hsame hresult
  have hpass : Simulates (s.Mirrors (p.1 :: left) (p.2 :: right))
      (do serverRelease (rented.filled bytes); pure none)
      (do serverRelease (rented'.filled bytes); pure none) (NextAlike s left right) :=
    simulates_passOver (howns.1.filled bytes) (howns.2.filled bytes)
  rw [hsame, hresult]
  by_cases hlong : s.config.rentedBufferSize < bytes.length
  · rw [if_pos hlong]
    exact Simulates.ite Iff.rfl (fun _ => hpass) fun hnot => absurd (.inl rfl) hnot
  · rw [if_neg hlong]
    refine Simulates.ite Iff.rfl (fun _ => hpass) fun hnonempty => ?_
    have hlimit : ofRentedLimit (rented.filled bytes) bytes.length =
        .ok (receivedInto rented bytes) := ofRentedLimit_received (by rw [howns.1.length]; omega)
    have hlimit' : ofRentedLimit (rented'.filled bytes) bytes.length =
        .ok (receivedInto rented' bytes) := ofRentedLimit_received (by rw [howns.2.length]; omega)
    rw [hlimit, hlimit']
    exact Simulates.pure fun _ _ h => .datagram (by omega)
      (owns_of_ofRentedLimit hlimit (howns.1.filled bytes))
      (owns_of_ofRentedLimit hlimit' (howns.2.filled bytes))
      (wholeCopies_receivedInto howns.1 howns.2) h

/-- The server with the readings of the clock for the next datagram. -/
def ServerWorld.at (w : ServerWorld) (clock : Clock) : ServerWorld :=
  { w with host := { w.host with clock } }

/-- A datagram is processed in both. Buffers that are empty stay out. -/
theorem simulates_process {d : TimedDatagram} (haddress : d.address = s.address) :
    Simulates (fun w v => s.Mirrors left right (w.at d.clock) (v.at d.clock)) d.process d.process
      fun _ _ w v => ∃ left' right', left.length ≤ left'.length ∧ s.Mirrors left' right' w v := by
  unfold TimedDatagram.process
  rw [haddress]
  refine Simulates.bind (Simulates.modify (Q := fun _ _ => s.Mirrors left right) fun _ _ h => h)
    fun _ _ => Simulates.bind (simulates_nextDatagram d.bytes) fun r r' => ?_
  intro w v u w' hnext hrun
  cases hnext with
  | nothing hle h =>
    cases hrun
    exact ⟨⟨⟩, v, rfl, _, _, hle, h⟩
  | datagram hsize howns howns' hcopies h =>
    obtain ⟨u', v', hrun', -, h'⟩ := Agrees.bind (keepsMirrors_dispatch hsize hcopies)
      (fun _ => agrees_serverRelease hsize howns howns') w v u w' h hrun
    exact ⟨u', v', hrun', left, right, Nat.le_refl _, h'⟩

end Mirrors

end Rakro
