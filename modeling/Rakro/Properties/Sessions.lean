import Rakro.Properties.Conversation
import Rakro.Properties.Reconnect
import Rakro.Spec.ConnectionTable

/-!
# The server keeps a connection table

The addresses on their way and the connected clients are a connection table: an address on its way
has been offered an MTU, and a client is a session. A step that returns makes the one move that its
datagram calls for. So every client goes back to a second request of its address, and its MTU to the
last first request before that.
-/

namespace Rakro

open Infra

/-- A move on the table of the server's addresses. -/
abbrev TableMove := ConnectionTable.Move IPV4Addr SemiConnectedClient Session

/-- The two maps, but for what the clients have received and sent. -/
def RakServer.table (server : RakServer) :
    ConnectionTable IPV4Addr SemiConnectedClient Session where
  offers address := server.midConnectionClients.lookup address
  sessions address := (server.router.connectedClients.lookup address).map RakroServerClient.session

/-- The session that a second request of the address begins. -/
def RakServer.accept (server : RakServer) (address : IPV4Addr) (now : UInt64)
    (offer : SemiConnectedClient) : Session where
  address := address
  mtu := offer.mtu
  debugger := server.instrument
  serverStartTime := server.serverStartTime
  lastPacket := now

/-- The move that a step calls for in `w`. -/
inductive ServerStep.Calls (step : ServerStep) (w : ServerWorld) : TableMove → Prop
  /-- Neither a request nor the datagram of a client. -/
  | stay : (∀ address, ¬ step.SendsFirst w.host.company.bufferSize address) →
      (∀ address ∈ w.this.midConnectionClients,
        ¬ step.RequestsSecond w.host.company.bufferSize address) →
      (∀ address ∈ w.this.router.connectedClients, ∀ bytes,
        step.Brings w.host.company.bufferSize address bytes →
          ∀ id ∈ bytes[0]?, id ∈ trivalPackets) → Calls step w .stay
  | offer {bytes : Bytes} {address : IPV4Addr} (time : UInt64) :
      step.Brings w.host.company.bufferSize address bytes →
      bytes[0]? = some PacketId.openConnectionRequest1.toUnderlying →
      Calls step w (.offer address { connectionTime := time, mtu := .ofNat bytes.length })
  | join {bytes : Bytes} {address : IPV4Addr} :
      step.Brings w.host.company.bufferSize address bytes →
      bytes[0]? = some PacketId.openConnectionRequest2.toUnderlying →
      Calls step w (.join address (w.this.accept address (w.host.clock 0)))
  | use {bytes : Bytes} {address : IPV4Addr} :
      step.Brings w.host.company.bufferSize address bytes →
      (∀ id ∈ bytes[0]?, id ∉ trivalPackets) →
      (∀ session ∈ w.this.table.sessions address,
        ¬ w.this.router.timeout < w.host.clock 0 - session.lastPacket) →
      Calls step w (.use address fun session => { session with lastPacket := w.host.clock 0 })
  | leave {bytes : Bytes} {address : IPV4Addr} {session : Session} :
      step.Brings w.host.company.bufferSize address bytes →
      (∀ id ∈ bytes[0]?, id ∉ trivalPackets) → w.this.table.sessions address = some session →
      w.this.router.timeout < w.host.clock 0 - session.lastPacket →
      Calls step w (.leave address)

/-- The step makes a move of the table that it calls for. -/
def ServerStep.Moves (step : ServerStep) (w w' : ServerWorld) : Prop :=
  ∃ move, step.Calls w move ∧ w'.this.table = w.this.table.apply move

section Step

variable {step : ServerStep} {w w' : ServerWorld} {address : IPV4Addr} {b : BinaryBuffer}
  {id : UInt8} {body : Bytes}

theorem sessions_insert {clients : AList fun _ : IPV4Addr => RakroServerClient}
    (client : RakroServerClient) :
    (fun a => ((clients.insert address client).lookup a).map RakroServerClient.session) =
      Function.update (fun a => (clients.lookup a).map RakroServerClient.session) address
        (some client.session) := by
  funext a
  by_cases ha : a = address
  · rw [ha, AList.lookup_insert, Function.update_self]
    rfl
  · rw [AList.lookup_insert_ne ha, Function.update_of_ne ha]

theorem sessions_erase {clients : AList fun _ : IPV4Addr => RakroServerClient} :
    (fun a => ((clients.erase address).lookup a).map RakroServerClient.session) =
      Function.update (fun a => (clients.lookup a).map RakroServerClient.session) address none := by
  funext a
  by_cases ha : a = address
  · rw [ha, AList.lookup_erase, Function.update_self]
    rfl
  · rw [AList.lookup_erase_ne ha, Function.update_of_ne ha]

/-- A datagram of a client keeps its session up, or comes too late. -/
theorem moves_routed {bytes : Bytes} {w₁ : ServerWorld} {rw : RouterWorld}
    (hbrings : step.Brings w.host.company.bufferSize address bytes)
    (hid : ∀ id ∈ bytes[0]?, id ∉ trivalPackets) (hstart : b.index = 0) (htime : SameTime w w₁)
    (hrun : (route address b).run w₁.routing = .ok ⟨⟩ rw)
    (hthis : w'.this = { w.this with router := rw.router }) : step.Moves w w' := by
  have hrouter : w₁.routing.router = w.this.router := congrArg RakServer.router htime.this
  have hclock : w₁.routing.host.clock = w.host.clock := htime.clock
  have htable : w'.this.table = { w.this.table with
      sessions := fun a =>
        (rw.router.connectedClients.lookup a).map RakroServerClient.session } := by
    rw [hthis]
    rfl
  rw [ServerStep.Moves, htable]
  cases hclient : w.this.router.connectedClients.lookup address with
  | none =>
    have hsession : w.this.table.sessions address = none := congrArg (Option.map _) hclient
    rw [← hrouter] at hclient
    cases (run_route_unknown hclient b).symm.trans hrun
    refine ⟨_, .use hbrings hid (by rw [hsession]; exact nofun), ?_⟩
    rw [ConnectionTable.apply_use_of_none hsession]
    show ConnectionTable.mk _ (fun a => (w₁.routing.router.connectedClients.lookup a).map _) = _
    rw [hrouter]
    rfl
  | some client =>
    have hsession : w.this.table.sessions address = some client.session :=
      congrArg (Option.map _) hclient
    rw [← hrouter] at hclient
    by_cases htimeout : w₁.routing.router.timeout < w₁.routing.host.clock 0 - client.lastPacket
    · cases (run_route_timeout hclient htimeout b).symm.trans hrun
      rw [hrouter, hclock] at htimeout
      refine ⟨_, .leave hbrings hid hsession htimeout, ?_⟩
      show ConnectionTable.mk _ (fun a => ((w₁.routing.router.connectedClients.erase address).lookup
        a).map _) = _
      rw [hrouter, sessions_erase]
      rfl
    · have hknown := (run_route_known hclient htimeout b).symm.trans hrun
      cases hpacket : (processPacket b).run (w₁.routing.entered client) with
      | error e v =>
        rw [hpacket] at hknown
        cases hknown
      | ok u v =>
        rw [hpacket] at hknown
        cases hknown
        rw [hrouter, hclock] at htimeout
        refine ⟨_, .use hbrings hid ?_, ?_⟩
        · rw [hsession]
          rintro _ ⟨⟩
          exact htimeout
        · obtain ⟨hkept, -⟩ := answering_processPacket hstart (w₁.routing.entered client)
          rw [after_of_ok hpacket] at hkept
          rw [ConnectionTable.apply_use hsession]
          show ConnectionTable.mk _ (fun a =>
            ((w₁.routing.router.connectedClients.insert address v.this).lookup a).map _) = _
          rw [hrouter, sessions_insert, hkept, ← hclock]
          rfl

/-- A second request begins the session of an address on its way that has none. -/
theorem moves_second {bytes : Bytes} {mid : SemiConnectedClient} {guid : UInt64}
    {w₁ : ServerWorld} {rw : RouterWorld}
    (hbrings : step.Brings w.host.company.bufferSize address bytes)
    (hid : bytes[0]? = some PacketId.openConnectionRequest2.toUnderlying)
    (hmid : w.this.midConnectionClients.lookup address = some mid) (htime : SameTime w w₁)
    (hrun : (connectClient address mid guid w.this.instrument w.this.serverStartTime).run
      w₁.routing = .ok ⟨⟩ rw)
    (hthis : w'.this = { w.this with router := rw.router }) : step.Moves w w' := by
  have hrouter : w₁.routing.router = w.this.router := congrArg RakServer.router htime.this
  refine ⟨_, .join hbrings hid, ?_⟩
  have hoffer : w.this.table.offers address = some mid := hmid
  by_cases hmem : address ∈ w₁.routing.router.connectedClients
  · cases (run_connectClient_known hmem).symm.trans hrun
    obtain ⟨client, hclient⟩ := Option.isSome_iff_exists.mp (AList.lookup_isSome.mpr hmem)
    rw [hrouter] at hclient hthis
    have hsession : w.this.table.sessions address = some client.session :=
      congrArg (Option.map _) hclient
    rw [hthis, ConnectionTable.apply_join_of_some hsession]
  · cases (run_connectClient_new hmem).symm.trans hrun
    have hnone := AList.lookup_eq_none.mpr hmem
    rw [hrouter] at hnone
    have hsession : w.this.table.sessions address = none := congrArg (Option.map _) hnone
    rw [hthis, ConnectionTable.apply_join hoffer hsession]
    show ConnectionTable.mk _ (fun a =>
      ((w₁.routing.router.connectedClients.insert address _).lookup a).map _) = _
    rw [hrouter, sessions_insert, ← htime.clock]
    rfl

/-- A step makes a move, if it brings no datagram to a client. -/
theorem moves_front (hfront : StepFront step w w')
    (hquiet : ∀ address ∈ w.this.router.connectedClients, ∀ bytes,
      step.Brings w.host.company.bufferSize address bytes →
        ∀ id ∈ bytes[0]?, id ∈ trivalPackets) : step.Moves w w' := by
  cases hfront with
  | quiet serverId hfirst hsecond hthis _ =>
    exact ⟨_, .stay hfirst hsecond hquiet, by rw [hthis]; rfl⟩
  | @first bytes address time hbrings hid _ hthis _ =>
    refine ⟨_, .offer time hbrings hid, ?_⟩
    rw [hthis]
    show ConnectionTable.mk (fun a => (w.this.midConnectionClients.insert address _).lookup a) _ =
      ConnectionTable.mk (Function.update _ _ _) _
    congr 1
    funext a
    by_cases ha : a = address
    · rw [ha, AList.lookup_insert, Function.update_self]
    · rw [AList.lookup_insert_ne ha, Function.update_of_ne ha]
      rfl
  | second hbrings hid _ hmid htime hrun hthis _ =>
    exact moves_second hbrings hid hmid htime hrun hthis
  | routed hbrings hid hstart _ htime hrun hthis _ =>
    exact moves_routed hbrings hid hstart htime hrun hthis

/-- Dispatching a datagram makes a move. -/
theorem moves_dispatch (hb : Received b (id :: body) w.host.company.bufferSize)
    (h : (dispatch b address).run w = .ok ⟨⟩ w') :
    (ServerStep.receive (.datagram (id :: body) address)).Moves w w' := by
  have hrun := (run_bind_of_ok hb.run_isTrivialPacket).symm.trans h
  by_cases hid : id ∈ trivalPackets
  · refine moves_front (stepFront_dispatch hb h) ?_
    rintro _ - _ ⟨⟨⟩, -⟩ _ ⟨⟩
    exact hid
  · rw [if_neg (by simpa using hid)] at hrun
    cases hroute : (route address b).run w.routing with
    | error e rw => cases (run_onRouter_error hroute).symm.trans hrun
    | ok u rw =>
      cases (run_onRouter_ok hroute).symm.trans hrun
      exact moves_routed ⟨rfl, hb.length_le⟩ (by simpa using hid) hb.start (refl w)
        hroute rfl

/-- What comes before a step is not seen. -/
theorem ServerStep.Moves.of_same {w₁ : ServerWorld} (hsame : SameTime w w₁)
    (h : step.Moves w₁ w') : step.Moves w w' := by
  obtain ⟨move, hcalls, htable⟩ := h
  rw [hsame.this] at htable
  refine ⟨move, ?_, htable⟩
  cases hcalls with
  | stay hfirst hsecond hquiet =>
    rw [hsame.this] at hsecond hquiet
    rw [hsame.bufferSize] at hfirst hsecond hquiet
    exact .stay hfirst hsecond hquiet
  | offer time hbrings hid =>
    rw [hsame.bufferSize] at hbrings
    exact .offer time hbrings hid
  | join hbrings hid =>
    rw [hsame.bufferSize] at hbrings
    rw [hsame.this, hsame.clock]
    exact .join hbrings hid
  | use hbrings hid htimeout =>
    rw [hsame.bufferSize] at hbrings
    rw [hsame.this, hsame.clock] at htimeout
    rw [hsame.clock]
    exact .use hbrings hid htimeout
  | leave hbrings hid hsession htimeout =>
    rw [hsame.bufferSize] at hbrings
    rw [hsame.this] at hsession
    rw [hsame.this, hsame.clock] at htimeout
    exact .leave hbrings hid hsession htimeout

/-- **A step that returns makes a move that it calls for.** -/
theorem moves_step (h : step.run.run w = .ok ⟨⟩ w') : step.Moves w w' := by
  cases step with
  | updateServerId serverId =>
    cases h
    exact ⟨_, .stay (by rintro _ ⟨_, ⟨⟨⟩, -⟩, -⟩) (by rintro _ _ ⟨_, ⟨⟨⟩, -⟩, -⟩)
      (by rintro _ - _ ⟨⟨⟩, -⟩), rfl⟩
  | receive arrival =>
    obtain ⟨r, w₁, hnext, hrest⟩ := bind_eq_ok h
    have hbefore := (within_nextDatagram arrival).of_run hnext
    rcases nextDatagram_eq_ok hnext with ⟨rfl, hempty⟩ | ⟨b, bytes, address, rfl, rfl, hb⟩
    · refine moves_front (stepFront h) ?_
      rintro address - bytes ⟨⟨⟩, hlen⟩ id hid
      rw [hempty bytes address rfl hlen] at hid
      cases hid
    · obtain ⟨id, body, rfl⟩ := List.exists_cons_of_ne_nil hb.nonempty
      rw [← hbefore.bufferSize] at hb
      exact .of_same hbefore (moves_dispatch hb hrest)

/-- A move is made by the address that its datagram comes from. -/
theorem ServerStep.Calls.brings_of_peer {move : TableMove} (h : step.Calls w move)
    (hpeer : move.peer = some address) :
    ∃ bytes, step.Brings w.host.company.bufferSize address bytes := by
  cases h with
  | stay => cases hpeer
  | offer _ hbrings _ | join hbrings _ | use hbrings _ _ | leave hbrings _ _ _ =>
    obtain rfl := Option.some.inj hpeer
    exact ⟨_, hbrings⟩

/-- Only a first request calls for an offer. -/
theorem ServerStep.Calls.of_sendsFirst {move : TableMove} (h : step.Calls w move)
    (hfirst : step.SendsFirst w.host.company.bufferSize address) :
    ∃ offer, move = .offer address offer := by
  obtain ⟨bytes, hbrings, hid⟩ := hfirst
  cases h with
  | stay hnot _ _ => exact absurd ⟨bytes, hbrings, hid⟩ (hnot address)
  | offer time hbrings' _ =>
    obtain ⟨rfl, -⟩ := hbrings.eq hbrings'
    exact ⟨_, rfl⟩
  | join hbrings' hid' =>
    obtain ⟨-, rfl⟩ := hbrings.eq hbrings'
    cases hid.symm.trans hid'
  | use hbrings' hid' _ =>
    obtain ⟨-, rfl⟩ := hbrings.eq hbrings'
    exact absurd (by decide) (hid' _ hid)
  | leave hbrings' hid' _ _ =>
    obtain ⟨-, rfl⟩ := hbrings.eq hbrings'
    exact absurd (by decide) (hid' _ hid)

end Step

/-! ## Runs -/

/-- The steps of a run that returns, each of them beside the move that it makes. -/
inductive Traced (start : ServerWorld) : List (ServerStep × TableMove) → ServerWorld → Prop
  | nil : Traced start [] start
  | snoc {calls : List (ServerStep × TableMove)} {step : ServerStep} {move : TableMove}
      {w w' : ServerWorld} : Traced start calls w → step.run.run w = .ok ⟨⟩ w' →
      step.Calls w move → w'.this.table = w.this.table.apply move →
      Traced start (calls ++ [(step, move)]) w'

section Runs

variable {start w : ServerWorld} {calls : List (ServerStep × TableMove)} {steps : List ServerStep}
  {address : IPV4Addr}

/-- The steps of a trace are a run. -/
theorem Traced.reaches (h : Traced start calls w) :
    Reaches ServerStep.run start (calls.map Prod.fst) w := by
  induction h with
  | nil => exact .nil
  | snoc _ hrun _ _ ih =>
    rw [List.map_append]
    exact ih.snoc hrun

/-- The moves of a trace lead to the server's table. -/
theorem Traced.table_eq (hstart : start.Started) (h : Traced start calls w) :
    w.this.table = .run (calls.map Prod.snd) := by
  induction h with
  | nil =>
    unfold RakServer.table
    rw [hstart.mid, hstart.connected]
    rfl
  | snoc _ _ _ htable ih => rw [htable, ih, List.map_append, List.map_singleton,
      ConnectionTable.run_concat]

/-- Each step of the run is made in a state that the run comes through. -/
theorem Traced.of_append {before behind : List (ServerStep × TableMove)} {step : ServerStep}
    {move : TableMove} (h : Traced start calls w) (hcalls : calls = before ++ (step, move) :: behind) :
    ∃ w₁, Traced start before w₁ ∧ step.Calls w₁ move := by
  induction h generalizing behind with
  | nil => simp at hcalls
  | snoc htraced hrun hcall htable ih =>
    rcases last_or_earlier hcalls with ⟨rfl, hlast⟩ | ⟨mid, rfl⟩
    · cases hlast
      exact ⟨_, htraced, hcall⟩
    · exact ih rfl

/-- Every step of a trace has made its move. -/
theorem Traced.of_mem {step : ServerStep} {move : TableMove} (h : Traced start calls w)
    (hmem : (step, move) ∈ calls) : ∃ before w₁, Traced start before w₁ ∧ step.Calls w₁ move := by
  obtain ⟨before, behind, hcalls⟩ := List.append_of_mem hmem
  obtain ⟨w₁, htraced, hcall⟩ := h.of_append hcalls
  exact ⟨before, w₁, htraced, hcall⟩

/-- Every run can be traced. -/
theorem exists_traced (hreach : Reaches ServerStep.run start steps w) :
    ∃ calls, calls.map Prod.fst = steps ∧ Traced start calls w := by
  induction hreach with
  | nil => exact ⟨[], rfl, .nil⟩
  | @snoc l step w w' hreach hrun ih =>
    obtain ⟨calls, rfl, htraced⟩ := ih
    obtain ⟨move, hcall, htable⟩ := moves_step hrun
    refine ⟨calls ++ [(step, move)], ?_, htraced.snoc hrun hcall htable⟩
    rw [List.map_append]
    rfl

/-- **Every run of the server is a run of the connection table**, a move for each step. -/
theorem traced_of_reaches (hstart : start.Started)
    (hreach : Reaches ServerStep.run start steps w) : ∃ calls, calls.map Prod.fst = steps ∧
      Traced start calls w ∧ w.this.table = .run (calls.map Prod.snd) := by
  obtain ⟨calls, hsteps, htraced⟩ := exists_traced hreach
  exact ⟨calls, hsteps, htraced, htraced.table_eq hstart⟩

/-- All the settings stay but for the id. -/
theorem settings_of_reaches (hreach : Reaches ServerStep.run start steps w) :
    w.this.serverGuid = start.this.serverGuid ∧ w.this.instrument = start.this.instrument ∧
      w.this.serverStartTime = start.this.serverStartTime := by
  induction hreach with
  | nil => exact ⟨rfl, rfl, rfl⟩
  | @snoc l step w w' _ hrun ih =>
    cases step with
    | updateServerId id =>
      cases hrun
      exact ih
    | receive arrival =>
      have hsame := (settings_receive arrival).of_run hrun
      exact ⟨hsame.serverGuid.trans ih.1, hsame.instrument.trans ih.2.1,
        hsame.serverStartTime.trans ih.2.2⟩

/-- The session but for the time of its last packet. -/
def Session.terms (session : Session) : Session := { session with lastPacket := 0 }

/-- What is used keeps its terms. -/
theorem terms_foldl_used {moves : List TableMove} (h : ∀ move ∈ moves, ∃ step w,
    ServerStep.Calls step w move) (session : Session) :
    (moves.foldl (ConnectionTable.used address) session).terms = session.terms := by
  induction moves generalizing session with
  | nil => rfl
  | cons move moves ih =>
    rw [List.foldl_cons, ih fun move hmem => h move (List.mem_cons_of_mem _ hmem)]
    obtain ⟨step, w, hcall⟩ := h move List.mem_cons_self
    cases hcall with
    | @use bytes address' _ _ _ =>
      by_cases ha : address' = address
      · rw [ConnectionTable.used, if_pos ha]
        rfl
      · rw [ConnectionTable.used, if_neg ha]
    | _ => rfl

/-- A run of moves is split as its steps are. -/
theorem exists_split_calls {before behind : List TableMove} {move : TableMove}
    (h : calls.map Prod.snd = before ++ move :: behind) : ∃ calls₁ step calls₂,
      calls = calls₁ ++ (step, move) :: calls₂ ∧ calls₁.map Prod.snd = before ∧
        calls₂.map Prod.snd = behind := by
  obtain ⟨calls₁, rest, rfl, rfl, hrest⟩ := List.map_eq_append_iff.mp h
  obtain ⟨⟨step, _⟩, calls₂, rfl, rfl, rfl⟩ := List.map_eq_cons_iff.mp hrest
  exact ⟨calls₁, step, calls₂, rfl, rfl, rfl⟩

/-- The state in which a step of the run is made has buffers of the same size. -/
theorem Traced.bufferSize (hstart : start.Started) (h : Traced start calls w) :
    w.host.company.bufferSize = start.host.company.bufferSize :=
  (progress_of_reaches hstart h.reaches).bufferSize

/--
How a client has come about in the steps: a first request of its address, which leaves its length for
the MTU, no other first request, then a second one. Its instrument is the one of the start, which no
step replaces.
-/
structure ClientOrigin (start : ServerWorld) (steps : List ServerStep) (address : IPV4Addr)
    (client : RakroServerClient) : Prop where
  requests : ∃ before first between second behind bytes,
    steps = before ++ first :: between ++ second :: behind ∧
      first.Brings start.host.company.bufferSize address bytes ∧
      bytes[0]? = some PacketId.openConnectionRequest1.toUnderlying ∧
      client.mtu = .ofNat bytes.length ∧
      (∀ step ∈ between, ¬ step.SendsFirst start.host.company.bufferSize address) ∧
      second.RequestsSecond start.host.company.bufferSize address
  address_eq : client.address = address
  debugger : client.debugger = start.this.instrument
  serverStartTime : client.serverStartTime = start.this.serverStartTime

/--
**Every client goes back to the last first request before the second one that has connected it.** Its
MTU is from there. Its instrument and its start time are those of the start, as long as
`update_debugger` is not called behind it.
-/
theorem clientOrigin_of_reaches (hstart : start.Started)
    (hreach : Reaches ServerStep.run start steps w) {client : RakroServerClient}
    (hclient : w.this.router.connectedClients.lookup address = some client) :
    ClientOrigin start steps address client := by
  obtain ⟨calls, rfl, htraced⟩ := exists_traced hreach
  have hsession : w.this.table.sessions address = some client.session :=
    congrArg (Option.map _) hclient
  rw [htraced.table_eq hstart] at hsession
  obtain ⟨_, accept, offer, _, hjoin, -, hoffer, -, hs⟩ := ConnectionTable.exists_join hsession
  obtain ⟨calls₁, second, behind, rfl, rfl, rfl⟩ := exists_split_calls hjoin
  obtain ⟨_, _, hmade, hlast⟩ := ConnectionTable.exists_offer hoffer
  obtain ⟨before, first, between, rfl, rfl, rfl⟩ := exists_split_calls hmade
  -- the two requests, each in its state
  obtain ⟨w₂, htraced₂, hsecond⟩ := htraced.of_append rfl
  obtain ⟨w₁, htraced₁, hfirst⟩ := htraced₂.of_append rfl
  have hterms : client.session.terms = (accept offer).terms := by
    rw [hs]
    refine terms_foldl_used (fun move hmem => ?_) _
    obtain ⟨⟨step, _⟩, hcall, rfl⟩ := List.mem_map.mp hmem
    obtain ⟨_, w₃, -, hcalls⟩ :=
      htraced.of_mem (List.mem_append_right _ (List.mem_cons_of_mem _ hcall))
    exact ⟨step, w₃, hcalls⟩
  cases hsecond with
  | @join bytes₂ _ hbrings₂ hid₂ =>
    have hsettings := settings_of_reaches htraced₂.reaches
    cases hfirst with
    | @offer bytes _ time hbrings hid =>
      rw [htraced₁.bufferSize hstart] at hbrings
      rw [htraced₂.bufferSize hstart] at hbrings₂
      refine ⟨⟨before.map Prod.fst, first, between.map Prod.fst, second, behind.map Prod.fst, bytes,
        by simp, hbrings, hid, congrArg Session.mtu hterms, ?_, bytes₂, hbrings₂, hid₂⟩,
        congrArg Session.address hterms, ?_, ?_⟩
      · intro step hmem hsends
        obtain ⟨⟨_, move⟩, hcall, rfl⟩ := List.mem_map.mp hmem
        obtain ⟨_, w₃, htraced₃, hcalls⟩ :=
          htraced₂.of_mem (List.mem_append_right _ (List.mem_cons_of_mem _ hcall))
        rw [← htraced₃.bufferSize hstart] at hsends
        obtain ⟨offer, rfl⟩ := hcalls.of_sendsFirst hsends
        exact hlast offer (List.mem_map.mpr ⟨_, hcall, rfl⟩)
      · exact (congrArg Session.debugger hterms).trans hsettings.2.1
      · exact (congrArg Session.serverStartTime hterms).trans hsettings.2.2

end Runs

theorem threeServer_asked :
    Reaches ServerStep.run threeServer (handshake 6 ++ [asks 0])
      (afterAll ServerStep.run threeServer (handshake 6 ++ [asks 0])) :=
  reaches_of_succeeds (by decide +kernel)

/-- A handshake and a request. -/
theorem traced_asks : ∃ calls, calls.map Prod.fst = handshake 6 ++ [asks 0] ∧
    Traced threeServer calls (afterAll ServerStep.run threeServer (handshake 6 ++ [asks 0])) ∧
      (afterAll ServerStep.run threeServer (handshake 6 ++ [asks 0])).this.table =
        .run (calls.map Prod.snd) :=
  traced_of_reaches threeServer_isStarted threeServer_asked

/-- Where the client behind them comes from. -/
theorem clientOrigin_asks : ∃ client,
    (afterAll ServerStep.run threeServer
      (handshake 6 ++ [asks 0])).this.router.connectedClients.lookup {} = some client ∧
        ClientOrigin threeServer (handshake 6 ++ [asks 0]) {} client := by
  obtain ⟨client, hclient⟩ := Option.isSome_iff_exists.mp
    (show ((afterAll ServerStep.run threeServer
      (handshake 6 ++ [asks 0])).this.router.connectedClients.lookup {}).isSome by decide +kernel)
  exact ⟨client, hclient, clientOrigin_of_reaches threeServer_isStarted threeServer_asked hclient⟩

end Rakro
