import Rakro.Properties.HandlePacket

/-!
# Reconnecting

Only `route` looks at the timeout of a connection. `connect_client` leaves an address alone that is
still in the map, however long it has been silent. So an address that comes back is connected anew
if a datagram of it has been routed, and dropped, in the meantime. Otherwise the handshake is
answered, the stale client stays, and the next datagram is dropped with it.
-/

namespace Rakro

open Infra BinaryBuffer

/-! ## Time -/

/-- The readings of a clock never go back. -/
def Clock.Runs (clock : Clock) : Prop := Monotone fun n => (clock n).toNat

/-- Readings may be taken without the clock's going back. -/
theorem Clock.Runs.of_readsOn {clock clock' : Clock} (h : Clock.Runs clock)
    (hon : ReadsOn clock clock') : Clock.Runs clock' := by
  obtain ⟨k, hk⟩ := hon
  intro m n hmn
  dsimp only
  rw [hk, hk]
  exact h (Nat.add_le_add_right hmn k)

/-- A later reading is no smaller. -/
theorem Clock.Runs.le {clock clock' : Clock} (h : Clock.Runs clock) (hon : ReadsOn clock clock') :
    (clock 0).toNat ≤ (clock' 0).toNat := by
  obtain ⟨k, hk⟩ := hon
  rw [hk]
  exact h (Nat.zero_le _)

/-- On a clock that runs, the unsigned difference of the source is the time that has passed. -/
theorem timeout_lt_iff {timeout now last : UInt64} (h : last.toNat ≤ now.toNat) :
    timeout < now - last ↔ last.toNat + timeout.toNat < now.toNat := by
  rw [UInt64.lt_iff_toNat_lt, UInt64.toNat_sub_of_le _ _ (UInt64.le_iff_toNat_le.mpr h)]
  omega

/-- A client keeps the time of its last packet, and the clock goes on. -/
structure KeepsTime (w w' : World) : Prop where
  lastPacket : w'.this.lastPacket = w.this.lastPacket
  clock : ReadsOn w.host.clock w'.host.clock

instance : IsPreorder World KeepsTime where
  refl _ := ⟨rfl, .refl _⟩
  trans _ _ _ h h' := ⟨h'.1.trans h.1, h.2.trans h'.2⟩

/-- A datagram leaves the time of the last one. -/
theorem keepsTime_packetBound : PacketBound KeepsTime where
  answers _ _ h := ⟨h.lastPacket, h.clock⟩
  data _ _ := ⟨rfl, .refl _⟩
  counters _ _ _ := ⟨rfl, .refl _⟩
  taken _ _ := ⟨rfl, .refl _⟩
  stored _ _ _ _ _ _ _ _ := ⟨rfl, .refl _⟩
  called _ _ := ⟨rfl, .refl _⟩
  sliced _ _ _ _ := ⟨rfl, .refl _⟩
  advanced _ _ := ⟨rfl, .refl _⟩
  settled _ _ h := ⟨by rw [h.this], h.clock ▸ .refl _⟩

/-! ## The entry of an address in the router -/

/-- What may become of the entry of an address. -/
inductive EntryChange (address : IPV4Addr) (rw rw' : RouterWorld) : Prop
  | kept : rw'.router.connectedClients.lookup address = rw.router.connectedClients.lookup address →
      EntryChange address rw rw'
  | absent : rw.router.connectedClients.lookup address = none → EntryChange address rw rw'
  | renewed {client client' : RakroServerClient} :
      rw.router.connectedClients.lookup address = some client →
      ¬ rw.router.timeout < rw.host.clock 0 - client.lastPacket →
      rw'.router.connectedClients.lookup address = some client' →
      client'.lastPacket = rw.host.clock 0 → EntryChange address rw rw'
  | dropped {client : RakroServerClient} :
      rw.router.connectedClients.lookup address = some client →
      rw.router.timeout < rw.host.clock 0 - client.lastPacket → EntryChange address rw rw'

/-- What a method of the router does to an entry, the timeout and the clock. -/
structure RouterEffect (address : IPV4Addr) (rw rw' : RouterWorld) : Prop where
  entry : EntryChange address rw rw'
  timeout : rw'.router.timeout = rw.router.timeout
  clock : ReadsOn rw.host.clock rw'.host.clock

section Route

variable {address address' : IPV4Addr} {client : RakroServerClient} {rw rw' : RouterWorld}

/-- A datagram renews the client of its address or drops it, and leaves the others alone. -/
theorem routerEffect_route {b : BinaryBuffer} (hstart : b.index = 0)
    (h : (route address b).run rw = .ok ⟨⟩ rw') : RouterEffect address' rw rw' := by
  cases hclient : rw.router.connectedClients.lookup address with
  | none =>
    cases (run_route_unknown hclient b).symm.trans h
    exact ⟨.kept rfl, rfl, .refl _⟩
  | some client =>
    by_cases htimeout : rw.router.timeout < rw.host.clock 0 - client.lastPacket
    · cases (run_route_timeout hclient htimeout b).symm.trans h
      refine ⟨?_, rfl, .tick _⟩
      by_cases haddress : address' = address
      · exact .dropped (haddress ▸ hclient) htimeout
      · exact .kept (AList.lookup_erase_ne haddress)
    · have hrun := run_route_known hclient htimeout b
      cases hpacket : (processPacket b).run (rw.entered client) with
      | error e w =>
        rw [hpacket] at hrun
        cases hrun.symm.trans h
      | ok u w =>
        rw [hpacket] at hrun
        cases hrun.symm.trans h
        have htime := (keepsTime_packetBound.within_processPacket hstart).of_run hpacket
        refine ⟨?_, rfl, (ReadsOn.tick _).trans htime.clock⟩
        by_cases haddress : address' = address
        · subst haddress
          exact .renewed hclient htimeout (AList.lookup_insert _) htime.lastPacket
        · exact .kept (AList.lookup_insert_ne haddress)

/-- A handshake leaves every entry alone that is in the map. -/
theorem routerEffect_connectClient {mid : SemiConnectedClient} {guid : UInt64}
    {debugger : Option DebugInstrument} {serverStartTime : UInt64}
    (h : (connectClient address mid guid debugger serverStartTime).run rw = .ok ⟨⟩ rw') :
    RouterEffect address' rw rw' := by
  by_cases hmem : address ∈ rw.router.connectedClients
  · cases (run_connectClient_known hmem).symm.trans h
    exact ⟨.kept rfl, rfl, .refl _⟩
  · cases (run_connectClient_new hmem).symm.trans h
    refine ⟨?_, rfl, .tick _⟩
    by_cases haddress : address' = address
    · exact .absent (haddress ▸ AList.lookup_eq_none.mpr hmem)
    · exact .kept (AList.lookup_insert_ne haddress)

end Route

/-! ## Steps -/

/-- What is around the router's part changes only the clock, by readings. -/
theorem RouterEffect.of_same {address : IPV4Addr} {rw rw₁ rw₂ rw' : RouterWorld}
    (hrouter : rw₁.router = rw.router) (hclock : rw₁.host.clock = rw.host.clock)
    (h : RouterEffect address rw₁ rw₂) (hrouter' : rw'.router = rw₂.router)
    (hclock' : ReadsOn rw₂.host.clock rw'.host.clock) : RouterEffect address rw rw' := by
  refine ⟨?_, ?_, hclock ▸ h.clock.trans hclock'⟩
  · cases h.entry with
    | kept hlookup => exact .kept (by rw [hrouter', hlookup, hrouter])
    | absent hlookup => exact .absent (by rw [← hrouter, hlookup])
    | renewed hlookup htimeout hlookup' hlast =>
      rw [hrouter] at hlookup htimeout
      rw [hclock] at htimeout hlast
      exact .renewed hlookup htimeout (by rw [hrouter', hlookup']) hlast
    | dropped hlookup htimeout =>
      rw [hrouter] at hlookup htimeout
      rw [hclock] at htimeout
      exact .dropped hlookup htimeout
  · rw [hrouter', h.timeout, hrouter]

section Steps

variable {step : ServerStep} {w w' : ServerWorld} {address : IPV4Addr}

/-- What a step does to the entry of an address. -/
theorem routerEffect_step (h : step.run.run w = .ok ⟨⟩ w') (address : IPV4Addr) :
    RouterEffect address w.routing w'.routing := by
  cases stepFront h with
  | quiet serverId _ _ hthis hhost =>
    have hrouter : w'.this.router = w.this.router := by rw [hthis]
    exact ⟨.kept (congrArg (fun router => router.connectedClients.lookup address) hrouter),
      congrArg ClientRouter.timeout hrouter, hhost.clock⟩
  | first time _ _ _ hthis hhost =>
    have hrouter : w'.this.router = w.this.router := by rw [hthis]
    exact ⟨.kept (congrArg (fun router => router.connectedClients.lookup address) hrouter),
      congrArg ClientRouter.timeout hrouter, hhost.clock⟩
  | second _ _ _ _ htime hrun hthis hhost =>
    exact .of_same (congrArg RakServer.router htime.this) htime.clock
      (routerEffect_connectClient hrun) (congrArg RakServer.router hthis) hhost.clock
  | routed _ _ hstart _ htime hrun hthis hhost =>
    exact .of_same (congrArg RakServer.router htime.this) htime.clock
      (routerEffect_route hstart hrun) (congrArg RakServer.router hthis) hhost.clock

/-- Without a first request, an address on its way stays as it is. -/
theorem lookup_mid_step (h : step.run.run w = .ok ⟨⟩ w')
    (hnot : ¬ step.SendsFirst w.host.company.bufferSize address) :
    w'.this.midConnectionClients.lookup address = w.this.midConnectionClients.lookup address := by
  cases stepFront h with
  | quiet serverId _ _ hthis _ => rw [hthis]
  | @first bytes address' time hbrings hid hlong hthis _ =>
    have hne : address ≠ address' := by
      rintro rfl
      exact hnot ⟨bytes, hbrings, hid⟩
    rw [hthis]
    exact AList.lookup_insert_ne hne
  | second _ _ _ _ _ _ hthis _ => rw [hthis]
  | routed _ _ _ _ _ _ hthis _ => rw [hthis]

/-- A first request leaves the length of its datagram for the MTU. -/
theorem lookup_mid_first {bytes : Bytes} (h : step.run.run w = .ok ⟨⟩ w')
    (hbrings : step.Brings w.host.company.bufferSize address bytes)
    (hid : bytes[0]? = some PacketId.openConnectionRequest1.toUnderlying) :
    ∃ time, w'.this.midConnectionClients.lookup address =
      some { connectionTime := time, mtu := .ofNat bytes.length } := by
  cases stepFront h with
  | quiet serverId hnot _ _ _ => exact absurd ⟨bytes, hbrings, hid⟩ (hnot address)
  | first time hbrings' _ _ hthis _ =>
    obtain ⟨rfl, rfl⟩ := hbrings'.eq hbrings
    rw [hthis]
    exact ⟨time, AList.lookup_insert _⟩
  | second hbrings' hid' _ _ _ _ _ _ =>
    obtain ⟨-, rfl⟩ := hbrings'.eq hbrings
    cases hid.symm.trans hid'
  | routed hbrings' hid' _ _ _ _ _ _ =>
    obtain ⟨-, rfl⟩ := hbrings'.eq hbrings
    exact absurd (hid' _ hid) (by decide)

/-- A second request of an address that is not connected makes a fresh client. -/
theorem lookup_second {bytes : Bytes} {mid : SemiConnectedClient} (h : step.run.run w = .ok ⟨⟩ w')
    (hbrings : step.Brings w.host.company.bufferSize address bytes)
    (hid : bytes[0]? = some PacketId.openConnectionRequest2.toUnderlying)
    (hmid : w.this.midConnectionClients.lookup address = some mid)
    (hnew : address ∉ w.this.router.connectedClients) :
    ∃ request, OpenConnectionRequest2.decode bytes = some request ∧
      w'.this.router.connectedClients.lookup address =
        some (freshClient address mid request.clientGuid w.this.instrument (w.host.clock 0)
          w.this.serverStartTime) := by
  have hmem : address ∈ w.this.midConnectionClients := by
    rw [← AList.lookup_isSome, hmid]
    rfl
  cases stepFront h with
  | quiet serverId _ hnot _ _ => exact absurd ⟨bytes, hbrings, hid⟩ (hnot address hmem)
  | first time hbrings' hid' _ _ _ =>
    obtain ⟨-, rfl⟩ := hbrings'.eq hbrings
    cases hid.symm.trans hid'
  | @second _ _ request mid' w₁ rw hbrings' _ hdecode hmid' htime hrun hthis _ =>
    obtain ⟨rfl, rfl⟩ := hbrings'.eq hbrings
    cases hmid.symm.trans hmid'
    have hnew' : address ∉ w₁.routing.router.connectedClients := by
      rwa [show w₁.routing.router = w.this.router from congrArg RakServer.router htime.this]
    cases hrun.symm.trans (run_connectClient_new hnew')
    refine ⟨request, hdecode, ?_⟩
    rw [hthis, ← htime.clock]
    exact AList.lookup_insert _
  | routed hbrings' hid' _ _ _ _ _ _ =>
    obtain ⟨-, rfl⟩ := hbrings'.eq hbrings
    exact absurd (hid' _ hid) (by decide)

/-- With a client there already, the second request changes no entry. -/
theorem lookup_second_known {bytes : Bytes} (h : step.run.run w = .ok ⟨⟩ w')
    (hbrings : step.Brings w.host.company.bufferSize address bytes)
    (hid : bytes[0]? = some PacketId.openConnectionRequest2.toUnderlying)
    (hmem : address ∈ w.this.router.connectedClients) :
    w'.this.router.connectedClients.lookup address =
      w.this.router.connectedClients.lookup address := by
  cases stepFront h with
  | quiet serverId _ _ hthis _ => rw [hthis]
  | first time _ _ _ hthis _ => rw [hthis]
  | @second _ _ request mid w₁ rw hbrings' _ _ _ htime hrun hthis _ =>
    obtain ⟨rfl, rfl⟩ := hbrings'.eq hbrings
    have hrouter : w₁.routing.router = w.this.router := congrArg RakServer.router htime.this
    rw [← hrouter] at hmem
    cases (run_connectClient_known hmem).symm.trans hrun
    rw [hthis, hrouter]
  | routed hbrings' hid' _ _ _ _ _ _ =>
    obtain ⟨-, rfl⟩ := hbrings'.eq hbrings
    exact absurd (hid' _ hid) (by decide)

end Steps

/-! ## Runs -/

theorem readsOn_reaches {w w' : ServerWorld} {steps : List ServerStep}
    (h : Reaches ServerStep.run w steps w') : ReadsOn w.host.clock w'.host.clock := by
  induction h with
  | nil => exact .refl _
  | snoc _ hrun ih => exact ih.trans (routerEffect_step hrun {}).clock

/-- The address has a client whose last packet came at `since` or later. -/
structure AliveSince (address : IPV4Addr) (since timeout : UInt64) (w : ServerWorld) : Prop where
  entry : ∃ client, w.this.router.connectedClients.lookup address = some client ∧
    since.toNat ≤ client.lastPacket.toNat ∧ client.lastPacket.toNat ≤ (w.host.clock 0).toNat
  timeout : w.this.router.timeout = timeout
  clock : Clock.Runs w.host.clock

section Runs

variable {address : IPV4Addr} {since timeout : UInt64} {w w' : ServerWorld}

/-- Within the timeout, such a client has not timed out. -/
theorem AliveSince.not_timeout (h : AliveSince address since timeout w)
    (htime : (w.host.clock 0).toNat ≤ since.toNat + timeout.toNat) {client : RakroServerClient}
    (hclient : w.this.router.connectedClients.lookup address = some client) :
    ¬ w.this.router.timeout < w.host.clock 0 - client.lastPacket := by
  obtain ⟨client', hclient', hsince, hlast⟩ := h.entry
  cases hclient.symm.trans hclient'
  rw [timeout_lt_iff hlast, h.timeout]
  omega

/-- A client is not dropped by a step before its time. -/
theorem AliveSince.step {step : ServerStep} (h : AliveSince address since timeout w)
    (htime : (w.host.clock 0).toNat ≤ since.toNat + timeout.toNat)
    (hrun : step.run.run w = .ok ⟨⟩ w') : AliveSince address since timeout w' := by
  have heffect := routerEffect_step hrun address
  have hclock : (w.host.clock 0).toNat ≤ (w'.host.clock 0).toNat := h.clock.le heffect.clock
  refine ⟨?_, heffect.timeout.trans h.timeout, h.clock.of_readsOn heffect.clock⟩
  obtain ⟨client, hclient, hsince, hlast⟩ := h.entry
  cases heffect.entry with
  | kept hlookup => exact ⟨client, hlookup.trans hclient, hsince, hlast.trans hclock⟩
  | absent hlookup => cases hclient.symm.trans hlookup
  | @renewed _ client' hlookup _ hlookup' hlast' =>
    refine ⟨client', hlookup', ?_, ?_⟩
    · rw [hlast']
      exact hsince.trans hlast
    · rw [hlast']
      exact hclock
  | dropped hlookup hdropped => exact absurd hdropped (h.not_timeout htime hlookup)

/-- As long as the timeout has not passed, the address keeps its client. -/
theorem AliveSince.of_reaches {steps : List ServerStep} (h : AliveSince address since timeout w)
    (hreach : Reaches ServerStep.run w steps w')
    (htime : (w'.host.clock 0).toNat ≤ since.toNat + timeout.toNat) :
    AliveSince address since timeout w' := by
  induction hreach with
  | nil => exact h
  | @snoc steps step w₁ w₂ hreach hrun ih =>
    have hclock := h.clock.of_readsOn (readsOn_reaches hreach)
    have hle := hclock.le (routerEffect_step hrun address).clock
    exact (ih (hle.trans htime)).step (hle.trans htime) hrun

/-- The state after the clock has been read once. -/
def ServerWorld.tick (w : ServerWorld) : ServerWorld :=
  { w with host := { w.host with clock := fun n => w.host.clock (n + 1) } }

/-- A datagram from `address` that is not one of the server's own is passed to `process_packet`. -/
def ServerWorld.PassesOn (w : ServerWorld) (address : IPV4Addr) : Prop :=
  ∀ bytes b w₁, (nextDatagram (.datagram bytes address)).run w = .ok (some (b, address)) w₁ →
    (∀ id ∈ bytes[0]?, id ∉ trivalPackets) → ∃ client,
      (RakServer.receive (.datagram bytes address)).run w =
        (onRouter (onClient address client (processPacket b))).run w₁.tick

theorem run_onRouter_congr {method method' : RouterM PUnit} (hthis : w.this = w'.this)
    (h : method.run w.routing = method'.run w'.routing) :
    (onRouter method).run w = (onRouter method').run w' := by
  unfold onRouter EStateM.run at *
  dsimp only
  rw [show method { router := w.this.router, host := w.host } = _ from h, hthis]
  rfl

/-- A datagram of a client that is alive reaches it. -/
theorem AliveSince.passesOn (h : AliveSince address since timeout w)
    (htime : (w.host.clock 0).toNat ≤ since.toNat + timeout.toNat) : w.PassesOn address := by
  intro bytes b w₁ hnext hid
  obtain ⟨client, hclient, -, -⟩ := h.entry
  have hsame := (within_nextDatagram _).of_run hnext
  have hrouter : w₁.routing.router = w.this.router := congrArg RakServer.router hsame.this
  have hclock : w₁.routing.host.clock = w.host.clock := hsame.clock
  have hlookup : w₁.routing.router.connectedClients.lookup address = some client := by
    rw [hrouter, hclient]
  have hpasses := run_route_passes hlookup
    (by rw [hrouter, hclock]; exact h.not_timeout htime hclient) b
  refine ⟨_, (run_bind_of_ok hnext).trans (Eq.trans ?_ (run_onRouter_congr (w := w₁) rfl hpasses))⟩
  rcases nextDatagram_eq_ok hnext with ⟨⟨⟩, -⟩ | ⟨_, _, _, ⟨⟩, ⟨⟩, hb⟩
  obtain ⟨id, body, rfl⟩ := List.exists_cons_of_ne_nil hb.nonempty
  refine (run_bind_of_ok hb.run_isTrivialPacket).trans ?_
  rw [if_neg (by simpa using hid)]

end Runs

/-! ## Coming back -/

/--
In a run from `start`, `address` sends the first request `bytes₁` and, behind the steps `between`,
the second request `bytes₂` in the state `w`, which is answered in the state `w'`.
-/
structure ShakesAgain (start : ServerWorld) (address : IPV4Addr) (bytes₁ bytes₂ : Bytes)
    (before between : List ServerStep) (w w' : ServerWorld) : Prop where
  reaches : Reaches ServerStep.run start
    (before ++ .receive (.datagram bytes₁ address) :: between) w
  fits₁ : bytes₁.length ≤ start.host.company.bufferSize
  id₁ : bytes₁[0]? = some PacketId.openConnectionRequest1.toUnderlying
  last : ∀ step ∈ between, ¬ step.SendsFirst start.host.company.bufferSize address
  fits₂ : bytes₂.length ≤ start.host.company.bufferSize
  id₂ : bytes₂[0]? = some PacketId.openConnectionRequest2.toUnderlying
  answered : (ServerStep.receive (.datagram bytes₂ address)).run.run w = .ok ⟨⟩ w'

/-- If the address has a client, it has been silent for longer than the timeout. -/
def ServerWorld.Idle (w : ServerWorld) (address : IPV4Addr) : Prop :=
  ∀ client, w.this.router.connectedClients.lookup address = some client →
    client.lastPacket.toNat + w.this.router.timeout.toNat < (w.host.clock 0).toNat

/--
The handshake that the state `w` answers leaves a fresh client of its own, and what comes from the
address until the timeout has passed is passed to `process_packet`.
-/
structure Reconnects (address : IPV4Addr) (bytes₁ bytes₂ : Bytes) (w w' : ServerWorld) : Prop where
  entry : ∃ request, OpenConnectionRequest2.decode bytes₂ = some request ∧
    w'.this.router.connectedClients.lookup address = some
      { guid := request.clientGuid, debugger := w.this.instrument
        mtu := .ofNat bytes₁.length, address, lastPacket := w.host.clock 0
        serverStartTime := w.this.serverStartTime }
  passesOn : ∀ steps w'', Reaches ServerStep.run w' steps w'' →
    (w''.host.clock 0).toNat ≤ (w.host.clock 0).toNat + w.this.router.timeout.toNat →
      w''.PassesOn address

section Reconnect

variable {start w w' : ServerWorld} {address : IPV4Addr} {bytes₁ bytes₂ : Bytes}
  {before between : List ServerStep}

/-- At the second request, the address is on its way with the MTU of its first one. -/
theorem lookup_mid_of_reaches (hstart : start.Started) (hid : bytes₁[0]? =
      some PacketId.openConnectionRequest1.toUnderlying)
    (hlen : bytes₁.length ≤ start.host.company.bufferSize)
    (hbetween : ∀ step ∈ between, ¬ step.SendsFirst start.host.company.bufferSize address)
    (hreach : Reaches ServerStep.run start
      (before ++ .receive (.datagram bytes₁ address) :: between) w) :
    ∃ time, w.this.midConnectionClients.lookup address =
      some { connectionTime := time, mtu := .ofNat bytes₁.length } := by
  induction between using List.reverseRecOn generalizing w with
  | nil =>
    obtain ⟨w₀, hreach₀, hrun⟩ := hreach.of_concat
    have hsize := (progress_of_reaches hstart hreach₀).bufferSize
    exact lookup_mid_first hrun ⟨rfl, hsize ▸ hlen⟩ hid
  | append_singleton between step ih =>
    rw [← List.cons_append, ← List.append_assoc] at hreach
    obtain ⟨w₀, hreach₀, hrun⟩ := hreach.of_concat
    have hsize := (progress_of_reaches hstart hreach₀).bufferSize
    have hnot := hbetween step (List.mem_append_right _ (List.mem_singleton_self _))
    rw [← hsize] at hnot
    rw [lookup_mid_step hrun hnot]
    exact ih (fun step hmem => hbetween step (List.mem_append_left _ hmem)) hreach₀

/-- Between the two requests of the second handshake, the server keeps what the first one said. -/
theorem ShakesAgain.mid (hstart : start.Started)
    (h : ShakesAgain start address bytes₁ bytes₂ before between w w') :
    ∃ time, w.this.midConnectionClients.lookup address =
      some { connectionTime := time, mtu := .ofNat bytes₁.length } :=
  lookup_mid_of_reaches hstart h.id₁ h.fits₁ h.last h.reaches

/-- The second request of the second handshake arrives. -/
theorem ShakesAgain.brings (hstart : start.Started)
    (h : ShakesAgain start address bytes₁ bytes₂ before between w w') :
    (ServerStep.receive (.datagram bytes₂ address)).Brings w.host.company.bufferSize address
      bytes₂ := by
  refine ⟨rfl, ?_⟩
  rw [(progress_of_reaches hstart h.reaches).bufferSize]
  exact h.fits₂

/-- A client that is still there stays, stale as it is. -/
theorem not_reconnects_of_mem (hstart : start.Started)
    (h : ShakesAgain start address bytes₁ bytes₂ before between w w') (hidle : w.Idle address)
    (hmem : address ∈ w.this.router.connectedClients) :
    ¬ Reconnects address bytes₁ bytes₂ w w' := by
  rintro ⟨⟨request, -, hentry⟩, -⟩
  obtain ⟨client, hclient⟩ := Option.isSome_iff_exists.mp (AList.lookup_isSome.mpr hmem)
  rw [lookup_second_known h.answered (h.brings hstart) h.id₂ hmem, hclient] at hentry
  have hlast := hidle client hclient
  rw [Option.some.inj hentry] at hlast
  dsimp only at hlast
  omega

/--
**An address that has been silent for longer than the timeout reconnects exactly when the router
has dropped its client before the second request.**
-/
theorem reconnects_iff (hstart : start.Started) (hclock : Clock.Runs start.host.clock)
    (h : ShakesAgain start address bytes₁ bytes₂ before between w w') (hidle : w.Idle address) :
    Reconnects address bytes₁ bytes₂ w w' ↔ address ∉ w.this.router.connectedClients := by
  constructor
  · intro hreconnects hmem
    exact not_reconnects_of_mem hstart h hidle hmem hreconnects
  · intro hnew
    obtain ⟨time, hmid⟩ := h.mid hstart
    obtain ⟨request, hdecode, hentry⟩ :=
      lookup_second h.answered (h.brings hstart) h.id₂ hmid hnew
    have heffect := routerEffect_step h.answered address
    have hruns := hclock.of_readsOn (readsOn_reaches h.reaches)
    refine ⟨⟨request, hdecode, hentry⟩, fun steps w'' hreach htime => ?_⟩
    have halive : AliveSince address (w.host.clock 0) w.this.router.timeout w' :=
      ⟨⟨_, hentry, Nat.le_refl _, hruns.le heffect.clock⟩, heffect.timeout,
        hruns.of_readsOn heffect.clock⟩
    exact (halive.of_reaches hreach htime).passesOn htime

/-- A run that can be computed. -/
theorem shakesAgain_of_succeeds
    (hrun : Succeeds ((before ++ .receive (.datagram bytes₁ address) :: between).forM
      ServerStep.run) start)
    (hanswered : Succeeds (ServerStep.receive (.datagram bytes₂ address)).run
      (after ((before ++ .receive (.datagram bytes₁ address) :: between).forM ServerStep.run) start))
    (hlen₁ : bytes₁.length ≤ start.host.company.bufferSize)
    (hid₁ : bytes₁[0]? = some PacketId.openConnectionRequest1.toUnderlying)
    (hlast : ∀ step ∈ between, ¬ step.SendsFirst start.host.company.bufferSize address)
    (hlen₂ : bytes₂.length ≤ start.host.company.bufferSize)
    (hid₂ : bytes₂[0]? = some PacketId.openConnectionRequest2.toUnderlying) :
    ∃ w', ShakesAgain start address bytes₁ bytes₂ before between
      (after ((before ++ .receive (.datagram bytes₁ address) :: between).forM ServerStep.run) start)
      w' := by
  obtain ⟨⟨⟩, hrun⟩ := hrun.run
  obtain ⟨⟨⟩, hanswered⟩ := hanswered.run
  have hreach := Reaches.nil.append_of_forM _ hrun
  exact ⟨_, hreach, hlen₁, hid₁, hlast, hlen₂, hid₂, hanswered⟩

end Reconnect

/-- A server whose clock stands still for three readings and is ten seconds on from then. -/
def idleServer : ServerWorld :=
  { smallServer with
    host := { smallServer.host with clock := fun n => if n < 3 then 0 else 10000 } }

/-- The server behind its start, with nobody connected. -/
def patientServer : ServerWorld := after RakServer.start idleServer

theorem patientServer_started : patientServer.Started := ⟨idleServer, rfl, rfl⟩

theorem patientServer_runs : Clock.Runs patientServer.host.clock := by
  intro m n hmn
  show (if m + 1 < 3 then (0 : UInt64) else 10000).toNat
    ≤ (if n + 1 < 3 then (0 : UInt64) else 10000).toNat
  split
  · exact Nat.zero_le _
  · rw [if_neg (by omega)]

/-- The client shakes hands, sends the datagrams `middle` ten seconds later, and shakes hands again. -/
def comingBack (middle : List ServerStep) : List ServerStep :=
  handshake 6 ++ middle ++ [.receive (.datagram (firstRequest 6) {})]

/-- A datagram in front of the second handshake has the client dropped. -/
theorem reconnects_dropped : ∃ w w',
    ShakesAgain patientServer {} (firstRequest 6) secondRequest
      (handshake 6 ++ [.receive (.datagram [0x80] {})]) [] w w' ∧
      Reconnects {} (firstRequest 6) secondRequest w w' := by
  have hshakes : ∃ w', ShakesAgain patientServer {} (firstRequest 6) secondRequest
      (handshake 6 ++ [.receive (.datagram [0x80] {})]) []
      (after ((comingBack [.receive (.datagram [0x80] {})]).forM ServerStep.run) patientServer) w' :=
    shakesAgain_of_succeeds (by decide +kernel) (by decide +kernel) (by decide +kernel) rfl
      (by simp) (by decide +kernel) rfl
  obtain ⟨w', h⟩ := hshakes
  have hnew : ({} : IPV4Addr) ∉ (after ((comingBack [.receive (.datagram [0x80] {})]).forM
      ServerStep.run) patientServer).this.router.connectedClients := by decide +kernel
  refine ⟨_, w', h, (reconnects_iff patientServer_started patientServer_runs h ?_).mpr hnew⟩
  intro client hclient
  rw [AList.lookup_eq_none.mpr hnew] at hclient
  cases hclient

/-- Without it, the handshake is answered and the client stays as it was. -/
theorem not_reconnects_stale : ∃ w w',
    ShakesAgain patientServer {} (firstRequest 6) secondRequest (handshake 6) [] w w' ∧
      w.Idle {} ∧ ¬ Reconnects {} (firstRequest 6) secondRequest w w' := by
  have hshakes : ∃ w', ShakesAgain patientServer {} (firstRequest 6) secondRequest (handshake 6) []
      (after ((comingBack []).forM ServerStep.run) patientServer) w' :=
    shakesAgain_of_succeeds (by decide +kernel) (by decide +kernel) (by decide +kernel) rfl
      (by simp) (by decide +kernel) rfl
  obtain ⟨w', h⟩ := hshakes
  have hmem : ({} : IPV4Addr) ∈ (after ((comingBack []).forM
      ServerStep.run) patientServer).this.router.connectedClients := by decide +kernel
  have hidle : (after ((comingBack []).forM ServerStep.run) patientServer).Idle {} := by
    intro client hclient
    have hlast : ((after ((comingBack []).forM ServerStep.run)
        patientServer).this.router.connectedClients.lookup {}).map
          RakroServerClient.lastPacket = some 0 := by decide +kernel
    rw [hclient] at hlast
    rw [Option.some.inj hlast]
    decide +kernel
  exact ⟨_, w', h, hidle, not_reconnects_of_mem patientServer_started h hidle hmem⟩

end Rakro
