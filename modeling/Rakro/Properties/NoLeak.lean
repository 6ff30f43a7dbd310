import Rakro.Properties.Availability

/-!
# Where the buffers are

Between two datagrams a buffer of the pool is free, or it belongs to a datagram that a client has
been sent and has not acknowledged. No buffer is in two places, and none is nowhere: with all of the
datagrams acknowledged, the pool is whole again.

Only the client itself changes that. While nothing comes from its address, it stays as it is, and so
do its buffers and what is in them, whatever comes from the others and however much time goes by.
-/

namespace Rakro

open Infra BinaryBuffer

/-- The datagram under `index` in the acknowledgement buffer of a client has the buffer to return. -/
def ServerWorld.Keeps (w : ServerWorld) (address : IPV4Addr) (index : UInt24) (buffer : BufferId) :
    Prop :=
  ∃ client ∈ w.this.router.connectedClients.lookup address,
    ∃ b ∈ client.ackBuffer.lookup index, buffer ∈ b.realBuffer.held

/-- Each buffer of the pool is in its place, and in no other. -/
structure ServerWorld.Accounted (config : ServerConfig) (w : ServerWorld) : Prop where
  counts : ∀ block ∈ w.host.company.blocks, block.freeBufferCount = block.freeBuffers.length
  free_nodup : w.host.company.freeBuffers.Nodup
  free_iff : ∀ buffer ∈ w.host.company.allBuffers,
    buffer ∈ w.host.company.freeBuffers ↔ ¬ ∃ address index, w.Keeps address index buffer
  keeps_mem : ∀ address index buffer, w.Keeps address index buffer →
    buffer ∈ w.host.company.allBuffers
  keeps_unique : ∀ address index address' index' buffer, w.Keeps address index buffer →
    w.Keeps address' index' buffer → address = address' ∧ index = index'
  keeps_one : ∀ address client index b,
    w.this.router.connectedClients.lookup address = some client →
      client.ackBuffer.lookup index = some b →
        ∃ buffer, b.realBuffer.Owns config.rentedBufferSize buffer

section Kept

variable {config : ServerConfig} {w : ServerWorld} {buffer : BufferId} {client : RakroServerClient}

/-- What a client has to return. -/
def RakroServerClient.unreturned (client : RakroServerClient) : List BufferId :=
  holdings (fun b : BinaryBuffer => b.realBuffer.held) client.ackBuffer

/-- The parked buffers hold what the client has not given back. -/
theorem flatMap_parked : client.parked.flatMap RentedBuffer.held = client.unreturned := by
  unfold RakroServerClient.parked RakroServerClient.unreturned holdings
  rw [List.flatMap_assoc]
  exact List.flatMap_congr fun entry _ => List.flatMap_singleton _ _

/-- The parked buffers of the router hold what its clients have not given back. -/
theorem flatMap_routerParked (router : ClientRouter) :
    router.parked.flatMap RentedBuffer.held =
      holdings RakroServerClient.unreturned router.connectedClients := by
  unfold ClientRouter.parked holdings
  rw [List.flatMap_assoc]
  exact List.flatMap_congr fun entry _ => flatMap_parked

theorem mem_unreturned : buffer ∈ client.unreturned ↔
    ∃ index, ∃ b ∈ client.ackBuffer.lookup index, buffer ∈ b.realBuffer.held :=
  mem_holdings

/-- What some client has to return. -/
theorem exists_keeps_iff : (∃ address index, w.Keeps address index buffer) ↔
    buffer ∈ holdings RakroServerClient.unreturned w.this.router.connectedClients := by
  rw [mem_holdings]
  constructor
  · rintro ⟨address, index, client, hclient, hkept⟩
    exact ⟨address, client, hclient, mem_unreturned.mpr ⟨index, hkept⟩⟩
  · rintro ⟨address, client, hclient, hkept⟩
    obtain ⟨index, hindex⟩ := mem_unreturned.mp hkept
    exact ⟨address, index, client, hclient, hindex⟩

/-- What a client has to return is part of what all of them have. -/
theorem unreturned_nodup
    (hnodup : (holdings RakroServerClient.unreturned w.this.router.connectedClients).Nodup)
    {address : IPV4Addr} (hclient : w.this.router.connectedClients.lookup address = some client) :
    client.unreturned.Nodup :=
  (List.nodup_append.mp ((holdings_perm hclient).nodup_iff.mp hnodup)).1

/-- A buffer that is kept once is kept in one place. -/
theorem ServerWorld.Keeps.unique
    (hnodup : (holdings RakroServerClient.unreturned w.this.router.connectedClients).Nodup)
    {address address' : IPV4Addr} {index index' : UInt24} (h : w.Keeps address index buffer)
    (h' : w.Keeps address' index' buffer) : address = address' ∧ index = index' := by
  obtain ⟨client, hclient, b, hb, hbuffer⟩ := h
  obtain ⟨client', hclient', b', hb', hbuffer'⟩ := h'
  rw [Option.mem_def] at hclient hb hclient' hb'
  obtain rfl : address = address' := holder_unique hnodup hclient hclient'
    (mem_unreturned.mpr ⟨index, b, hb, hbuffer⟩) (mem_unreturned.mpr ⟨index', b', hb', hbuffer'⟩)
  obtain rfl : client = client' := Option.some.inj (hclient.symm.trans hclient')
  exact ⟨rfl, holder_unique (unreturned_nodup hnodup hclient) hb hb' hbuffer hbuffer'⟩

/-- With the buffer of the last datagram back in the pool, each buffer is in its place. -/
theorem ServerWorld.Settled.accounted (h : w.Settled config) : w.Accounted config := by
  have hbacks := h.pooled.backs
  have hconserves := hbacks.conserves
  rw [List.append_nil, flatMap_routerParked] at hconserves
  have hnodup := List.nodup_append.mp hconserves.nodup
  have hkept : ∀ {buffer}, (∃ address index, w.Keeps address index buffer) ↔
      buffer ∈ holdings RakroServerClient.unreturned w.this.router.connectedClients :=
    exists_keeps_iff
  refine ⟨fun block hblock => hconserves.counts block hblock, hnodup.1, fun buffer hbuffer => ?_,
    fun address index buffer hkeeps => ?_,
    fun _ _ _ _ _ hkeeps hkeeps' => hkeeps.unique hnodup.2.1 hkeeps', ?_⟩
  · rw [hkept]
    constructor
    · exact fun hfree hmem => hnodup.2.2 buffer hfree buffer hmem rfl
    · intro hnot
      exact (List.mem_append.mp (hconserves.perm.mem_iff.mpr hbuffer)).resolve_right hnot
  · exact hconserves.perm.mem_iff.mp
      (List.mem_append_right _ (hkept.mp ⟨address, index, hkeeps⟩))
  · intro address client index b hclient hb
    have hparked : b.realBuffer ∈ w.this.router.parked :=
      mem_holdings.mpr ⟨address, client, hclient,
        mem_holdings.mpr ⟨index, b, hb, List.mem_singleton_self _⟩⟩
    obtain ⟨buffer, howns, -⟩ := hbacks.whole _ hparked
    exact ⟨buffer, howns⟩

/--
**No buffer is lost and none is in two places**: between two datagrams, the buffers that are rented
are those of the datagrams that have not been acknowledged, one for each.
-/
theorem accounted_of_reaches (hpositive : config.Positive) {start : ServerWorld}
    (hstart : start.StartedWith config) {steps : List ServerStep}
    (hreach : Reaches ServerStep.run start steps w) : w.Accounted config :=
  (settled_of_reaches hpositive hstart hreach).accounted

end Kept

/-- The reply to a connection request waits for its acknowledgement. -/
theorem accounted_of_reaches_asks :
    ∃ w, Reaches ServerStep.run threeServer (handshake 6 ++ [asks 0]) w ∧
      w.Accounted threeBuffers := by
  have hreach : Reaches ServerStep.run threeServer (handshake 6 ++ [asks 0]) _ :=
    reaches_of_succeeds (by decide +kernel)
  exact ⟨_, hreach, accounted_of_reaches ⟨by decide, by decide, by decide⟩ threeServer_started
    hreach⟩

/-! ## A client that falls silent -/

section Silence

variable {config : ServerConfig} {start w w' : ServerWorld} {steps between : List ServerStep}
  {address : IPV4Addr}

/-- `route` leaves the clients of other addresses alone. -/
theorem lookup_route {rw rw' : RouterWorld} {other : IPV4Addr} {b : BinaryBuffer}
    (hrun : (route other b).run rw = .ok ⟨⟩ rw') (hne : address ≠ other) :
    rw'.router.connectedClients.lookup address = rw.router.connectedClients.lookup address := by
  cases routeFront other b rw with
  | unknown _ hroute hrouter _ =>
    cases hroute.symm.trans hrun
    rw [hrouter]
  | timeout _ _ hroute herase _ =>
    cases hroute.symm.trans hrun
    rw [herase, AList.lookup_erase_ne hne]
  | returned _ _ _ hroute =>
    cases hroute.symm.trans hrun
    exact AList.lookup_insert_ne hne
  | threw _ _ _ hroute => cases hroute.symm.trans hrun

theorem lookup_connectClient {rw rw' : RouterWorld} {other : IPV4Addr} {mid : SemiConnectedClient}
    {guid : UInt64} {debugger : Option DebugInstrument} {serverStartTime : UInt64}
    (hrun : (connectClient other mid guid debugger serverStartTime).run rw = .ok ⟨⟩ rw')
    (hne : address ≠ other) :
    rw'.router.connectedClients.lookup address = rw.router.connectedClients.lookup address := by
  by_cases hmem : other ∈ rw.router.connectedClients
  · cases (run_connectClient_known hmem).symm.trans hrun
    rfl
  · cases (run_connectClient_new hmem).symm.trans hrun
    exact AList.lookup_insert_ne hne

/-- A step without a datagram of the address leaves its client alone. -/
theorem lookup_step {step : ServerStep} (hrun : step.run.run w = .ok ⟨⟩ w')
    (hquiet : ∀ bytes, step ≠ .receive (.datagram bytes address)) :
    w'.this.router.connectedClients.lookup address =
      w.this.router.connectedClients.lookup address := by
  have hne : ∀ {bytes other size}, step.Brings size other bytes → address ≠ other := by
    rintro bytes other size ⟨rfl, -⟩ rfl
    exact hquiet bytes rfl
  cases stepFront hrun with
  | quiet serverId _ _ hthis _ => rw [hthis]
  | first time hbrings _ _ hthis _ => rw [hthis]
  | second hbrings _ _ _ hsame hconnect hthis _ =>
    rw [hthis]
    refine (lookup_connectClient hconnect (hne hbrings)).trans ?_
    exact congrArg (fun this : RakServer => this.router.connectedClients.lookup address) hsame.this
  | routed hbrings _ _ _ hsame hroute hthis _ =>
    rw [hthis]
    refine (lookup_route hroute (hne hbrings)).trans ?_
    exact congrArg (fun this : RakServer => this.router.connectedClients.lookup address) hsame.this

/-- A run without a datagram of an address leaves its client as it is. -/
theorem lookup_of_keepsQuiet (hbetween : Reaches ServerStep.run w between w')
    (hquiet : KeepsQuiet address between) :
    w'.this.router.connectedClients.lookup address =
      w.this.router.connectedClients.lookup address := by
  induction hbetween with
  | nil => rfl
  | snoc _ hrun ih =>
    refine (lookup_step hrun fun bytes heq => ?_).trans
      (ih fun bytes hmem => hquiet bytes (List.mem_append_left _ hmem))
    exact hquiet bytes (List.mem_append_right _ (List.mem_singleton.mpr heq.symm))

/-- A buffer that is kept shows the datagram that it is kept for. -/
theorem ServerWorld.Settled.load_eq (h : w.Settled config) {client : RakroServerClient}
    (hclient : w.this.router.connectedClients.lookup address = some client) {index : UInt24}
    {b : BinaryBuffer} (hb : client.ackBuffer.lookup index = some b) {buffer : BufferId}
    (hbuffer : buffer ∈ b.realBuffer.held) :
    w.host.company.load { buffer } config.rentedBufferSize = b.realBuffer.memory := by
  have hparked : b.realBuffer ∈ w.this.router.parked :=
    mem_holdings.mpr ⟨address, client, hclient,
      mem_holdings.mpr ⟨index, b, hb, List.mem_singleton_self _⟩⟩
  obtain ⟨buffer', howns, hload⟩ := h.pooled.backs.whole _ hparked
  rw [howns.held, List.mem_singleton] at hbuffer
  rwa [hbuffer]

/--
**Nobody else reclaims or overwrites what a silent client keeps.** As long as nothing comes from its
address, its buffers stay rented, each with the datagram that was sent.
-/
theorem keeps_of_keepsQuiet (hpositive : config.Positive) (hstart : start.StartedWith config)
    (hreach : Reaches ServerStep.run start steps w)
    (hbetween : Reaches ServerStep.run w between w') (hquiet : KeepsQuiet address between) :
    w'.this.router.connectedClients.lookup address =
        w.this.router.connectedClients.lookup address ∧
      ∀ index buffer, w.Keeps address index buffer → w'.Keeps address index buffer ∧
        buffer ∉ w'.host.company.freeBuffers ∧
        w'.host.company.load { buffer } config.rentedBufferSize =
          w.host.company.load { buffer } config.rentedBufferSize := by
  have hlookup := lookup_of_keepsQuiet hbetween hquiet
  have hsettled := settled_of_reaches hpositive hstart hreach
  have hsettled' := settled_of_reaches hpositive hstart (hreach.trans hbetween)
  refine ⟨hlookup, ?_⟩
  rintro index buffer ⟨client, hclient, b, hb, hbuffer⟩
  rw [Option.mem_def] at hclient hb
  have hclient' := hlookup.trans hclient
  have hkeeps : w'.Keeps address index buffer := ⟨client, hclient', b, hb, hbuffer⟩
  refine ⟨hkeeps, fun hfree => ?_, ?_⟩
  · have haccounted := hsettled'.accounted
    exact (haccounted.free_iff buffer (haccounted.keeps_mem _ _ _ hkeeps)).mp hfree
      ⟨address, index, hkeeps⟩
  · rw [hsettled'.load_eq hclient' hb hbuffer, hsettled.load_eq hclient hb hbuffer]

end Silence

/-- Another address goes through the handshake meanwhile. -/
def othersHandshake : List ServerStep :=
  [.receive (.datagram (firstRequest 6) { sAddr := 1 }),
    .receive (.datagram secondRequest { sAddr := 1 })]

/-- Behind a request of one address, the handshake of another one. -/
theorem keeps_of_keepsQuiet_other : ∃ w w',
    Reaches ServerStep.run threeServer (handshake 6 ++ [asks 0]) w ∧
      Reaches ServerStep.run w othersHandshake w' ∧
      w'.this.router.connectedClients.lookup {} = w.this.router.connectedClients.lookup {} ∧
      ∀ index buffer, w.Keeps {} index buffer → w'.Keeps {} index buffer ∧
        buffer ∉ w'.host.company.freeBuffers ∧
        w'.host.company.load { buffer } threeBuffers.rentedBufferSize =
          w.host.company.load { buffer } threeBuffers.rentedBufferSize := by
  have hreach : Reaches ServerStep.run threeServer (handshake 6 ++ [asks 0]) _ :=
    reaches_of_succeeds (by decide +kernel)
  have hbetween : Reaches ServerStep.run (afterAll ServerStep.run threeServer
      (handshake 6 ++ [asks 0])) othersHandshake _ := reaches_of_succeeds (by decide +kernel)
  have hquiet : KeepsQuiet {} othersHandshake := by
    intro bytes hmem
    simp [othersHandshake] at hmem
  exact ⟨_, _, hreach, hbetween, keeps_of_keepsQuiet ⟨by decide, by decide, by decide⟩
    threeServer_started hreach hbetween hquiet⟩

end Rakro
