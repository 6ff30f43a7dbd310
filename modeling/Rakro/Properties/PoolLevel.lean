import Rakro.Properties.Ownership

/-!
# The pool between two datagrams

The listener rents a buffer for every datagram and has returned it when it comes to the next one,
whatever the datagram was. So however much the clients leave unacknowledged, there is that one
buffer at least. Inside a datagram it may be otherwise: a reply takes two buffers more.
-/

namespace Rakro

open Infra BinaryBuffer

/-- The buffers of the pool, seen by the server. -/
def ServerWorld.Pooled (config : ServerConfig) (scope : List BufferId) (w : ServerWorld) : Prop :=
  w.routing.Pooled config scope

/-- The buffer of the last datagram is back in the pool. -/
def ServerWorld.Settled (config : ServerConfig) (w : ServerWorld) : Prop :=
  w.routing.Settled config

/-- Neither the clients nor the pool change. -/
structure SameClients (w w' : ServerWorld) : Prop where
  connectedClients :
    w'.this.router.connectedClients = w.this.router.connectedClients
  company : w'.host.company = w.host.company

instance : IsPreorder ServerWorld SameClients where
  refl _ := ⟨rfl, rfl⟩
  trans _ _ _ h h' := ⟨h'.1.trans h.1, h'.2.trans h.2⟩

section Server

variable {α : Type} {config : ServerConfig} {scope : List BufferId} {w w' : ServerWorld}
  {b : BinaryBuffer} {buffer : BufferId}

theorem ServerWorld.Pooled.of_same (h : w.Pooled config scope) (hsame : SameClients w w') :
    w'.Pooled config scope := by
  refine ⟨?_, fun address client hclient => h.views address client ?_⟩
  · show w'.host.company.Backs config (holdings RakroServerClient.parked
      w'.this.router.connectedClients) scope
    rw [hsame.connectedClients, hsame.company]
    exact h.backs
  · rw [← hclient]
    exact congrArg (AList.lookup address) hsame.connectedClients.symm

/-! ## Replies -/

variable (config scope) in
/-- The method keeps to the pool. -/
abbrev KeepsServerPooled (m : ServerM α) : Prop :=
  Yields (ServerWorld.Pooled config scope) m fun _ => ServerWorld.Pooled config scope

theorem KeepsServerPooled.of_same {m : ServerM α} (h : Within SameClients m) :
    KeepsServerPooled config scope m :=
  fun _ _ _ hpooled hrun => hpooled.of_same (h.of_run hrun)

theorem same_readFrom (b : BinaryBuffer) (method : BufM α) :
    Within SameClients (readFrom b method) := by
  intro w
  unfold readFrom after EStateM.run
  cases method b <;> exact refl w

theorem same_serverEmit (event : Event) : Within SameClients (serverEmit event) :=
  fun _ => ⟨rfl, rfl⟩

theorem same_serverSendTo (bytes : Bytes) (address : IPV4Addr) (packet : PacketId) :
    Within SameClients (serverSendTo bytes address packet) :=
  Within.bind (Within.bind Within.get fun _ => Within.ite (same_serverEmit _) (Within.pure _))
    fun _ => same_serverEmit _

theorem same_onRouter_time : Within SameClients (onRouter routerTime) := fun _ => ⟨rfl, rfl⟩

/-- A buffer that has been read from is at its place. -/
theorem yields_readFrom {m : BufM α} (hm : Reading m)
    (howns : b.realBuffer.Owns config.rentedBufferSize buffer) :
    Yields (ServerWorld.Pooled config scope) (readFrom b m) fun r w =>
      r.2.realBuffer.Owns config.rentedBufferSize buffer ∧ w.Pooled config scope := by
  intro w r w' h hrun
  obtain ⟨hread, rfl⟩ := readFrom_eq_ok hrun
  exact ⟨owns_of_writeFrame howns (hm.within.of_run hread).writeFrame, h⟩

theorem owns_clear (howns : b.realBuffer.Owns config.rentedBufferSize buffer) :
    b.clear.realBuffer.Owns config.rentedBufferSize buffer := by
  refine ⟨howns.home, howns.owner, ?_⟩
  rw [← howns.length]
  exact congrArg List.length (List.append_nil _)

theorem yields_writeInto {m : BufM PUnit} (hm : Filling m)
    (howns : b.realBuffer.Owns config.rentedBufferSize buffer) (hscope : buffer ∈ scope) :
    Yields (ServerWorld.Pooled config scope) (writeInto b m) fun b' w =>
      b'.realBuffer.Owns config.rentedBufferSize buffer ∧ w.Pooled config scope := by
  intro w b' w' h hrun
  obtain ⟨r, w₁, hfrom, hrest⟩ := bind_eq_ok hrun
  obtain ⟨hwrite, rfl⟩ := readFrom_eq_ok hfrom
  cases hrest
  have howns' := owns_of_writeFrame howns (hm.within.of_run hwrite)
  exact ⟨howns', h.backs.keep howns' hscope, h.views⟩

/-- The reply is written over the request and sent. -/
theorem yields_reply {m : BufM PUnit} (hm : Filling m) {address : IPV4Addr} {packet : PacketId}
    (howns : b.realBuffer.Owns config.rentedBufferSize buffer) (hscope : buffer ∈ scope) :
    Yields (ServerWorld.Pooled config scope) (do
      let buffer ← writeInto b.clear m
      serverSendTo buffer.consumedSlice address packet
      pure buffer) fun b' w =>
      b'.realBuffer.Owns config.rentedBufferSize buffer ∧ w.Pooled config scope := by
  refine Yields.bind (yields_writeInto hm (owns_clear howns) hscope) fun b' =>
    Yields.of_and fun howns' => ?_
  exact Yields.bind (KeepsServerPooled.of_same (same_serverSendTo _ _ _)) fun _ =>
    Yields.pure fun _ h => ⟨howns', h⟩

theorem yields_unconnectedPing (address : IPV4Addr)
    (howns : b.realBuffer.Owns config.rentedBufferSize buffer) (hscope : buffer ∈ scope) :
    Yields (ServerWorld.Pooled config scope) (unconnectedPing b address) fun b' w =>
      b'.realBuffer.Owns config.rentedBufferSize buffer ∧ w.Pooled config scope := by
  refine Yields.bind (yields_readFrom (reading_readNext _) howns) fun r =>
    Yields.of_and fun howns => ?_
  refine Yields.get_bind fun w _ => ?_
  split
  · exact Yields.throw _
  · refine Yields.bind (KeepsServerPooled.of_same same_onRouter_time) fun _ =>
      Yields.get_bind fun _ _ => ?_
    exact yields_reply (filling_write _) howns hscope

theorem filling_replyOne (ocr : OpenConnectionRequest1) (server : RakServer) :
    Filling (replyOne ocr server) := by
  unfold replyOne
  split
  · exact filling_write _
  · exact filling_write _

theorem yields_openConnectionRequest1 (address : IPV4Addr)
    (howns : b.realBuffer.Owns config.rentedBufferSize buffer) (hscope : buffer ∈ scope) :
    Yields (ServerWorld.Pooled config scope) (openConnectionRequest1 b address) fun b' w =>
      b'.realBuffer.Owns config.rentedBufferSize buffer ∧ w.Pooled config scope := by
  refine Yields.bind (yields_readFrom (reading_readNext _) howns) fun r =>
    Yields.of_and fun howns => ?_
  refine Yields.get_bind fun w _ => ?_
  refine Yields.bind (yields_writeInto (filling_replyOne _ _) (owns_clear howns) hscope) fun b' =>
    Yields.of_and fun howns' => ?_
  refine Yields.bind (KeepsServerPooled.of_same (same_serverSendTo _ _ _)) fun _ => ?_
  refine Yields.bind (KeepsServerPooled.of_same same_onRouter_time) fun _ => ?_
  exact Yields.bind (KeepsServerPooled.of_same fun _ => ⟨rfl, rfl⟩) fun _ =>
    Yields.pure fun _ h => ⟨howns', h⟩

/-- A method of the router that keeps to the pool does so as a step of the server. -/
theorem yields_onRouter {P : RouterWorld → Prop} {Q : α → RouterWorld → Prop} {m : RouterM α}
    (h : Yields P m Q) : Yields (fun w => P w.routing) (onRouter m) fun a w => Q a w.routing := by
  intro w a w' hw hrun
  cases hm : m.run { router := w.this.router, host := w.host } with
  | ok a' rw =>
    cases (run_onRouter_ok hm).symm.trans hrun
    exact h _ _ _ hw hm
  | error e rw => cases (run_onRouter_error hm).symm.trans hrun

theorem yields_openConnectionRequest2 (address : IPV4Addr)
    (howns : b.realBuffer.Owns config.rentedBufferSize buffer) (hscope : buffer ∈ scope) :
    Yields (ServerWorld.Pooled config scope) (openConnectionRequest2 b address) fun b' w =>
      b'.realBuffer.Owns config.rentedBufferSize buffer ∧ w.Pooled config scope := by
  refine Yields.bind (yields_readFrom (reading_readNext _) howns) fun r =>
    Yields.of_and fun howns => ?_
  refine Yields.get_bind fun w _ => ?_
  dsimp only
  split
  · exact Yields.pure fun _ h => ⟨howns, h⟩
  · refine Yields.bind (Q := fun _ => ServerWorld.Pooled config scope)
      (yields_onRouter (keepsPooled_connectClient _ _ _ _)) fun _ => ?_
    exact yields_reply (filling_write _) howns hscope

theorem yields_handlePacket (address : IPV4Addr)
    (howns : b.realBuffer.Owns config.rentedBufferSize buffer) (hscope : buffer ∈ scope) :
    Yields (ServerWorld.Pooled config scope) (handlePacket b address) fun r w =>
      r.2.realBuffer.Owns config.rentedBufferSize buffer ∧ w.Pooled config scope := by
  refine Yields.bind (yields_readFrom (reading_readNext _) howns) fun r =>
    Yields.of_and fun howns => ?_
  dsimp only
  split
  · exact Yields.bind (yields_unconnectedPing address howns hscope) fun _ =>
      Yields.pure fun _ h => h
  · exact Yields.bind (yields_openConnectionRequest1 address howns hscope) fun _ =>
      Yields.pure fun _ h => h
  · exact Yields.bind (yields_openConnectionRequest2 address howns hscope) fun _ =>
      Yields.pure fun _ h => h
  · exact Yields.pure fun _ h => ⟨howns, h⟩

/-! ## A round of the loop -/

theorem yields_serverRelease (hsize : 1 ≤ config.rentedBufferSize) {rented : RentedBuffer}
    (howns : rented.Owns config.rentedBufferSize buffer) :
    Yields (ServerWorld.Pooled config [buffer]) (serverRelease rented) fun _ =>
      ServerWorld.Settled config := by
  intro w u w' h hrun
  have hroom := h.backs.length_lt
  cases hrun
  exact ⟨⟨h.backs.release hsize howns, h.views⟩, hroom⟩

theorem yields_dispatch (hsize : 1 ≤ config.rentedBufferSize) (address : IPV4Addr)
    (howns : b.realBuffer.Owns config.rentedBufferSize buffer) :
    Yields (ServerWorld.Pooled config [buffer]) (dispatch b address) fun _ =>
      ServerWorld.Settled config := by
  refine Yields.bind (KeepsServerPooled.of_same
    (Within.bind (same_readFrom _ _) fun _ => Within.pure _)) fun trivial => ?_
  refine Yields.ite (fun _ => ?_) fun _ => yields_onRouter (yields_route hsize howns)
  refine Yields.bind (yields_handlePacket address howns (List.mem_singleton_self _)) fun r =>
    Yields.of_and fun howns' => ?_
  refine Yields.ite (fun _ => yields_serverRelease hsize howns') fun _ => ?_
  exact Yields.bind (KeepsServerPooled.of_same (same_serverEmit _)) fun _ =>
    yields_serverRelease hsize howns'

/-- The rented buffer with a datagram in it. -/
def RentedBuffer.filled (rented : RentedBuffer) (bytes : Bytes) : RentedBuffer :=
  { rented with
    memory := bytes.take rented.memory.length ++ rented.memory.drop bytes.length }

/-- A buffer that is filled owns what it owned. -/
theorem RentedBuffer.Owns.filled {rented : RentedBuffer} {size : Nat}
    (h : rented.Owns size buffer) (bytes : Bytes) : (rented.filled bytes).Owns size buffer := by
  refine ⟨h.home, h.owner, ?_⟩
  have hlength := h.length
  unfold RentedBuffer.filled
  dsimp only
  rw [List.length_append, List.length_take, List.length_drop]
  omega

/-- Receiving fills the buffer and leaves it at its place. -/
theorem yields_recvValue {rented : RentedBuffer}
    (howns : rented.Owns config.rentedBufferSize buffer) (hscope : buffer ∈ scope) :
    ∀ arrival, Yields (ServerWorld.Pooled config scope) (recvValue rented arrival) fun r w =>
      r.1.Owns config.rentedBufferSize buffer ∧ w.Pooled config scope
  | .failed _ => Yields.pure fun _ h => ⟨howns, h⟩
  | .datagram bytes _ => by
    intro w r w' h hrun
    cases hrun
    have hfilled := howns.filled bytes
    exact ⟨hfilled, h.backs.keep hfilled hscope, h.views⟩

/-- What the loop goes on with: a datagram in a buffer of its own, or nothing. -/
def ReadyFor (config : ServerConfig) (next : Option (BinaryBuffer × IPV4Addr)) (w : ServerWorld) :
    Prop :=
  match next with
  | none => w.Settled config
  | some (b, _) => ∃ buffer, b.realBuffer.Owns config.rentedBufferSize buffer ∧
      w.Pooled config [buffer]

theorem yields_serverRent : Yields (ServerWorld.Pooled config []) serverRent fun rented w =>
    ∃ buffer, rented.Owns config.rentedBufferSize buffer ∧ w.Pooled config [buffer] := by
  intro w rented w' h hrun
  cases hrent : w.host.company.rent with
  | error e => cases (run_serverRent_error hrent).symm.trans hrun
  | ok r =>
    cases (run_serverRent_ok hrent).symm.trans hrun
    obtain ⟨buffer, howns, hbacks⟩ := h.backs.rent hrent
    exact ⟨buffer, howns, hbacks, h.views⟩

theorem owns_of_ofRentedLimit {rented : RentedBuffer} {limit : Nat}
    (h : ofRentedLimit rented limit = .ok b)
    (howns : rented.Owns config.rentedBufferSize buffer) :
    b.realBuffer.Owns config.rentedBufferSize buffer := by
  unfold ofRentedLimit at h
  split at h
  · cases h
    refine ⟨howns.home, howns.owner, ?_⟩
    rw [← howns.length]
    exact congrArg List.length (List.take_append_drop _ _)
  · cases h

/-- Receiving ends with the datagram's buffer in scope, or with none. -/
theorem yields_nextDatagram (hsize : 1 ≤ config.rentedBufferSize) (arrival : Arrival) :
    Yields (ServerWorld.Pooled config []) (nextDatagram arrival) (ReadyFor config) := by
  refine Yields.bind yields_serverRent fun rented => Yields.of_exists fun buffer =>
    Yields.of_and fun howns => ?_
  refine Yields.bind (yields_recvValue howns (List.mem_singleton_self _) arrival) fun r =>
    Yields.of_and fun howns => ?_
  obtain ⟨rented, result⟩ := r
  have hreleased : Yields (ServerWorld.Pooled config [buffer])
      (do serverRelease rented; pure none) (ReadyFor config) :=
    Yields.bind (yields_serverRelease hsize howns) fun _ => Yields.pure fun _ h => h
  cases result with
  | error errorCode => exact Yields.ite (fun _ => hreleased) fun _ => Yields.throw _
  | ok result =>
    refine Yields.ite (fun _ => hreleased) fun _ => ?_
    cases hlimit : ofRentedLimit rented result.1 with
    | error e => exact Yields.throw e
    | ok b => exact Yields.pure fun _ h => ⟨buffer, owns_of_ofRentedLimit hlimit howns, h⟩

/-- **A step of the server returns the buffer that it has rented.** -/
theorem yields_step (hsize : 1 ≤ config.rentedBufferSize) :
    ∀ step : ServerStep, Yields (ServerWorld.Settled config) step.run fun _ =>
      ServerWorld.Settled config
  | .receive arrival => by
    refine Yields.bind (Q := ReadyFor config)
      (fun w r w' h hrun => yields_nextDatagram hsize arrival w r w' h.pooled hrun) fun next => ?_
    cases next with
    | none => exact Yields.pure fun _ h => h
    | some next =>
      exact Yields.of_exists fun buffer => Yields.of_and fun howns =>
        yields_dispatch hsize next.2 howns
  | .updateServerId _ => by
    intro w u w' h hrun
    cases hrun
    exact h

/-! ## Runs -/

/-- All three counts are positive. -/
structure ServerConfig.Positive (config : ServerConfig) : Prop where
  bufferCount : 1 ≤ config.rentedBufferCount
  bufferSize : 1 ≤ config.rentedBufferSize
  blockBufferCount : 1 ≤ config.rentedBlockBufferCount

/-- A server that has been made of the configuration, as its listener comes to the loop. -/
def ServerWorld.StartedWith (config : ServerConfig) (w : ServerWorld) : Prop :=
  ∃ w₀ : ServerWorld, w₀.this.IsFresh ∧
    w₀.host.company = .new config.rentedBufferCount config.rentedBufferSize
      config.rentedBlockBufferCount ∧
    RakServer.start.run w₀ = .ok ⟨⟩ w

/-- A new company backs a server that stores nothing. -/
theorem backs_new (hblocks : 1 ≤ config.rentedBlockBufferCount) :
    (BufferCompany.new config.rentedBufferCount config.rentedBufferSize
      config.rentedBlockBufferCount).Backs config [] [] where
  conserves := BufferCompany.conserves_new hblocks
  configured := by
    rw [BufferCompany.new_eq hblocks]
    exact ⟨rfl, rfl, rfl, rfl⟩
  whole := by simp

/-- A server that has just started has parked nothing. -/
theorem ServerWorld.StartedWith.parked_eq (h : w.StartedWith config) :
    w.this.router.parked = [] := by
  obtain ⟨w₀, hfresh, -, hrun⟩ := h
  have hstarted : w.Started := ⟨w₀, hfresh, hrun⟩
  unfold ClientRouter.parked
  rw [hstarted.connected]
  rfl

/-- Its account starts right. -/
theorem pooled_of_startedWith (hblocks : 1 ≤ config.rentedBlockBufferCount)
    (h : w.StartedWith config) : w.Pooled config [] := by
  have hparked := h.parked_eq
  obtain ⟨w₀, hfresh, hcompany, hrun⟩ := h
  have hstarted : w.Started := ⟨w₀, hfresh, hrun⟩
  refine ⟨?_, ?_⟩
  · show w.host.company.Backs config w.this.router.parked []
    rw [hparked]
    cases hrun
    show w₀.host.company.Backs config [] []
    rw [hcompany]
    exact backs_new hblocks
  · show AllEntries _ w.this.router.connectedClients
    rw [hstarted.connected]
    exact allEntries_empty _

theorem settled_of_startedWith (hpositive : config.Positive) (h : w.StartedWith config) :
    w.Settled config := by
  refine ⟨pooled_of_startedWith hpositive.blockBufferCount h, ?_⟩
  show w.this.router.parked.length < _
  rw [h.parked_eq]
  exact Nat.mul_pos hpositive.blockBufferCount hpositive.bufferCount

/-- Between two steps of any run, every buffer is free or parked. -/
theorem settled_of_reaches (hpositive : config.Positive) {start : ServerWorld}
    (hstart : start.StartedWith config) {steps : List ServerStep}
    (hreach : Reaches ServerStep.run start steps w) : w.Settled config :=
  hreach.holds (settled_of_startedWith hpositive hstart) (yields_step hpositive.bufferSize)

/-! ## Pools that no datagram fits into -/

/-- No buffer has room for a byte, or none can be rented. -/
def BufferCompany.Useless (company : BufferCompany) : Prop :=
  company.bufferSize = 0 ∨ ∀ r, company.rent ≠ .ok r

/-- A pool that is made with a count of zero. -/
theorem useless_new (h : ¬ config.Positive) :
    (BufferCompany.new config.rentedBufferCount config.rentedBufferSize
      config.rentedBlockBufferCount).Useless := by
  obtain ⟨count, size, max⟩ := config
  by_cases hmax : max = 0
  · subst hmax
    refine .inr fun r hrent => ?_
    cases hrent
  have hmax : 1 ≤ max := Nat.one_le_iff_ne_zero.mpr hmax
  by_cases hcount : count = 0
  · subst hcount
    refine .inr fun r hrent => ?_
    have hconserves : (BufferCompany.new 0 size max).Conserves [] :=
      BufferCompany.conserves_new hmax
    rw [BufferCompany.new_eq hmax] at hconserves hrent
    obtain ⟨buffer, -, hconserves, hgrows⟩ := hconserves.rent_eq_ok rfl hrent
    -- the buffer would be one of none
    have hlength := hconserves.perm.length_eq
    rw [List.length_append, BufferCompany.length_allBuffers, hgrows.bufferCount, Nat.mul_zero]
      at hlength
    exact Nat.succ_ne_zero _ hlength
  · refine .inl ?_
    rw [BufferCompany.new_eq hmax]
    by_contra hsize
    exact h ⟨Nat.one_le_iff_ne_zero.mpr hcount, Nat.one_le_iff_ne_zero.mpr hsize, hmax⟩

/-- The server never gets to a datagram. -/
theorem nextDatagram_of_useless {arrival : Arrival} {r : Option (BinaryBuffer × IPV4Addr)}
    (h : w.host.company.Useless) (hrun : (nextDatagram arrival).run w = .ok r w') :
    r = none ∧ SameTime w w' ∧ w'.host.company.Useless := by
  have hsame := (within_nextDatagram arrival).of_run hrun
  rcases h with hsize | hrent
  · refine ⟨?_, hsame, .inl (hsame.bufferSize.trans hsize)⟩
    rcases nextDatagram_eq_ok hrun with ⟨hnone, -⟩ | ⟨b, bytes, address, -, -, hb⟩
    · exact hnone
    · have hlen := hb.size_eq
      have hpos := List.length_pos_iff.mpr hb.nonempty
      rw [← hb.bytes_eq] at hpos
      omega
  · obtain ⟨rented, w₁, hserver, -⟩ := bind_eq_ok hrun
    cases hcompany : w.host.company.rent with
    | error e => cases (run_serverRent_error hcompany).symm.trans hserver
    | ok r => exact absurd hcompany (hrent r)

/-- With such a pool, nobody is ever connected. -/
theorem unconnected_of_reaches (h : ¬ config.Positive) {start : ServerWorld}
    (hstart : start.StartedWith config) {steps : List ServerStep}
    (hreach : Reaches ServerStep.run start steps w) : w.this.router.connectedClients = ∅ := by
  refine (hreach.holds (P := fun w => w.this.router.connectedClients = ∅ ∧
    w.host.company.Useless) ?_ fun step w u w' hw hrun => ?_).1
  · obtain ⟨w₀, hfresh, hcompany, hrun⟩ := hstart
    refine ⟨ServerWorld.Started.connected ⟨w₀, hfresh, hrun⟩, ?_⟩
    cases hrun
    show w₀.host.company.Useless
    rw [hcompany]
    exact useless_new h
  · cases step with
    | updateServerId id =>
      cases hrun
      exact hw
    | receive arrival =>
      obtain ⟨next, w₁, hnext, hrest⟩ := bind_eq_ok hrun
      obtain ⟨rfl, hsame, huseless⟩ := nextDatagram_of_useless hw.2 hnext
      cases hrest
      rw [hsame.this]
      exact ⟨hw.1, huseless⟩

/-! ## The next buffer -/

/-- The next buffer is rented at once: one of a block is free, or there may be another block. -/
structure BufferCompany.RentsAtOnce (company : BufferCompany) : Prop where
  room : (∃ block ∈ company.blocks, block.freeBuffers ≠ []) ∨
    company.blocks.length < company.blockMaxCount
  returns : ∃ rented company', company.rent = .ok (rented, company')

/-- With fewer buffers stored than there may be, one can be rented without waiting. -/
theorem BufferCompany.Backs.rentsAtOnce {company : BufferCompany} {stored : List RentedBuffer}
    (h : company.Backs config stored []) (hroom : stored.length < config.capacity) :
    company.RentsAtOnce := by
  refine ⟨?_, h.rent_returns hroom⟩
  by_cases hfull : company.blocks.length = company.blockMaxCount
  · left
    by_contra hnone
    refine h.freeBuffers_ne_nil hroom hfull (List.flatMap_eq_nil_iff.mpr fun block hblock => ?_)
    by_contra hne
    exact hnone ⟨block, hblock, hne⟩
  · exact Or.inr (Nat.lt_of_le_of_ne h.conserves.length_le hfull)

/--
**Between two datagrams the listener can always rent a buffer for the next one**, whatever the
clients have sent and left unacknowledged.
-/
theorem rentsAtOnce_of_reaches (hpositive : config.Positive) {start : ServerWorld}
    (hstart : start.StartedWith config) {steps : List ServerStep}
    (hreach : Reaches ServerStep.run start steps w) : w.host.company.RentsAtOnce := by
  have hsettled := settled_of_reaches hpositive hstart hreach
  exact hsettled.pooled.backs.rentsAtOnce hsettled.room

end Server

/-- A pool of three buffers, in blocks of one. -/
def threeBuffers : ServerConfig where
  rentedBufferCount := 3
  rentedBufferSize := 200
  rentedBlockBufferCount := 1

/-- A server on that pool, before its start. -/
def threeServer : ServerWorld := .new threeBuffers false fun _ => 0

theorem threeServer_started : threeServer.StartedWith threeBuffers := ⟨threeServer, rfl, rfl, rfl⟩

/-- A connection request in the datagram `number`. Its sender acknowledges nothing. -/
def asks (number : UInt8) : ServerStep :=
  .receive (.datagram ([0x80, number, 0, 0, 0, 0, 144, 9] ++ List.replicate 17 0) {})

/-- Behind a request of a connected address. -/
theorem rentsAtOnce_asks : ∃ w, Reaches ServerStep.run threeServer (handshake 6 ++ [asks 0]) w ∧
    w.host.company.RentsAtOnce := by
  have hreach : Reaches ServerStep.run threeServer (handshake 6 ++ [asks 0]) _ :=
    reaches_of_succeeds (by decide +kernel)
  exact ⟨_, hreach, rentsAtOnce_of_reaches ⟨by decide, by decide, by decide⟩ threeServer_started
    hreach⟩

/-- The answer to a second request waits for a buffer inside of its datagram. -/
example : ¬ Succeeds ((handshake 6 ++ [asks 0, asks 1]).forM ServerStep.run) threeServer := by
  decide +kernel

end Rakro
