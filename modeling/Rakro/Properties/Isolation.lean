import Rakro.Properties.Mirrors

/-!
# Clients do not interfere

The datagrams of many addresses come to one server. What the server keeps of an address and sends to
it is what a server would that gets the datagrams of this address alone, at the same times. A
datagram of the address is processed by both servers, side by side, and a datagram of another address
by the first one only, which leaves the address out of it.
-/

namespace Rakro

open Infra

/-! ## One step of two servers -/

/-- Two servers that have the same for an address, before they process a datagram of it. -/
structure Comparable (config : ServerConfig) (address : IPV4Addr) (left right : List BufferId)
    (w v : ServerWorld) : Prop where
  bare : v.this.bare = w.this.bare
  ndebug : v.host.ndebug = w.host.ndebug
  mid : v.this.midConnectionClients.lookup address = w.this.midConnectionClients.lookup address
  client : (v.this.router.connectedClients.lookup address).map RakroServerClient.value =
    (w.this.router.connectedClients.lookup address).map RakroServerClient.value
  own : ∀ client ∈ w.this.router.connectedClients.lookup address,
    client.address = address ∧ client.Detached
  fewer :
    (holdings RakroServerClient.parked (v.this.router.connectedClients.erase address)).length ≤
      (holdings RakroServerClient.parked (w.this.router.connectedClients.erase address)).length
  pooledHere : w.Pooled config left
  pooledThere : v.Pooled config right
  scopes : right.length ≤ left.length

/-- What a server has for the others. -/
def ServerWorld.bystanders (w : ServerWorld) (address : IPV4Addr) : Bystanders where
  clients := w.this.router.connectedClients.erase address
  mids := w.this.midConnectionClients.erase address
  trace := w.host.trace

section Comparable

variable {config : ServerConfig} {address address' : IPV4Addr} {left right : List BufferId}
  {w v w' : ServerWorld}

/-- The two servers around the client at the address. -/
def Comparable.setting (h : Comparable config address left right w v) : Setting where
  config
  address
  server := w.this.bare
  ndebug := w.host.ndebug
  here := w.bystanders address
  there := v.bystanders address
  fewer := h.fewer

/-- What is comparable mirrors, at any clock. -/
theorem Comparable.mirrors (h : Comparable config address left right w v) (clock : Clock) :
    h.setting.Mirrors left right (w.at clock) (v.at clock) where
  bare := ⟨rfl, h.bare⟩
  ndebug := ⟨rfl, h.ndebug⟩
  here := ⟨rfl, rfl⟩
  there := ⟨rfl, rfl⟩
  mid := h.mid
  client := h.client
  own := h.own
  clock := rfl
  traces := ⟨[], by rintro _ _ ⟨⟩, (List.append_nil _).symm, (List.append_nil _).symm⟩
  pooledHere := h.pooledHere.of_same ⟨rfl, rfl⟩
  pooledThere := h.pooledThere.of_same ⟨rfl, rfl⟩
  scopes := h.scopes

/-- What the one server gets through, the other does, and they stay alike. -/
theorem Comparable.process {d : TimedDatagram} (h : Comparable config d.address left right w v)
    (hrun : d.process.run w = .ok ⟨⟩ w') : ∃ v' left' right', d.process.run v = .ok ⟨⟩ v' ∧
      left.length ≤ left'.length ∧ h.setting.Mirrors left' right' w' v' := by
  obtain ⟨⟨⟩, v', hrun', left', right', hle, hmirrors⟩ := simulates_process rfl w v ⟨⟩ w'
    (h.mirrors d.clock) hrun
  exact ⟨v', left', right', hrun', hle, hmirrors⟩

end Comparable

/-! ## Runs -/

/-- The bytes, if the event sends some to the address. -/
def Event.sentTo? (address : IPV4Addr) : Event → Option Bytes
  | .sent bytes other => if other = address then some bytes else none
  | _ => none

/-- The datagrams that have been sent to an address. -/
def ServerWorld.sentTo (w : ServerWorld) (address : IPV4Addr) : List Bytes :=
  w.host.trace.filterMap (Event.sentTo? address)

/-- The servers have the same for the address: its half-open entry, its client and what it got. -/
structure ServerWorld.SameFor (address : IPV4Addr) (w v : ServerWorld) : Prop where
  mid : v.this.midConnectionClients.lookup address = w.this.midConnectionClients.lookup address
  client : (v.this.router.connectedClients.lookup address).map RakroServerClient.value =
    (w.this.router.connectedClients.lookup address).map RakroServerClient.value
  sent : v.sentTo address = w.sentTo address

/-- A server with many addresses, and one with the datagrams of a single one. -/
structure Alone (config : ServerConfig) (address : IPV4Addr) (left right : List BufferId)
    (w v : ServerWorld) : Prop where
  same : w.SameFor address v
  bare : v.this.bare = w.this.bare
  ndebug : v.host.ndebug = w.host.ndebug
  tidy : AllEntries (fun address client => client.address = address ∧ client.Detached)
    w.this.router.connectedClients
  alone : v.this.router.connectedClients.erase address = ∅
  pooledHere : w.Pooled config left
  pooledThere : v.Pooled config right
  scopes : right.length ≤ left.length

section Alone

variable {config : ServerConfig} {address : IPV4Addr} {left right : List BufferId}
  {w v w' : ServerWorld} {d : TimedDatagram}

/-- What is sent behind an earlier trace comes behind what was sent before. -/
theorem sentTo_append {w' : ServerWorld} {new : List Event}
    (htrace : w'.host.trace = w.host.trace ++ new) :
    w'.sentTo address = w.sentTo address ++ new.filterMap (Event.sentTo? address) := by
  unfold ServerWorld.sentTo
  rw [htrace, List.filterMap_append]

/-- What is sent to another address does not count. -/
theorem filterMap_sentTo_eq_nil {other : IPV4Addr} {new : List Event}
    (honly : SendsOnlyTo other new) (hne : other ≠ address) :
    new.filterMap (Event.sentTo? address) = [] := by
  rw [List.filterMap_eq_nil_iff]
  intro event hevent
  cases event with
  | sent bytes other' =>
    obtain rfl := honly bytes other' hevent
    exact if_neg hne
  | _ => rfl

/-- Two runs that have been alone so far are comparable. -/
theorem Alone.comparable (h : Alone config address left right w v) :
    Comparable config address left right w v where
  bare := h.bare
  ndebug := h.ndebug
  mid := h.same.mid
  client := h.same.client
  own := h.tidy address
  fewer := by
    rw [h.alone, holdings_empty]
    exact Nat.zero_le _
  pooledHere := h.pooledHere
  pooledThere := h.pooledThere
  scopes := h.scopes

/-- A datagram of the address comes to both servers. -/
theorem Alone.step (h : Alone config d.address left right w v)
    (hrun : d.process.run w = .ok ⟨⟩ w') : ∃ v' left' right', d.process.run v = .ok ⟨⟩ v' ∧
      Alone config d.address left' right' w' v' := by
  obtain ⟨v', left', right', hrun', -, hmirrors⟩ := h.comparable.process hrun
  obtain ⟨new, -, hhere, hthere⟩ := hmirrors.traces
  refine ⟨v', left', right', hrun', ⟨hmirrors.mid, hmirrors.client, ?_⟩,
    hmirrors.bare.2.trans hmirrors.bare.1.symm, hmirrors.ndebug.2.trans hmirrors.ndebug.1.symm,
    h.tidy.of_erase_eq hmirrors.here.clients hmirrors.own,
    hmirrors.there.clients.trans h.alone, hmirrors.pooledHere, hmirrors.pooledThere,
    hmirrors.scopes⟩
  rw [sentTo_append hhere, sentTo_append hthere, h.same.sent]

/-- A datagram of another address comes to the first server, which is compared with itself. -/
theorem Alone.step_other (h : Alone config address left right w v) (hne : d.address ≠ address)
    (hrun : d.process.run w = .ok ⟨⟩ w') : ∃ left', Alone config address left' right w' v := by
  have hitself : Comparable config d.address left left w w :=
    ⟨rfl, rfl, rfl, rfl, h.tidy d.address, Nat.le_refl _, h.pooledHere, h.pooledHere, Nat.le_refl _⟩
  obtain ⟨_, left', _, -, hle, hmirrors⟩ := hitself.process hrun
  obtain ⟨new, honly, hhere, -⟩ := hmirrors.traces
  refine ⟨left', ⟨?_, ?_, ?_⟩, h.bare.trans hmirrors.bare.1.symm,
    h.ndebug.trans hmirrors.ndebug.1.symm, h.tidy.of_erase_eq hmirrors.here.clients hmirrors.own,
    h.alone, hmirrors.pooledHere, h.pooledThere, h.scopes.trans hle⟩
  · rw [lookup_eq_of_erase_eq hmirrors.here.mids hne.symm]
    exact h.same.mid
  · rw [lookup_eq_of_erase_eq hmirrors.here.clients hne.symm]
    exact h.same.client
  · rw [sentTo_append hhere, filterMap_sentTo_eq_nil honly hne, List.append_nil]
    exact h.same.sent

/-- At the start, nobody has sent anything. -/
theorem alone_of_startedWith (hblocks : 1 ≤ config.rentedBlockBufferCount)
    (h : w.StartedWith config) (address : IPV4Addr) : Alone config address [] [] w w := by
  have hpooled := pooled_of_startedWith hblocks h
  obtain ⟨w₀, hfresh, -, hrun⟩ := h
  have hnone := ServerWorld.Started.connected ⟨w₀, hfresh, hrun⟩
  refine ⟨⟨rfl, rfl, rfl⟩, rfl, rfl, ?_, ?_, hpooled, hpooled, Nat.le_refl _⟩
  · rw [hnone]
    exact allEntries_empty _
  · rw [hnone]
    rfl

/-- Without a block there is no buffer for a datagram. -/
theorem not_process_of_no_blocks (hblocks : config.rentedBlockBufferCount = 0)
    (h : w.StartedWith config) : d.process.run w ≠ .ok ⟨⟩ w' := by
  intro hrun
  obtain ⟨w₀, -, hcompany, hstart⟩ := h
  obtain ⟨_, w₁, hclock, hrun⟩ := bind_eq_ok hrun
  obtain ⟨_, w₂, hnext, -⟩ := bind_eq_ok hrun
  obtain ⟨rented, w₃, hrent, -⟩ := bind_eq_ok hnext
  have hsame : w₁.host.company = w₀.host.company := by
    cases hstart
    cases hclock
    rfl
  have hnone : w₁.host.company.rent = .error (.undefined "back() of an empty list") := by
    rw [hsame, hcompany, hblocks]
    rfl
  cases (run_serverRent_error hnone).symm.trans hrent

/-- Without a block the pool serves no round. -/
theorem reaches_of_no_blocks (hblocks : config.rentedBlockBufferCount = 0) {start : ServerWorld}
    (hstart : start.StartedWith config) {datagrams : List TimedDatagram}
    (hreach : Reaches TimedDatagram.process start datagrams w) : datagrams = [] ∧ w = start := by
  induction hreach with
  | nil => exact ⟨rfl, rfl⟩
  | snoc _ hrun ih =>
    obtain ⟨-, rfl⟩ := ih
    exact absurd hrun (not_process_of_no_blocks hblocks hstart)

/-- The runs of both servers. -/
theorem Alone.of_reaches {start : ServerWorld} (hstart : Alone config address [] [] start start)
    {datagrams : List TimedDatagram} (hreach : Reaches TimedDatagram.process start datagrams w) :
    ∃ v left right, Reaches TimedDatagram.process start
        (datagrams.filter fun d => d.address = address) v ∧ Alone config address left right w v := by
  induction hreach with
  | nil => exact ⟨start, [], [], .nil, hstart⟩
  | @snoc datagrams d w w' _ hrun ih =>
    obtain ⟨v, left, right, hreach, halone⟩ := ih
    rw [List.filter_append]
    by_cases haddress : d.address = address
    · subst haddress
      obtain ⟨v', left', right', hrun', halone'⟩ := halone.step hrun
      refine ⟨v', left', right', ?_, halone'⟩
      rw [List.filter_singleton, decide_eq_true rfl]
      exact hreach.snoc hrun'
    · obtain ⟨left', halone'⟩ := halone.step_other haddress hrun
      refine ⟨v, left', right, ?_, halone'⟩
      rw [List.filter_singleton, decide_eq_false haddress]
      simpa using hreach

end Alone

/--
**Clients do not interfere.** Of whatever addresses the datagrams are that a server gets through, a
server that gets those of one address alone gets through them and has the same for the address in
the end: its half-open entry, its client and what has been sent to it.
-/
theorem sameFor_of_reaches {config : ServerConfig} {start w : ServerWorld}
    (hstart : start.StartedWith config) {datagrams : List TimedDatagram}
    (hreach : Reaches TimedDatagram.process start datagrams w) (address : IPV4Addr) :
    ∃ v, Reaches TimedDatagram.process start
        (datagrams.filter fun d => d.address = address) v ∧ w.SameFor address v := by
  by_cases hblocks : config.rentedBlockBufferCount = 0
  · obtain ⟨rfl, rfl⟩ := reaches_of_no_blocks hblocks hstart hreach
    exact ⟨w, .nil, rfl, rfl, rfl⟩
  · obtain ⟨v, left, right, hreach', halone⟩ := Alone.of_reaches
      (alone_of_startedWith (Nat.one_le_iff_ne_zero.mpr hblocks) hstart address) hreach
    exact ⟨v, hreach', halone.same⟩

/-- Two addresses connect at the same time. The first one asks for a connection, too. -/
def twoAddresses : List TimedDatagram :=
  [⟨firstRequest 6, {}, fun _ => 1⟩, ⟨firstRequest 6, { sinPort := 1 }, fun _ => 2⟩,
    ⟨secondRequest, { sinPort := 1 }, fun _ => 3⟩, ⟨secondRequest, {}, fun _ => 4⟩,
    ⟨[0x80, 0, 0, 0, 0, 0, 144, 9] ++ List.replicate 17 0, {}, fun _ => 5⟩]

/-- Two addresses, and one of them alone. -/
theorem sameFor_twoAddresses : ∃ w v, Reaches TimedDatagram.process threeServer twoAddresses w ∧
    Reaches TimedDatagram.process threeServer (twoAddresses.filter fun d => d.address = {}) v ∧
      w.SameFor {} v := by
  have hreach : Reaches TimedDatagram.process threeServer twoAddresses _ :=
    reaches_of_succeeds (by decide +kernel)
  obtain ⟨v, halone, hsame⟩ := sameFor_of_reaches threeServer_started hreach {}
  exact ⟨_, v, hreach, halone, hsame⟩

end Rakro
