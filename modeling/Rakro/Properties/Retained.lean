import Rakro.Properties.NoLeak
import Rakro.Properties.ProcessAck

/-!
# How long a datagram is kept

A reliable datagram is kept until it is acknowledged or its client is dropped for its silence. Until
then it stays as it was sent, whatever else the client and the others send, and then its buffer is
back in the pool.

Nothing but `process_ack` takes an entry out of the acknowledgement buffer of a client, and `insert`
leaves an entry that is there already alone. So that holds for runs of any length, with a counter of
the reliable datagrams that begins again.
-/

namespace Rakro

open Infra BinaryBuffer

/-! ## What leaves the entries where they are -/

/-- Each datagram that waits for its acknowledgement waits on. -/
def Retains (w w' : World) : Prop :=
  ∀ index b, w.this.ackBuffer.lookup index = some b → w'.this.ackBuffer.lookup index = some b

instance : IsPreorder World Retains where
  refl _ _ _ h := h
  trans _ _ _ h h' index b hb := h' index b (h index b hb)

theorem retains_of_eq {w w' : World} (h : w'.this.ackBuffer = w.this.ackBuffer) : Retains w w' :=
  fun _ _ hb => h ▸ hb

/-- The frames of a datagram leave what is filed. -/
theorem retains_loopBound : LoopBound Retains where
  answers _ _ h := h.kept
  data _ _ := retains_of_eq rfl
  counters _ _ _ := retains_of_eq rfl
  taken _ _ := retains_of_eq rfl
  stored _ _ _ _ _ _ _ _ := retains_of_eq rfl
  called _ _ := retains_of_eq rfl
  sliced _ _ _ _ := retains_of_eq rfl

/-- A datagram that is no acknowledgement takes nothing away. -/
theorem retains_processPacket {b : BinaryBuffer} (hstart : b.index = 0)
    (hid : b.bytes[0]? ≠ some PacketId.ack.toUnderlying) : Within Retains (processPacket b) := by
  have hrelease : Within Retains (release b) :=
    retains_loopBound.within_answers (within_release b)
  cases packetFront hstart with
  | short _ _ hrun =>
    intro w
    rw [after_of_error (hrun w)]
    exact hrelease w
  | ignored _ _ _ hrun =>
    rw [hrun]
    exact hrelease
  | nack _ hrun =>
    rw [hrun]
    exact Within.bind (retains_loopBound.within_answers (within_emit rfl rfl)) fun _ => hrelease
  | ack hbytes _ =>
    rw [hbytes] at hid
    exact absurd rfl hid
  | frameSet hset =>
    exact retains_loopBound.within_frameSet (fun _ _ => retains_of_eq rfl) hset

/-! ## What an acknowledgement takes away -/

namespace Ack

/-- The acknowledgement in a datagram, as `process_ack` reads it. -/
def decode (bytes : Bytes) : Option Ack :=
  match (readNext Ack).run { bytes } with
  | .ok ack _ => some ack
  | .error _ _ => none

/-- What is read does not depend on the memory around the datagram. -/
theorem decode_of_read {b b' : BinaryBuffer} {ack : Ack} (hstart : b.index = 0)
    (hread : (readNext Ack).run b = .ok ack b') : decode b.bytes = some ack := by
  obtain ⟨ack', c', hread', rfl, -⟩ := (reading_readNext Ack).simulates b { bytes := b.bytes }
    ack b' ⟨rfl, hstart.symm⟩ hread
  unfold decode
  rw [hread']

/-- The generator yields the numbers of the records, one record after the other. -/
theorem eq_flatMap_of_allPackets {ack : Ack} {ids : List UInt24}
    (h : ∀ record ∈ ack.records, record.Canonical) (hids : ack.allPackets = some ids) :
    ids = ack.records.flatMap Record.numbers := by
  obtain ⟨outs, houts, -⟩ := Option.map_eq_some_iff.mp hids
  have hall := isSome_mapM_iff.mp (Option.isSome_of_eq_some houts)
  have hpackets := (flatten_packets_iff h).mpr fun record hrecord =>
    (endsBelowTop_iff (h record hrecord)).mpr (hall record hrecord)
  exact Option.some.inj (hids.symm.trans hpackets)

end Ack

/-- An acknowledgement that returns has erased its numbers and returned buffers. -/
structure Erases (ack : Ack) (w w' : World) : Prop where
  entries : w'.this.ackBuffer = eraseAll w.this.ackBuffer (ack.records.flatMap Ack.Record.numbers)
  canonical : ∀ record ∈ ack.records, record.Canonical
  returns : ReturnsOnly w w'

section Erases

variable {w w' : World} {b stored : BinaryBuffer} {index : UInt24} {ack : Ack}

/-- A whole acknowledgement erases the numbers it decodes to. -/
theorem erases_processAck (hstart : b.index = 0) (hrun : (processAck b).run w = .ok ⟨⟩ w') :
    ∃ ack, Ack.decode b.bytes = some ack ∧ Erases ack w w' := by
  obtain ⟨ack, b', hread, hsome⟩ := (succeeds_processAck_iff_read b w).mp ⟨_, _, hrun⟩
  obtain ⟨ids, hids⟩ := Option.isSome_iff_exists.mp hsome
  have hcanonical := Ack.canonical_of_readAck hread
  cases hrun.symm.trans (run_processAck hread hids w)
  refine ⟨ack, Ack.decode_of_read hstart hread, ?_, hcanonical, ?_⟩
  · rw [← Ack.eq_flatMap_of_allPackets hcanonical hids]
    exact congrArg RakroServerClient.ackBuffer (this_forM_eraseAckBuffer ids w)
  · exact IsTrans.trans _ _ _ (Within.forM returnsOnly_eraseAckBuffer ids w)
      (returnsOnly_release b _)

/-- What is not acknowledged stays filed. -/
theorem Erases.lookup_of_not_covers (h : Erases ack w w') (hindex : index.Canonical)
    (hnot : ¬ ack.Covers index) :
    w'.this.ackBuffer.lookup index = w.this.ackBuffer.lookup index := by
  rw [h.entries]
  exact lookup_eraseAll_of_notMem fun hmem =>
    hnot ((Ack.mem_flatMap_numbers_iff h.canonical hindex).mp hmem)

/-- What is acknowledged is filed no more. -/
theorem Erases.lookup_of_covers (h : Erases ack w w') (hindex : index.Canonical)
    (hcovers : ack.Covers index) : w'.this.ackBuffer.lookup index = none := by
  rw [h.entries]
  exact lookup_eraseAll_of_mem ((Ack.mem_flatMap_numbers_iff h.canonical hindex).mpr hcovers)

/-- Nothing comes with an acknowledgement. -/
theorem Erases.lookup_subset (h : Erases ack w w')
    (hlookup : w'.this.ackBuffer.lookup index = some stored) :
    w.this.ackBuffer.lookup index = some stored := by
  rw [h.entries] at hlookup
  exact (lookup_of_lookup_eraseAll hlookup).2

/-- With the id of an acknowledgement, a datagram is one. -/
theorem processPacket_ack (hstart : b.index = 0)
    (hid : b.bytes[0]? = some PacketId.ack.toUnderlying) : processPacket b = processAck b := by
  have hbytes : b.bytes = PacketId.ack.toUnderlying :: b.bytes.tail := by
    cases hb : b.bytes with
    | nil =>
      rw [hb] at hid
      cases hid
    | cons id r =>
      rw [hb] at hid
      cases hid
      rfl
  rw [processPacket_branch hstart hbytes, if_neg (by decide), if_pos (by decide)]
  rfl

/-- What waits under a number is there still behind a datagram that does not acknowledge it. -/
theorem lookup_processPacket (hstart : b.index = 0)
    (hrun : (processPacket b).run w = .ok ⟨⟩ w') (hindex : index.Canonical)
    (hstored : w.this.ackBuffer.lookup index = some stored)
    (hnot : ∀ ack, b.bytes[0]? = some PacketId.ack.toUnderlying →
      Ack.decode b.bytes = some ack → ¬ ack.Covers index) :
    w'.this.ackBuffer.lookup index = some stored := by
  by_cases hid : b.bytes[0]? = some PacketId.ack.toUnderlying
  · rw [processPacket_ack hstart hid] at hrun
    obtain ⟨ack, hdecode, herases⟩ := erases_processAck hstart hrun
    rw [herases.lookup_of_not_covers hindex (hnot ack hid hdecode), hstored]
  · exact (retains_processPacket hstart hid).of_run hrun index stored hstored

end Erases

/-! ## The numbers of a client -/

theorem SameTime.connectedClients {w w' : ServerWorld} (h : SameTime w w') :
    w'.routing.router.connectedClients = w.this.router.connectedClients :=
  congrArg (fun this : RakServer => this.router.connectedClients) h.this

/-- The reliable datagrams of the client are counted in 24 bits. -/
structure RakroServerClient.Numbered (client : RakroServerClient) : Prop where
  next : client.sendingRelyFrameIndex.Canonical
  kept : ∀ index ∈ client.ackBuffer, index.Canonical

/-- The numbers stay in 24 bits. -/
def StaysNumbered (w w' : World) : Prop := w.this.Numbered → w'.this.Numbered

instance : IsPreorder World StaysNumbered where
  refl _ := id
  trans _ _ _ h h' hw := h' (h hw)

/-- A datagram leaves the client numbered. -/
theorem staysNumbered_packetBound : PacketBound StaysNumbered where
  answers w w' h hw := by
    obtain ⟨new, hnew⟩ := h.sends
    obtain ⟨hnext, hindexes⟩ := hnew.indexes.canonical hw.next
    refine ⟨hnext, fun index hindex => ?_⟩
    rcases hnew.filed index hindex with hold | ⟨sent, hsent, -, rfl⟩
    · exact hw.kept index hold
    · exact hindexes sent hsent
  data _ _ := id
  counters _ _ _ hw := ⟨hw.next, hw.kept⟩
  taken _ _ hw := ⟨hw.next, hw.kept⟩
  stored _ _ _ _ _ _ _ _ hw := ⟨hw.next, hw.kept⟩
  called _ _ := id
  sliced _ _ _ _ := id
  advanced _ _ hw := ⟨hw.next, hw.kept⟩
  settled w w' h hw := by
    refine ⟨?_, fun index hindex => ?_⟩
    · rw [h.this]
      exact hw.next
    · obtain ⟨b, hb⟩ := Option.isSome_iff_exists.mp (AList.lookup_isSome.mpr hindex)
      exact hw.kept index (AList.lookup_isSome.mp (Option.isSome_of_eq_some (h.entries index b hb)))

/-- Every client's reliable datagrams are counted so. -/
def ServerWorld.Numbered (w : ServerWorld) : Prop :=
  AllEntries (fun _ (client : RakroServerClient) => client.Numbered) w.this.router.connectedClients

/-- A step leaves every client numbered. -/
theorem numbered_step (step : ServerStep) :
    Yields ServerWorld.Numbered step.run fun _ => ServerWorld.Numbered := by
  intro w u w' hw hrun
  cases stepFront hrun with
  | quiet serverId _ _ hthis _ =>
    unfold ServerWorld.Numbered
    rw [hthis]
    exact hw
  | first time _ _ _ hthis _ =>
    unfold ServerWorld.Numbered
    rw [hthis]
    exact hw
  | @second bytes address request mid w₁ rw _ _ _ _ hsame hconnect hthis _ =>
    unfold ServerWorld.Numbered
    rw [hthis]
    have hclients := hsame.connectedClients
    by_cases hmem : address ∈ w₁.routing.router.connectedClients
    · cases (run_connectClient_known hmem).symm.trans hconnect
      exact hclients ▸ hw
    · cases (run_connectClient_new hmem).symm.trans hconnect
      exact AllEntries.insert (hclients ▸ hw)
        ⟨show 0 < 2 ^ 24 by decide, fun index h => absurd h (AList.notMem_empty index)⟩
  | @routed bytes address b w₁ rw _ _ hstart _ hsame hroute hthis _ =>
    unfold ServerWorld.Numbered
    rw [hthis]
    have hclients := hsame.connectedClients
    cases routeFront address b w₁.routing with
    | unknown _ hreturns hrouter _ =>
      cases hreturns.symm.trans hroute
      rw [hrouter, hclients]
      exact hw
    | timeout _ _ hreturns herase _ =>
      cases hreturns.symm.trans hroute
      rw [herase, hclients]
      exact AllEntries.erase hw address
    | @returned client v hclient _ hpacket hreturns =>
      cases hreturns.symm.trans hroute
      have hstays := (staysNumbered_packetBound.within_processPacket hstart).of_run hpacket
      rw [hclients] at hclient
      have hclient := hw address client hclient
      exact AllEntries.insert (hclients ▸ hw) (hstays ⟨hclient.next, hclient.kept⟩)
    | threw _ _ _ hthrows => cases hthrows.symm.trans hroute

/-! ## The step that frees a datagram -/

/--
The step frees what is kept under `index` for the client at `address`: a datagram of the address
comes too late, so that the client is dropped, or it acknowledges the number.
-/
inductive ServerStep.Frees (step : ServerStep) (address : IPV4Addr) (index : UInt24)
    (w : ServerWorld) : Prop
  | late {bytes : Bytes} {id : UInt8} {client : RakroServerClient} :
      step.Brings w.host.company.bufferSize address bytes → bytes[0]? = some id →
      id ∉ trivalPackets → w.this.router.connectedClients.lookup address = some client →
      w.this.router.timeout < w.host.clock 0 - client.lastPacket → Frees step address index w
  | acknowledged {bytes : Bytes} {ack : Ack} :
      step.Brings w.host.company.bufferSize address bytes →
      bytes[0]? = some PacketId.ack.toUnderlying → Ack.decode bytes = some ack →
      ack.Covers index → Frees step address index w

/-- Nobody else frees a datagram of an address. -/
theorem not_frees_of_quiet {step : ServerStep} {address : IPV4Addr} {index : UInt24}
    {w : ServerWorld} (h : ∀ bytes, step ≠ .receive (.datagram bytes address)) :
    ¬ step.Frees address index w := by
  rintro (⟨⟨hstep, -⟩, -, -, -, -⟩ | ⟨⟨hstep, -⟩, -, -, -⟩)
  · exact h _ hstep
  · exact h _ hstep

section Frees

variable {config : ServerConfig} {step : ServerStep} {w w' : ServerWorld} {address : IPV4Addr}
  {index : UInt24} {client : RakroServerClient} {stored : BinaryBuffer} {buffer : BufferId}
  {bytes : Bytes} {id : UInt8}

/-- An empty datagram is passed over. -/
theorem this_of_empty
    (hrun : (ServerStep.receive (.datagram [] address)).run.run w = .ok ⟨⟩ w') :
    w'.this = w.this := by
  obtain ⟨r, w₁, hnext, hrest⟩ := bind_eq_ok hrun
  rcases nextDatagram_eq_ok hnext with ⟨rfl, -⟩ | ⟨b, _, _, -, heq, hb⟩
  · cases hrest
    exact ((within_nextDatagram _).of_run hnext).this
  · cases heq
    exact absurd rfl hb.nonempty

/-- What no step frees is there behind the step. -/
theorem lookup_of_not_frees (hnumbered : w.Numbered) (hrun : step.run.run w = .ok ⟨⟩ w')
    (hclient : w.this.router.connectedClients.lookup address = some client)
    (hstored : client.ackBuffer.lookup index = some stored)
    (hnot : ¬ step.Frees address index w) :
    ∃ client', w'.this.router.connectedClients.lookup address = some client' ∧
      client'.ackBuffer.lookup index = some stored := by
  cases stepFront hrun with
  | quiet serverId _ _ hthis _ =>
    rw [hthis]
    exact ⟨client, hclient, hstored⟩
  | first time _ _ _ hthis _ =>
    rw [hthis]
    exact ⟨client, hclient, hstored⟩
  | @second bytes other request mid w₁ rw _ _ _ _ hsame hconnect hthis _ =>
    rw [hthis]
    have hclient₁ : w₁.routing.router.connectedClients.lookup address = some client := by
      rw [hsame.connectedClients, hclient]
    by_cases hmem : other ∈ w₁.routing.router.connectedClients
    · cases (run_connectClient_known hmem).symm.trans hconnect
      exact ⟨client, hclient₁, hstored⟩
    · have hne : address ≠ other := by
        rintro rfl
        exact hmem (AList.lookup_isSome.mp (Option.isSome_of_eq_some hclient₁))
      exact ⟨client, (lookup_connectClient hconnect hne).trans hclient₁, hstored⟩
  | @routed bytes other b w₁ rw hbrings hid hstart hbytes hsame hroute hthis _ =>
    rw [hthis]
    have hclient₁ : w₁.routing.router.connectedClients.lookup address = some client := by
      rw [hsame.connectedClients, hclient]
    by_cases hother : address = other
    · subst hother
      cases bytes with
      | nil =>
        obtain ⟨rfl, -⟩ := hbrings
        have hempty := this_of_empty hrun
        rw [hthis] at hempty
        exact ⟨client, (congrArg (fun this : RakServer =>
          this.router.connectedClients.lookup address) hempty).trans hclient, hstored⟩
      | cons id body =>
        cases routeFront address b w₁.routing with
        | unknown hnone _ _ _ => cases hnone.symm.trans hclient₁
        | @timeout late _ hlate htimeout _ _ _ =>
          cases hlate.symm.trans hclient₁
          refine absurd (.late hbrings rfl (hid id rfl) hclient ?_) hnot
          rw [show w₁.routing.router = w.this.router from congrArg RakServer.router hsame.this,
            show w₁.routing.host.clock = w.host.clock from hsame.clock] at htimeout
          exact htimeout
        | threw _ _ _ hthrows => cases hthrows.symm.trans hroute
        | @returned known v hknown _ hpacket hreturns =>
          cases hreturns.symm.trans hroute
          cases hknown.symm.trans hclient₁
          refine ⟨v.this, AList.lookup_insert _, ?_⟩
          have hindex := (hnumbered address client hclient).kept index
            (AList.lookup_isSome.mp (Option.isSome_of_eq_some hstored))
          refine lookup_processPacket hstart hpacket hindex hstored fun ack hack hdecode hcovers => ?_
          rw [hbytes] at hack hdecode
          exact hnot (.acknowledged hbrings hack hdecode hcovers)
    · exact ⟨client, (lookup_route hroute hother).trans hclient₁, hstored⟩

/-- A datagram that is not for the handler goes to the router in a buffer of its own. -/
theorem routes_of_run (hrun : (ServerStep.receive (.datagram bytes address)).run.run w = .ok ⟨⟩ w')
    (hlen : bytes.length ≤ w.host.company.bufferSize) (hid : bytes[0]? = some id)
    (hrouted : id ∉ trivalPackets) :
    ∃ b w₁ rw, (nextDatagram (.datagram bytes address)).run w = .ok (some (b, address)) w₁ ∧
      b.index = 0 ∧ b.bytes = bytes ∧ (route address b).run w₁.routing = .ok ⟨⟩ rw ∧
      w' = { this := { w₁.this with router := rw.router }, host := rw.host } := by
  obtain ⟨r, w₁, hnext, hrest⟩ := bind_eq_ok hrun
  rcases nextDatagram_eq_ok hnext with ⟨-, hempty⟩ | ⟨b, _, _, rfl, heq, hb⟩
  · rw [hempty bytes address rfl hlen] at hid
    cases hid
  · cases heq
    obtain ⟨id', body, rfl⟩ := List.exists_cons_of_ne_nil hb.nonempty
    cases hid
    have hdispatch := (run_bind_of_ok hb.run_isTrivialPacket).symm.trans hrest
    rw [if_neg (by simpa using hrouted)] at hdispatch
    cases hroute : (route address b).run w₁.routing with
    | error e rw => cases (run_onRouter_error hroute).symm.trans hdispatch
    | ok u rw =>
      cases (run_onRouter_ok hroute).symm.trans hdispatch
      exact ⟨b, w₁, rw, hnext, hb.start, hb.bytes_eq, hroute, rfl⟩

/-- From `w` to `w'`, nothing new is kept, nothing is left under the number, and no block is lost. -/
structure Loses (address : IPV4Addr) (index : UInt24) (w w' : ServerWorld) : Prop where
  keeps : ∀ other number buffer, w'.Keeps other number buffer → w.Keeps other number buffer
  gone : ∀ buffer, ¬ w'.Keeps address index buffer
  grows : w.host.company.Grows w'.host.company

theorem grows_releaseAll (buffers : List BinaryBuffer) : ∀ company : BufferCompany,
    company.Grows (releaseAll company buffers) := by
  induction buffers with
  | nil => exact fun _ => ⟨rfl, rfl, rfl, rfl, Nat.le_refl _⟩
  | cons buffer buffers ih =>
    intro company
    have hfirst := company.grows_destroy buffer.realBuffer
    have hrest := ih (company.destroy buffer.realBuffer)
    exact ⟨hrest.1.trans hfirst.1, hrest.2.trans hfirst.2, hrest.3.trans hfirst.3,
      hrest.4.trans hfirst.4, hfirst.5.trans hrest.5⟩

/-- With its client, everything is lost that is kept for an address. -/
theorem loses_dropped (address : IPV4Addr) (index : UInt24) (w : ServerWorld)
    (client : RakroServerClient) (b : BinaryBuffer) :
    Loses address index w
      { this := { w.this with router := (w.routing.dropped address client b).router }
        host := (w.routing.dropped address client b).host } where
  keeps other number buffer := by
    rintro ⟨client', hclient', hkept⟩
    have hne : other ≠ address := by
      rintro rfl
      cases (AList.lookup_erase _ _).symm.trans hclient'
    exact ⟨client', (AList.lookup_erase_ne hne).symm.trans hclient', hkept⟩
  gone buffer := by
    rintro ⟨client', hclient', -⟩
    cases (AList.lookup_erase _ _).symm.trans hclient'
  grows := grows_releaseAll _ _

/-- With an acknowledgement, that is lost which it covers. -/
theorem loses_erased {v : World} {ack : Ack}
    (hclient : w.this.router.connectedClients.lookup address = some client)
    (herases : Erases ack (w.routing.entered client) v) (hindex : index.Canonical)
    (hcovers : ack.Covers index) :
    Loses address index w
      { this := { w.this with router := (w.routing.store address v).router }
        host := (w.routing.store address v).host } where
  keeps other number buffer := by
    rintro ⟨client', hclient', stored, hstored, hbuffer⟩
    by_cases hother : other = address
    · subst hother
      cases (AList.lookup_insert _).symm.trans hclient'
      exact ⟨client, hclient, stored, herases.lookup_subset hstored, hbuffer⟩
    · exact ⟨client', (AList.lookup_insert_ne hother).symm.trans hclient', stored, hstored, hbuffer⟩
  gone buffer := by
    rintro ⟨client', hclient', stored, hstored, -⟩
    cases (AList.lookup_insert _).symm.trans hclient'
    cases (herases.lookup_of_covers hindex hcovers).symm.trans hstored
  grows := herases.returns.grows

/-- A step that frees a datagram has rented a buffer for its own, and then it loses the datagram. -/
theorem loses_of_frees (hrun : step.run.run w = .ok ⟨⟩ w') (hfrees : step.Frees address index w)
    (hclient : w.this.router.connectedClients.lookup address = some client)
    (hindex : index.Canonical) :
    ∃ arrival b w₁, (nextDatagram arrival).run w = .ok (some (b, address)) w₁ ∧
      SameTime w w₁ ∧ Loses address index w₁ w' := by
  obtain ⟨bytes, id, hbrings, hid, hrouted⟩ : ∃ bytes id,
      step.Brings w.host.company.bufferSize address bytes ∧ bytes[0]? = some id ∧
        id ∉ trivalPackets := by
    cases hfrees with
    | late hbrings hid hrouted _ _ => exact ⟨_, _, hbrings, hid, hrouted⟩
    | acknowledged hbrings hid _ _ => exact ⟨_, _, hbrings, hid, by decide⟩
  have hbrings' := hbrings
  obtain ⟨rfl, hlen⟩ := hbrings'
  obtain ⟨b, w₁, rw', hnext, hstart, hbytes, hroute, rfl⟩ := routes_of_run hrun hlen hid hrouted
  have hsame := (within_nextDatagram _).of_run hnext
  have hclient₁ : w₁.routing.router.connectedClients.lookup address = some client := by
    rw [hsame.connectedClients, hclient]
  refine ⟨_, b, w₁, hnext, hsame, ?_⟩
  by_cases htimeout : w₁.routing.router.timeout < w₁.routing.host.clock 0 - client.lastPacket
  · cases (run_route_timeout hclient₁ htimeout b).symm.trans hroute
    exact loses_dropped address index w₁ client b
  · cases hfrees with
    | late _ _ _ hlate hold =>
      cases hclient.symm.trans hlate
      rw [show w₁.routing.router = w.this.router from congrArg RakServer.router hsame.this,
        show w₁.routing.host.clock = w.host.clock from hsame.clock] at htimeout
      exact absurd hold htimeout
    | @acknowledged bytes' ack hbrings' hid' hdecode hcovers =>
      obtain ⟨-, rfl⟩ := hbrings.eq hbrings'
      rw [← hbytes] at hid' hdecode
      have hknown := (run_route_known hclient₁ htimeout b).symm.trans hroute
      rw [processPacket_ack hstart hid'] at hknown
      cases hpacket : (processAck b).run (w₁.routing.entered client) with
      | error e v =>
        rw [hpacket] at hknown
        cases hknown
      | ok u v =>
        rw [hpacket] at hknown
        cases hknown
        obtain ⟨ack', hdecode', herases⟩ := erases_processAck hstart hpacket
        cases hdecode.symm.trans hdecode'
        exact loses_erased hclient₁ herases hindex hcovers

/-- What is kept is a buffer of the pool, also while a datagram is handled. -/
theorem ServerWorld.Pooled.mem_allBuffers {scope : List BufferId} (h : w.Pooled config scope)
    (hkeeps : w.Keeps address index buffer) : buffer ∈ w.host.company.allBuffers := by
  have hconserves := h.backs.conserves
  rw [flatMap_routerParked] at hconserves
  exact hconserves.mem_all (List.mem_append_left _ (exists_keeps_iff.mp ⟨_, _, hkeeps⟩))

/-- **A datagram that is freed gives its buffer back to the pool.** -/
theorem free_of_frees (hpositive : config.Positive) (hsettled : w.Settled config)
    (hnumbered : w.Numbered) (hrun : step.run.run w = .ok ⟨⟩ w')
    (hkeeps : w.Keeps address index buffer) (hfrees : step.Frees address index w) :
    buffer ∈ w'.host.company.freeBuffers := by
  obtain ⟨client, hclient, stored, hstored, hbuffer⟩ := hkeeps
  have hkeeps : w.Keeps address index buffer := ⟨client, hclient, stored, hstored, hbuffer⟩
  have hindex := (hnumbered address client hclient).kept index
    (AList.lookup_isSome.mp (Option.isSome_of_eq_some hstored))
  obtain ⟨arrival, b, w₁, hnext, hsame, hloses⟩ := loses_of_frees hrun hfrees hclient hindex
  have hsettled' := yields_step hpositive.bufferSize step _ _ _ hsettled hrun
  obtain ⟨own, -, hpooled₁⟩ :=
    yields_nextDatagram hpositive.bufferSize arrival _ _ _ hsettled.pooled hnext
  -- what is kept at the router is what has been kept
  have hkeeps_iff : ∀ {other number x}, w₁.Keeps other number x ↔ w.Keeps other number x := by
    intro other number x
    unfold ServerWorld.Keeps
    rw [hsame.this]
  have hall : buffer ∈ w'.host.company.allBuffers :=
    hpooled₁.backs.conserves.mem_allBuffers_of_grows hsettled'.pooled.backs.conserves hloses.grows
      (hpooled₁.mem_allBuffers (hkeeps_iff.mpr hkeeps))
  refine (hsettled'.accounted.free_iff buffer hall).mpr ?_
  rintro ⟨other, number, hother⟩
  obtain ⟨rfl, rfl⟩ := hsettled.accounted.keeps_unique _ _ _ _ _
    (hkeeps_iff.mp (hloses.keeps _ _ _ hother)) hkeeps
  exact hloses.gone buffer hother

/-- A datagram that is not freed is kept on, and the pool holds it as it has been sent. -/
theorem keeps_of_not_frees (hpositive : config.Positive) (hsettled : w.Settled config)
    (hnumbered : w.Numbered) (hrun : step.run.run w = .ok ⟨⟩ w')
    (hkeeps : w.Keeps address index buffer) (hnot : ¬ step.Frees address index w) :
    w'.Keeps address index buffer ∧
      w'.host.company.load { buffer } config.rentedBufferSize =
        w.host.company.load { buffer } config.rentedBufferSize := by
  obtain ⟨client, hclient, stored, hstored, hbuffer⟩ := hkeeps
  obtain ⟨client', hclient', hstored'⟩ :=
    lookup_of_not_frees hnumbered hrun hclient hstored hnot
  have hsettled' := yields_step hpositive.bufferSize step _ _ _ hsettled hrun
  refine ⟨⟨client', hclient', stored, hstored', hbuffer⟩, ?_⟩
  rw [hsettled'.load_eq hclient' hstored' hbuffer, hsettled.load_eq hclient hstored hbuffer]

end Frees

/-! ## Runs -/

section Runs

variable {config : ServerConfig} {start w w' w'' : ServerWorld} {steps between : List ServerStep}
  {step : ServerStep} {address : IPV4Addr} {index : UInt24} {buffer : BufferId}

/-- In every run, every client is numbered. -/
theorem numbered_of_reaches (hstart : start.Started)
    (hreach : Reaches ServerStep.run start steps w) : w.Numbered := by
  refine hreach.holds ?_ numbered_step
  unfold ServerWorld.Numbered
  rw [hstart.connected]
  exact allEntries_empty _

/--
**A reliable datagram is kept until it is freed.** As long as no step of a run frees it, its buffer
stays rented and holds what has been sent. The step that frees it, and no other, is the one behind
which the buffer is free.
-/
theorem free_iff_frees_of_reaches (hpositive : config.Positive)
    (hstart : start.StartedWith config) (hreach : Reaches ServerStep.run start steps w)
    (hkeeps : w.Keeps address index buffer) (hbetween : Reaches ServerStep.run w between w')
    (hkept : Along ServerStep.run (fun v step => ¬ step.Frees address index v) w between)
    (hrun : step.run.run w' = .ok ⟨⟩ w'') :
    w'.Keeps address index buffer ∧
      w'.host.company.load { buffer } config.rentedBufferSize =
        w.host.company.load { buffer } config.rentedBufferSize ∧
      (w''.Keeps address index buffer ↔ ¬ step.Frees address index w') ∧
      (buffer ∈ w''.host.company.freeBuffers ↔ step.Frees address index w') := by
  have hstarted := hstart.started
  have hkept' : w'.Settled config ∧ w'.Numbered ∧ w'.Keeps address index buffer ∧
      w'.host.company.load { buffer } config.rentedBufferSize =
        w.host.company.load { buffer } config.rentedBufferSize := by
    refine hbetween.holds_along (P := fun v => v.Settled config ∧ v.Numbered ∧
      v.Keeps address index buffer ∧ v.host.company.load { buffer } config.rentedBufferSize =
        w.host.company.load { buffer } config.rentedBufferSize)
      ⟨settled_of_reaches hpositive hstart hreach, numbered_of_reaches hstarted hreach, hkeeps, rfl⟩
      hkept fun step v v' hv hnot hrun => ?_
    obtain ⟨hsettled, hnumbered, hkeeps, hload⟩ := hv
    obtain ⟨hkeeps', hload'⟩ := keeps_of_not_frees hpositive hsettled hnumbered hrun hkeeps hnot
    exact ⟨yields_step hpositive.bufferSize step _ _ _ hsettled hrun,
      numbered_step step _ _ _ hnumbered hrun, hkeeps', hload'.trans hload⟩
  obtain ⟨hsettled, hnumbered, hkeeps', hload⟩ := hkept'
  have hsettled'' := yields_step hpositive.bufferSize step _ _ _ hsettled hrun
  refine ⟨hkeeps', hload, ?_⟩
  have hstays := keeps_of_not_frees hpositive hsettled hnumbered hrun hkeeps'
  have hfree := free_of_frees hpositive hsettled hnumbered hrun hkeeps'
  -- what is kept is not free
  have hnever : w''.Keeps address index buffer → buffer ∉ w''.host.company.freeBuffers := by
    intro h hmem
    have haccounted := hsettled''.accounted
    exact (haccounted.free_iff buffer (haccounted.keeps_mem _ _ _ h)).mp hmem ⟨_, _, h⟩
  constructor
  · exact ⟨fun h hfrees => hnever h (hfree hfrees), fun hnot => (hstays hnot).1⟩
  · constructor
    · intro hmem
      by_contra hnot
      exact hnever (hstays hnot).1 hmem
    · exact hfree

end Runs

/-- The client acknowledges its first datagram, in a range of one number. -/
def acknowledgesFirst : ServerStep :=
  .receive (.datagram (PacketId.ack.toUnderlying :: 1 :: List.replicate 7 0) {})

/--
Behind a request of one address and the handshake of another one, the acknowledgement of the answer.
-/
theorem free_iff_frees_of_reaches_other : ∃ w w' w'',
    Reaches ServerStep.run threeServer (handshake 6 ++ [asks 0]) w ∧
      Reaches ServerStep.run w othersHandshake w' ∧
      acknowledgesFirst.run.run w' = .ok ⟨⟩ w'' ∧
      w'.Keeps {} {} ⟨0, 0⟩ ∧
      w'.host.company.load { buffer := ⟨0, 0⟩ } threeBuffers.rentedBufferSize =
        w.host.company.load { buffer := ⟨0, 0⟩ } threeBuffers.rentedBufferSize ∧
      (w''.Keeps {} {} ⟨0, 0⟩ ↔ ¬ acknowledgesFirst.Frees {} {} w') ∧
      (⟨0, 0⟩ ∈ w''.host.company.freeBuffers ↔ acknowledgesFirst.Frees {} {} w') := by
  have hreach : Reaches ServerStep.run threeServer (handshake 6 ++ [asks 0]) _ :=
    reaches_of_succeeds (by decide +kernel)
  have hbetween : Reaches ServerStep.run (afterAll ServerStep.run threeServer
      (handshake 6 ++ [asks 0])) othersHandshake _ := reaches_of_succeeds (by decide +kernel)
  obtain ⟨⟨⟩, hrun⟩ : ∃ u, acknowledgesFirst.run.run (afterAll ServerStep.run (afterAll
      ServerStep.run threeServer (handshake 6 ++ [asks 0])) othersHandshake) = .ok u _ :=
    Succeeds.run (by decide +kernel)
  have hkeeps : (afterAll ServerStep.run threeServer (handshake 6 ++ [asks 0])).Keeps {} {}
      ⟨0, 0⟩ := by
    unfold ServerWorld.Keeps
    decide +kernel
  have hkept : Along ServerStep.run (fun v step => ¬ step.Frees {} {} v)
      (afterAll ServerStep.run threeServer (handshake 6 ++ [asks 0])) othersHandshake :=
    ⟨not_frees_of_quiet nofun, not_frees_of_quiet nofun, trivial⟩
  exact ⟨_, _, _, hreach, hbetween, hrun, free_iff_frees_of_reaches
    ⟨by decide, by decide, by decide⟩ threeServer_started hreach hkeeps hbetween hkept hrun⟩

end Rakro
