import Rakro.Properties.Outgoing
import Rakro.Properties.Retained
import Rakro.Properties.Window

/-!
# The receive window of a connected client

The server has many clients, and a client comes and goes. `Handed` is one client on its own, from its
connection on. Every client of a server that has been started is one that has been handed the
datagrams of its address since then, so what a run of its own datagrams makes of a client is what the
server has there. This is used for the receive window, which is the one on the numbers of these
datagrams and begins again with the counter.
-/

namespace Rakro

open Infra BinaryBuffer

/-! ## A client on its own -/

/-- A client that has been connected and then handed the datagrams, each at some time. -/
inductive Handed : List Bytes → RakroServerClient → Prop
  | connected {client : RakroServerClient} : client.IsFresh → Handed [] client
  | packet {datagrams : List Bytes} {client : RakroServerClient} {b : BinaryBuffer}
      {lastPacket : UInt64} {host : Host} {w : World} : Handed datagrams client → b.index = 0 →
      (processPacket b).run { this := { client with lastPacket }, host } = .ok ⟨⟩ w →
      Handed (datagrams ++ [b.bytes]) w.this

/-! ## The datagrams of a client -/

namespace ServerStep

/-- The step brings a datagram that goes to the router. -/
def Routes (step : ServerStep) (size : Nat) (address : IPV4Addr) (bytes : Bytes) : Prop :=
  step.Brings size address bytes ∧ ∃ id ∈ bytes[0]?, id ∉ trivalPackets

/-- The datagrams that a step brings for the client at the address. -/
def routed (size : Nat) (address : IPV4Addr) : ServerStep → List Bytes
  | .receive (.datagram bytes sender) =>
    if sender = address ∧ bytes.length ≤ size ∧ ∃ id ∈ bytes[0]?, id ∉ trivalPackets then [bytes]
    else []
  | .receive (.failed _) => []
  | .updateServerId _ => []

variable {step : ServerStep} {size : Nat} {address sender : IPV4Addr} {bytes : Bytes}

theorem routed_of_routes (h : step.Routes size address bytes) :
    step.routed size address = [bytes] := by
  obtain ⟨⟨rfl, hlen⟩, hid⟩ := h
  exact if_pos ⟨rfl, hlen, hid⟩

theorem routed_of_other (h : step.Routes size sender bytes) (hne : address ≠ sender) :
    step.routed size address = [] := by
  obtain ⟨⟨rfl, -⟩, -⟩ := h
  exact if_neg fun hrouted => hne hrouted.1.symm

/-- A step that routes nothing routes nothing for the address. -/
theorem routed_of_not (h : ∀ bytes, ¬ step.Routes size address bytes) :
    step.routed size address = [] := by
  cases step with
  | updateServerId serverId => rfl
  | receive arrival =>
    cases arrival with
    | failed errorCode => rfl
    | datagram bytes sender =>
      refine if_neg ?_
      rintro ⟨rfl, hlen, hid⟩
      exact h bytes ⟨⟨rfl, hlen⟩, hid⟩

end ServerStep

/-- The datagrams that the steps bring for the client at the address. -/
def routedTo (size : Nat) (address : IPV4Addr) (steps : List ServerStep) : List Bytes :=
  steps.flatMap (ServerStep.routed size address)

/-- The last step routes behind the ones before it. -/
theorem routedTo_concat (size : Nat) (address : IPV4Addr) (steps : List ServerStep)
    (step : ServerStep) : routedTo size address (steps ++ [step]) =
      routedTo size address steps ++ step.routed size address := by
  unfold routedTo
  rw [List.flatMap_append, List.flatMap_singleton]

/-! ## Steps -/

/-- What has become of the client at the address in a step behind which there is one. -/
inductive ClientFront (step : ServerStep) (w : ServerWorld) (address : IPV4Addr) :
    RakroServerClient → Prop
  | same {client : RakroServerClient} :
      w.this.router.connectedClients.lookup address = some client →
      step.routed w.host.company.bufferSize address = [] → ClientFront step w address client
  | connected {client : RakroServerClient} : address ∉ w.this.router.connectedClients →
      step.RequestsSecond w.host.company.bufferSize address → client.IsFresh →
      ClientFront step w address client
  | handed {client : RakroServerClient} {b : BinaryBuffer} {lastPacket : UInt64} {host : Host}
      {v : World} : w.this.router.connectedClients.lookup address = some client →
      step.routed w.host.company.bufferSize address = [b.bytes] → b.index = 0 →
      (processPacket b).run { this := { client with lastPacket }, host } = .ok ⟨⟩ v →
      ClientFront step w address v.this

section ClientFront

variable {step : ServerStep} {w w' : ServerWorld} {address sender : IPV4Addr} {bytes : Bytes}
  {client : RakroServerClient}

/-- A datagram for the router changes the client of its address at most. -/
theorem clientFront_of_routes
    (hroutes : step.Routes w.host.company.bufferSize sender bytes)
    (hrun : step.run.run w = .ok ⟨⟩ w')
    (hclient : w'.this.router.connectedClients.lookup address = some client) :
    ClientFront step w address client := by
  obtain ⟨⟨rfl, hlen⟩, id, hid, hrouted⟩ := hroutes
  have hroutes : (ServerStep.receive (.datagram bytes sender)).Routes w.host.company.bufferSize
      sender bytes := ⟨⟨rfl, hlen⟩, id, hid, hrouted⟩
  obtain ⟨b, w₁, rw', hnext, hstart, rfl, hroute, rfl⟩ := routes_of_run hrun hlen hid hrouted
  have hclients := ((within_nextDatagram _).of_run hnext).connectedClients
  by_cases haddress : address = sender
  · subst haddress
    cases routeFront address b w₁.routing with
    | unknown hnone hreturns hrouter _ =>
      cases hreturns.symm.trans hroute
      rw [← hrouter] at hnone
      cases hnone.symm.trans hclient
    | timeout _ _ hreturns herase _ =>
      cases hreturns.symm.trans hroute
      rw [herase, AList.lookup_erase] at hclient
      cases hclient
    | returned hknown _ hpacket hreturns =>
      cases hreturns.symm.trans hroute
      cases (AList.lookup_insert _).symm.trans hclient
      rw [hclients] at hknown
      exact .handed hknown (ServerStep.routed_of_routes hroutes) hstart hpacket
    | threw _ _ _ hthrows => cases hthrows.symm.trans hroute
  · have hlookup := (lookup_route hroute haddress).symm.trans hclient
    rw [hclients] at hlookup
    exact .same hlookup (ServerStep.routed_of_other hroutes haddress)

/-- How a client can come to be there behind a step. -/
theorem clientFront_of_run (hrun : step.run.run w = .ok ⟨⟩ w')
    (hclient : w'.this.router.connectedClients.lookup address = some client) :
    ClientFront step w address client := by
  by_cases hroutes : ∃ sender bytes, step.Routes w.host.company.bufferSize sender bytes
  · obtain ⟨sender, bytes, hroutes⟩ := hroutes
    exact clientFront_of_routes hroutes hrun hclient
  · have hnone : step.routed w.host.company.bufferSize address = [] :=
      ServerStep.routed_of_not fun bytes h => hroutes ⟨address, bytes, h⟩
    cases stepFront hrun with
    | quiet serverId _ _ hthis _ =>
      rw [hthis] at hclient
      exact .same hclient hnone
    | first time _ _ _ hthis _ =>
      rw [hthis] at hclient
      exact .same hclient hnone
    | @second bytes other request mid w₁ rw' hbrings hid _ _ hsame hconnect hthis _ =>
      rw [hthis] at hclient
      have hclients := hsame.connectedClients
      by_cases hother : address = other
      · subst hother
        by_cases hmem : address ∈ w₁.routing.router.connectedClients
        · cases (run_connectClient_known hmem).symm.trans hconnect
          exact .same (hclients ▸ hclient) hnone
        · cases (run_connectClient_new hmem).symm.trans hconnect
          cases (AList.lookup_insert _).symm.trans hclient
          exact .connected (hclients ▸ hmem) ⟨bytes, hbrings, hid⟩ rfl
      · have hlookup := (lookup_connectClient hconnect hother).symm.trans hclient
        exact .same (hclients ▸ hlookup) hnone
    | @routed bytes sender b w₁ rw' hbrings hid _ _ _ _ _ _ =>
      cases bytes with
      | nil =>
        obtain ⟨rfl, -⟩ := hbrings
        rw [this_of_empty hrun] at hclient
        exact .same hclient hnone
      | cons id body => exact absurd ⟨sender, _, hbrings, id, rfl, hid id rfl⟩ hroutes

end ClientFront

/-! ## Since when a client is connected -/

/--
The address has been connected by a second request in front of the steps `behind`, which lead to `w`,
and it has been connected all along since then.
-/
def ConnectedSince (start : ServerWorld) (steps : List ServerStep) (address : IPV4Addr)
    (behind : List ServerStep) (w : ServerWorld) : Prop :=
  ∃ before second w₀ w₁, steps = before ++ second :: behind ∧
    Reaches ServerStep.run start before w₀ ∧ address ∉ w₀.this.router.connectedClients ∧
    second.RequestsSecond start.host.company.bufferSize address ∧
    second.run.run w₀ = .ok ⟨⟩ w₁ ∧ Reaches ServerStep.run w₁ behind w ∧
    Along ServerStep.run (fun v _ => address ∈ v.this.router.connectedClients) w₁ behind

section Runs

variable {start w w' : ServerWorld} {steps behind : List ServerStep} {step : ServerStep}
  {address : IPV4Addr} {client : RakroServerClient}

theorem ConnectedSince.concat (h : ConnectedSince start steps address behind w)
    (hrun : step.run.run w = .ok ⟨⟩ w') (hmem : address ∈ w.this.router.connectedClients) :
    ConnectedSince start (steps ++ [step]) address (behind ++ [step]) w' := by
  obtain ⟨before, second, w₀, w₁, rfl, hbefore, hnew, hsecond, hconnects, hbehind, halong⟩ := h
  refine ⟨before, second, w₀, w₁, by simp, hbefore, hnew, hsecond, hconnects, hbehind.snoc hrun, ?_⟩
  rw [hbehind.eq_afterAll] at hmem
  exact along_concat.mpr ⟨halong, hmem⟩

/-- **A client of the server has been handed the datagrams of its address since it connected.** -/
theorem exists_handed (hstart : start.Started) (hreach : Reaches ServerStep.run start steps w)
    (hclient : w.this.router.connectedClients.lookup address = some client) :
    ∃ behind, ConnectedSince start steps address behind w ∧
      Handed (routedTo start.host.company.bufferSize address behind) client := by
  induction hreach generalizing client with
  | nil =>
    rw [hstart.connected] at hclient
    cases hclient
  | @snoc steps step w w' hreach hrun ih =>
    have hsize := (progress_of_reaches hstart hreach).bufferSize
    cases clientFront_of_run hrun hclient with
    | same hbefore hnone =>
      obtain ⟨behind, hsince, hhanded⟩ := ih hbefore
      have hmem := AList.lookup_isSome.mp (Option.isSome_of_eq_some hbefore)
      refine ⟨behind ++ [step], hsince.concat hrun hmem, ?_⟩
      rw [hsize] at hnone
      rw [routedTo_concat, hnone, List.append_nil]
      exact hhanded
    | connected hnew hsecond hfresh =>
      rw [hsize] at hsecond
      exact ⟨[], ⟨steps, step, w, w', rfl, hreach, hnew, hsecond, hrun, .nil, trivial⟩,
        .connected hfresh⟩
    | handed hbefore hrouted hstart' hpacket =>
      obtain ⟨behind, hsince, hhanded⟩ := ih hbefore
      have hmem := AList.lookup_isSome.mp (Option.isSome_of_eq_some hbefore)
      refine ⟨behind ++ [step], hsince.concat hrun hmem, ?_⟩
      rw [hsize] at hrouted
      rw [routedTo_concat, hrouted]
      exact hhanded.packet hstart' hpacket

end Runs

/-! ## The window -/

/-- The window of the client, as numbers. -/
def RakroServerClient.window (client : RakroServerClient) : SequenceWindow where
  next := client.nextExpectedSeq.toNat
  missing := client.missingPackets.image UInt24.toNat

/-- The sequence numbers of the frame sets among the datagrams. -/
def sequenceNumbers (datagrams : List Bytes) : List ℕ :=
  datagrams.filterMap fun bytes =>
    ({ bytes } : BinaryBuffer).frameSetNumber?.map UInt24.toNat

section Window

variable {w : World} {b : BinaryBuffer}

/-- What is no frame set leaves the window alone. -/
theorem sameWindow_processPacket (hstart : b.index = 0) (hnone : b.frameSetNumber? = none) :
    SameWindow w (after (processPacket b) w) := by
  have hsettles := processPacket_settles hstart (fun id seq rest h => by
    cases hnone.symm.trans ((frameSetNumber?_eq_some hstart).mpr ⟨id, seq, rest, h, rfl⟩)) w
  exact ⟨hsettles.nextExpectedSeq, hsettles.keepsWindow.missingPackets⟩

/-- A frame set does to the window what its number does. -/
theorem window_processPacket {number : UInt24} (hstart : b.index = 0)
    (hnumber : b.frameSetNumber? = some number) (hw : w.this.nextExpectedSeq.Canonical) :
    (after (processPacket b) w).this.nextExpectedSeq.Canonical ∧
      (after (processPacket b) w).this.window = w.this.window.receiveMod (2 ^ 24) number.toNat := by
  obtain ⟨id, seq, rest, hset, rfl⟩ := (frameSetNumber?_eq_some hstart).mp hnumber
  have hlt := UInt24.lt_iff_of_canonical hset.number_canonical hw
  rw [hset.after_processPacket]
  by_cases hstale : IsFrameSet.number seq < w.this.nextExpectedSeq
  · rw [after_processFrames_stale hstale]
    exact ⟨hw, (if_pos (hlt.mp hstale)).symm⟩
  · rw [after_processFrames hstale]
    have hloop := sameWindow_loopBound.frameLoop ((b.between (id :: seq) rest).size + 1) b
      (id :: seq) rest (w.advanced (IsFrameSet.number seq))
    have hreleased := IsTrans.trans _ _ _ hloop
      (sameWindow_loopBound.answers _ _ (within_release b _))
    refine ⟨?_, ?_⟩
    · rw [hreleased.nextExpectedSeq]
      exact w.this.nextExpectedSeq.incr_canonical
    · unfold RakroServerClient.window SequenceWindow.receiveMod
      rw [hreleased.nextExpectedSeq, hreleased.missingPackets,
        if_neg fun h => hstale (hlt.mpr h)]
      show SequenceWindow.mk w.this.nextExpectedSeq.incr.toNat
        ((missingAfter _ w.this.nextExpectedSeq w.this.missingPackets).image UInt24.toNat) = _
      rw [UInt24.toNat_incr, missingAfter_image hset.number_canonical hw]

/-- **The window of a client is the one on the numbers of what it has been handed.** -/
theorem Handed.window {datagrams : List Bytes} {client : RakroServerClient}
    (h : Handed datagrams client) : client.nextExpectedSeq.Canonical ∧
      client.window = .runMod (2 ^ 24) (sequenceNumbers datagrams) := by
  induction h with
  | connected hfresh =>
    rw [hfresh]
    exact ⟨UInt24.ofNat_canonical (n := 0) (by decide), rfl⟩
  | @packet datagrams client b lastPacket host w _ hstart hrun ih =>
    obtain ⟨hcanonical, hwindow⟩ := ih
    have hafter : after (processPacket b) { this := { client with lastPacket }, host } = w :=
      after_of_ok hrun
    have hbytes : ({ bytes := b.bytes } : BinaryBuffer).frameSetNumber? = b.frameSetNumber? := rfl
    unfold sequenceNumbers at hwindow ⊢
    rw [List.filterMap_append]
    cases hnumber : b.frameSetNumber? with
    | none =>
      have hsame := sameWindow_processPacket (w := { this := { client with lastPacket }, host })
        hstart hnumber
      rw [hafter] at hsame
      rw [List.filterMap_cons_none (by rw [hbytes, hnumber]; rfl), List.filterMap_nil,
        List.append_nil, ← hwindow]
      refine ⟨?_, ?_⟩
      · rw [hsame.nextExpectedSeq]
        exact hcanonical
      · unfold RakroServerClient.window
        rw [hsame.nextExpectedSeq, hsame.missingPackets]
    | some number =>
      obtain ⟨hnext, hreceived⟩ := window_processPacket
        (w := { this := { client with lastPacket }, host }) hstart hnumber hcanonical
      rw [hafter] at hnext hreceived
      rw [List.filterMap_cons_some (by rw [hbytes, hnumber]; rfl), List.filterMap_nil,
        SequenceWindow.runMod_concat, ← hwindow]
      exact ⟨hnext, hreceived⟩

end Window

/--
**The window of every client of a server is the window on the sequence numbers of the frame sets that
its address has sent since it connected.** Only the numbers can make the counter begin again.
-/
theorem window_of_reaches {start w : ServerWorld} {steps : List ServerStep} {address : IPV4Addr}
    {client : RakroServerClient} (hstart : start.Started)
    (hreach : Reaches ServerStep.run start steps w)
    (hclient : w.this.router.connectedClients.lookup address = some client) :
    ∃ behind numbers, ConnectedSince start steps address behind w ∧
      numbers = sequenceNumbers (routedTo start.host.company.bufferSize address behind) ∧
      client.window = .runMod (2 ^ 24) numbers ∧
      ((∀ number ∈ numbers, number < 2 ^ 24 - 1) → client.window = .run numbers) := by
  obtain ⟨behind, hsince, hhanded⟩ := exists_handed hstart hreach hclient
  obtain ⟨-, hwindow⟩ := hhanded.window
  refine ⟨behind, _, hsince, rfl, hwindow, fun hnumbers => ?_⟩
  rw [hwindow, SequenceWindow.runMod_eq_run fun number hnumber => ?_]
  have := hnumbers number hnumber
  omega

/-- A handshake, and behind it a datagram whose number leaves a gap. -/
def leavesGap : List ServerStep := handshake 6 ++ [asks 2]

/-- A client whose datagrams have left a gap. -/
theorem window_of_reaches_gap : ∃ client,
    (afterAll ServerStep.run threeServer leavesGap).this.router.connectedClients.lookup {} =
        some client ∧ client.missingPackets ≠ ∅ ∧
    ∃ behind numbers, ConnectedSince threeServer leavesGap {} behind
        (afterAll ServerStep.run threeServer leavesGap) ∧
      numbers = sequenceNumbers (routedTo threeServer.host.company.bufferSize {} behind) ∧
      client.window = .runMod (2 ^ 24) numbers ∧
      ((∀ number ∈ numbers, number < 2 ^ 24 - 1) → client.window = .run numbers) := by
  have hreach : Reaches ServerStep.run threeServer leavesGap
      (afterAll ServerStep.run threeServer leavesGap) := reaches_of_succeeds (by decide +kernel)
  obtain ⟨client, hclient, hgap⟩ : ∃ client ∈ (afterAll ServerStep.run threeServer
      leavesGap).this.router.connectedClients.lookup {}, client.missingPackets ≠ ∅ := by
    decide +kernel
  exact ⟨client, hclient, hgap, window_of_reaches threeServer_isStarted hreach hclient⟩

end Rakro
