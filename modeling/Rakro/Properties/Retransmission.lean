import Rakro.Properties.Handshake
import Rakro.Properties.RouteReturns

/-!
# Messages of a handshake that is over

Whatever an address, or any other one, sends of the messages of a handshake once it is connected, its
client stays as it is: `connect_client` looks for the address first, and nothing else of
`handle_packet` reaches the clients.
-/

namespace Rakro

open Infra

/-- Every client that there was is there still, and has not changed. -/
def KeepsClients (w w' : ServerWorld) : Prop :=
  ∀ address client, w.this.router.connectedClients.lookup address = some client →
    w'.this.router.connectedClients.lookup address = some client

instance : IsPreorder ServerWorld KeepsClients where
  refl _ _ _ h := h
  trans _ _ _ h h' address client hclient := h' address client (h address client hclient)

theorem SameServer.keepsClients {w w' : ServerWorld} (h : SameServer w w') : KeepsClients w w' := by
  intro address client hclient
  rw [h.this]
  exact hclient

/-- A client is made only for an address that has none. -/
theorem keeps_connectClient (address : IPV4Addr) (mid : SemiConnectedClient) (guid : UInt64)
    (debugger : Option DebugInstrument) (serverStartTime : UInt64) :
    Within KeepsClients (onRouter (connectClient address mid guid debugger serverStartTime)) := by
  intro w address' client hclient
  by_cases hmem : address ∈ w.this.router.connectedClients
  · rw [after_of_ok (run_onRouter_ok (run_connectClient_known hmem))]
    exact hclient
  · have hne : address' ≠ address := by
      rintro rfl
      exact hmem (AList.lookup_isSome.mp (by rw [hclient]; rfl))
    rw [after_of_ok (run_onRouter_ok (run_connectClient_new hmem))]
    exact (AList.lookup_insert_ne hne).trans hclient

theorem keeps_openConnectionRequest1 (b : BinaryBuffer) (address : IPV4Addr) :
    Within KeepsClients (openConnectionRequest1 b address) := by
  refine Within.bind ((within_readFrom _ _).mono fun _ _ => SameServer.keepsClients) fun _ => ?_
  refine Within.bind Within.get fun _ => ?_
  refine Within.bind ((within_writeInto _ _).mono fun _ _ => SameServer.keepsClients) fun _ => ?_
  refine Within.bind ((within_serverSendTo _ _ _).mono fun _ _ => SameServer.keepsClients)
    fun _ => ?_
  refine Within.bind (within_onRouter_time.mono fun _ _ => SameServer.keepsClients) fun _ => ?_
  exact Within.bind (fun _ _ _ h => h) fun _ => Within.pure _

theorem keeps_openConnectionRequest2 (b : BinaryBuffer) (address : IPV4Addr) :
    Within KeepsClients (openConnectionRequest2 b address) := by
  refine Within.bind ((within_readFrom _ _).mono fun _ _ => SameServer.keepsClients) fun _ => ?_
  refine Within.bind Within.get fun w => ?_
  dsimp only
  split
  · exact Within.pure _
  · refine Within.bind (keeps_connectClient _ _ _ _ _) fun _ => ?_
    refine Within.bind ((within_writeInto _ _).mono fun _ _ => SameServer.keepsClients) fun _ => ?_
    exact Within.bind ((within_serverSendTo _ _ _).mono fun _ _ => SameServer.keepsClients)
      fun _ => Within.pure _

theorem keeps_handlePacket (b : BinaryBuffer) (address : IPV4Addr) :
    Within KeepsClients (handlePacket b address) := by
  refine Within.bind ((within_readFrom _ _).mono fun _ _ => SameServer.keepsClients)
    fun ⟨id, buffer⟩ => ?_
  dsimp only
  split
  · exact Within.bind ((within_unconnectedPing _ _).mono fun _ _ => SameServer.keepsClients)
      fun _ => Within.pure _
  · exact Within.bind (keeps_openConnectionRequest1 _ _) fun _ => Within.pure _
  · exact Within.bind (keeps_openConnectionRequest2 _ _) fun _ => Within.pure _
  · exact Within.pure _

/-- A call of `handle_packet`, whose results do not matter here. -/
def handleDatagram (datagram : BinaryBuffer × IPV4Addr) : ServerM PUnit := do
  let _ ← handlePacket datagram.1 datagram.2

/--
**Whatever `handle_packet` is given and from whom, a connected client stays connected, and as it was.**

This holds in every state of the server, and also where a call throws and the next one comes anyway.
-/
theorem lookup_handleDatagrams {w : ServerWorld} {address : IPV4Addr} {client : RakroServerClient}
    (h : w.this.router.connectedClients.lookup address = some client)
    (datagrams : List (BinaryBuffer × IPV4Addr)) :
    (afterAll handleDatagram w datagrams).this.router.connectedClients.lookup address
      = some client := by
  have hkeeps : KeepsClients w (afterAll handleDatagram w datagrams) := by
    refine afterAll_induction (P := fun _ w' => KeepsClients w w') (refl w)
      (fun l datagram _ ih => ?_) datagrams (List.prefix_refl datagrams)
    have hstep : Within KeepsClients (handleDatagram datagram) :=
      Within.bind (keeps_handlePacket _ _) fun _ => Within.pure _
    exact IsTrans.trans _ _ _ ih (hstep _)
  exact hkeeps address client h

/-- A server with one client. -/
def connectedServer : ServerWorld where
  this := { router := oneClient.router }
  host := oneClient.host

/-- Both requests once more, from the address of the client. -/
def handshakeAgain : List (BinaryBuffer × IPV4Addr) :=
  [({ bytes := firstRequest 6 }, {}), ({ bytes := secondRequest, beyond := [0] }, {})]

theorem lookup_handleDatagrams_again :
    Succeeds (handshakeAgain.forM handleDatagram) connectedServer ∧
    (afterAll handleDatagram connectedServer handshakeAgain).this.router.connectedClients.lookup {}
      = some { lastPacket := 0 } :=
  ⟨by decide +kernel, lookup_handleDatagrams rfl handshakeAgain⟩

end Rakro
