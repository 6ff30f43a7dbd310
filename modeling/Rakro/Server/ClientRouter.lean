import Rakro.Server.ServerClient

/-!
# `ClientRouter`

The connected clients by address. `route` is `noexcept`: an exception that reaches its end is the
end of the process.
-/

namespace Rakro

open Infra

/-- What the server keeps of an address between its two requests. -/
structure SemiConnectedClient where
  connectionTime : UInt64 := 0
  mtu : UInt16 := 0
  deriving DecidableEq, Repr

/-- The clients by their addresses, and how long one may be silent. -/
structure ClientRouter where
  connectedClients : AList fun _ : IPV4Addr => RakroServerClient := ∅
  timeout : UInt64 := 5000

/-- The router and its surroundings. -/
structure RouterWorld where
  router : ClientRouter := {}
  host : Host

/-- A program on the router and its host. -/
abbrev RouterM := EStateM Exn RouterWorld

/-- The clients after `method` has left the world `w` for the client at `address`. -/
def RouterWorld.store (rw : RouterWorld) (address : IPV4Addr) (w : World) : RouterWorld where
  router :=
    { rw.router with connectedClients := rw.router.connectedClients.insert address w.this }
  host := w.host

/-- A method of the client at an address. Its changes stay when it throws. -/
def onClient (address : IPV4Addr) (client : RakroServerClient) (method : ClientM PUnit) :
    RouterM PUnit := fun rw =>
  match method.run { this := client, host := rw.host } with
  | .ok u w => .ok u (rw.store address w)
  | .error e w => .error e (rw.store address w)

/-- `detail::time_since_epoch()`. -/
def routerTime : RouterM UInt64 :=
  modifyGet fun rw =>
    (rw.host.clock 0, { rw with host := { rw.host with clock := fun n => rw.host.clock (n + 1) } })

/--
The buffers that go back to the pool when a client is destroyed: its members in the reverse order of
their declaration. The order within a map is up to the library.
-/
def RakroServerClient.heldBuffers (client : RakroServerClient) : List BinaryBuffer :=
  client.outOfOrderPacketBuffer.entries.map (fun entry => entry.2.rawData)
    ++ client.ackBuffer.entries.map fun entry => entry.2

/-- The pool after the buffers have been destroyed one after the other. -/
def releaseAll (company : BufferCompany) (buffers : List BinaryBuffer) : BufferCompany :=
  buffers.foldl (fun company buffer => company.destroy buffer.realBuffer) company

/-- Destroys a buffer or a client's buffers. -/
def routerRelease (buffers : List BinaryBuffer) : RouterM PUnit :=
  modify fun rw => { rw with host := { rw.host with company := releaseAll rw.host.company buffers } }

/-- `route`. A buffer that is not moved into the client is destroyed by the caller right after. -/
def route (address : IPV4Addr) (buffer : BinaryBuffer) : RouterM PUnit := do
  match (← get).router.connectedClients.lookup address with
  | none => routerRelease [buffer]
  | some client => do
    let currentTime ← routerTime
    if (← get).router.timeout < currentTime - client.lastPacket then do
      modify fun rw =>
        { rw with
          router :=
            { rw.router with connectedClients := rw.router.connectedClients.erase address } }
      routerRelease (client.heldBuffers ++ [buffer])
    else onClient address { client with lastPacket := currentTime } (processPacket buffer)

/-- `connect_client`. The time of the last packet is that of the construction. -/
def connectClient (address : IPV4Addr) (client : SemiConnectedClient) (guid : UInt64)
    (debugger : Option DebugInstrument) (serverStartTime : UInt64) : RouterM PUnit := do
  if address ∈ (← get).router.connectedClients then pure ⟨⟩
  else do
    let lastPacket ← routerTime
    modify fun rw =>
      { rw with
        router :=
          { rw.router with
            connectedClients := rw.router.connectedClients.insert address
              { guid, debugger, mtu := client.mtu, address, lastPacket, serverStartTime } } }

end Rakro
