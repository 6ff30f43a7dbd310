import Rakro.Packet.Connected
import Rakro.Roundtrip.Integer

/-!
# The messages on the wire

What the implemented directions of the message codecs read and write, and how long it is.
-/

namespace Rakro

open Infra

/-! ## Reading -/

/-- A request is read from its seventeen bytes. -/
theorem consumes_connectionRequest {guid time : Bytes} (hguid : guid.length = 8)
    (htime : time.length = 8) (secure : UInt8) :
    Consumes (readNext ConnectionRequest) (guid ++ (time ++ [secure]))
      { clientGuid := .ofBitVec (byteswap (n := 8) (orAll guid 0 0))
        requestTimestamp := .ofBitVec (byteswap (n := 8) (orAll time 0 0))
        secure := secure ≠ 0 } := by
  refine Consumes.readNext (show 1 ≤ 10 by decide) ?_ ?_
  · show 10 ≤ _
    simp only [List.length_append, List.length_singleton]
    omega
  · exact (consumes_uint64 hguid).bind ((consumes_uint64 htime).bind
      ((consumes_bool secure).map _))

theorem scans_connectionRequest : Scans 17 (readNext ConnectionRequest) :=
  Scans.checked (show 1 ≤ 10 by decide) (show 10 ≤ 17 by decide)
    (scans_uint64.bind fun _ => scans_uint64.bind fun _ => scans_bool.bind fun _ => Scans.pure _)

theorem consumes_connectedPing {time : Bytes} (h : time.length = 8) :
    Consumes (readNext ConnectedPing) time
      { timeSinceStart := .ofBitVec (byteswap (n := 8) (orAll time 0 0)) } :=
  Consumes.readNext (show 1 ≤ 8 by decide) (show 8 ≤ _ from Nat.le_of_eq h.symm)
    ((consumes_uint64 h).map fun timeSinceStart => ({ timeSinceStart } : ConnectedPing))

/-! ## Writing -/

/-- The tag, the address and the port. -/
def RakAddress.bytes (self : RakAddress) : Bytes :=
  4 :: (beBytes 4 self.ip.toNat ++ beBytes 2 self.port.toNat)

@[simp] theorem RakAddress.length_bytes (self : RakAddress) : self.bytes.length = 7 := by
  simp [bytes]

theorem emits_rakAddress (self : RakAddress) : Emits (write self) self.bytes :=
  Emits.write (show 1 ≤ 7 by decide) (Nat.le_of_eq self.length_bytes.symm)
    ((emits_uint8 4).bind ((emits_uint32 _).bind (emits_uint16 _)))

/-- The id, the client's address, twenty addresses of the system, and the two times. -/
def ConnectionRequestAccepted.bytes (self : ConnectionRequestAccepted) : Bytes :=
  PacketId.connectionRequestAccepted.toUnderlying :: (self.clientAddress.bytes
    ++ (beBytes 2 0 ++ ((List.replicate 20 ({ ip := 0xFFFFFFFF, port := 19132 } : RakAddress)).flatMap
      RakAddress.bytes ++ (beBytes 8 self.clientReqTime.toNat
        ++ beBytes 8 self.serverUpTime.toNat))))

/-- The answer to a request has 166 bytes. -/
@[simp] theorem ConnectionRequestAccepted.length_bytes (self : ConnectionRequestAccepted) :
    self.bytes.length = 166 := by
  simp [bytes]

theorem emits_connectionRequestAccepted (self : ConnectionRequestAccepted) :
    Emits (write self) self.bytes :=
  Emits.write (show 1 ≤ 166 by decide) (Nat.le_of_eq self.length_bytes.symm)
    ((emits_uint8 _).bind ((emits_rakAddress _).bind ((emits_uint16 _).bind
      ((Emits.forM emits_rakAddress _).bind ((emits_uint64 _).bind (emits_uint64 _))))))

/-- The two times. The id is not written. -/
def ConnectedPong.bytes (self : ConnectedPong) : Bytes :=
  beBytes 8 self.timeSinceStart.toNat ++ beBytes 8 self.timeSinceServerStart.toNat

@[simp] theorem ConnectedPong.length_bytes (self : ConnectedPong) : self.bytes.length = 16 := by
  simp [bytes]

theorem emits_connectedPong (self : ConnectedPong) : Emits (write self) self.bytes :=
  Emits.write (show 1 ≤ 16 by decide) (Nat.le_of_eq self.length_bytes.symm)
    ((emits_uint64 _).bind (emits_uint64 _))

end Rakro
