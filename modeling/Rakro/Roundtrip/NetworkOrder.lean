import Rakro.Roundtrip.Unconnected

/-!
# Addresses on the wire

A socket address has its octets and its port in network order, and a little-endian host takes them
for numbers with the bytes the other way round. `from_ipv4` keeps these numbers, and the integer
codec puts their bytes down the other way round again. So an address that is given as a literal is
in network order on the wire, and the address of a peer is backwards.
-/

namespace Rakro

open Infra BinaryBuffer

/-- The address `o₁.o₂.o₃.o₄` and a port. -/
structure Peer where
  o₁ : UInt8
  o₂ : UInt8
  o₃ : UInt8
  o₄ : UInt8
  port : UInt16
  deriving DecidableEq, Repr

namespace Peer

/-- The four octets, in the order that they are written down in. -/
def octets (self : Peer) : Bytes := [self.o₁, self.o₂, self.o₃, self.o₄]

/-- The fields of `sockaddr_in`, in network order, as a little-endian host takes them. -/
def address (self : Peer) : IPV4Addr where
  sAddr := UInt32.ofNat (ofLeBytes self.octets)
  sinPort := UInt16.ofNat (ofLeBytes (beBytes 2 self.port.toNat))

/-- The address as a literal, by its value and the number of its port. -/
def literal (self : Peer) : RakAddress where
  ip := UInt32.ofNat (ofBeBytes self.octets)
  port := self.port

/-- The tag, the octets and the port, in network order. -/
def networkBytes (self : Peer) : Bytes := 4 :: (self.octets ++ beBytes 2 self.port.toNat)

/-- The address and the port read the same from either end. -/
def Symmetric (self : Peer) : Prop :=
  self.o₁ = self.o₄ ∧ self.o₂ = self.o₃ ∧ self.port.toNat / 256 = self.port.toNat % 256

end Peer

/-! ## What is put down -/

/-- A number that is put together from bytes comes apart into them, the other way round. -/
theorem beBytes_ofLeBytes (bs : Bytes) : beBytes bs.length (ofLeBytes bs) = bs.reverse := by
  rw [beBytes, leBytes_ofLeBytes]

/-- Reading low byte first and writing high byte first turns four bytes around. -/
theorem beBytes_uint32 {bs : Bytes} (h : bs.length = 4) :
    beBytes 4 (UInt32.ofNat (ofLeBytes bs)).toNat = bs.reverse := by
  have hlt := ofLeBytes_lt bs
  rw [h] at hlt
  rw [UInt32.toNat_ofNat', Nat.mod_eq_of_lt (show _ < 2 ^ 32 from hlt), ← h, beBytes_ofLeBytes]

theorem beBytes_uint16 {bs : Bytes} (h : bs.length = 2) :
    beBytes 2 (UInt16.ofNat (ofLeBytes bs)).toNat = bs.reverse := by
  have hlt := ofLeBytes_lt bs
  rw [h] at hlt
  rw [UInt16.toNat_ofNat', Nat.mod_eq_of_lt (show _ < 2 ^ 16 from hlt), ← h, beBytes_ofLeBytes]

namespace Peer

/-- A literal is in network order. -/
theorem bytes_literal (peer : Peer) : peer.literal.bytes = peer.networkBytes := by
  have hlength : peer.octets.reverse.length = 4 := rfl
  have hip : beBytes 4 peer.literal.ip.toNat = peer.octets :=
    (beBytes_uint32 hlength).trans (List.reverse_reverse _)
  unfold RakAddress.bytes networkBytes
  rw [hip]
  rfl

/-- The address of a peer is backwards. -/
theorem bytes_fromIpv4 (peer : Peer) : (RakAddress.fromIpv4 peer.address).bytes =
    4 :: (peer.octets.reverse ++ (beBytes 2 peer.port.toNat).reverse) := by
  have hip : beBytes 4 (RakAddress.fromIpv4 peer.address).ip.toNat = peer.octets.reverse :=
    beBytes_uint32 rfl
  have hport : beBytes 2 (RakAddress.fromIpv4 peer.address).port.toNat =
      (beBytes 2 peer.port.toNat).reverse := beBytes_uint16 rfl
  unfold RakAddress.bytes
  rw [hip, hport]

theorem beBytes_two (port : UInt16) : beBytes 2 port.toNat =
    [UInt8.ofNat (port.toNat / 256), UInt8.ofNat port.toNat] := rfl

/-- An address is written in network order when it reads the same backwards. -/
theorem bytes_fromIpv4_eq_iff (peer : Peer) :
    (RakAddress.fromIpv4 peer.address).bytes = peer.networkBytes ↔ peer.Symmetric := by
  have hlt : peer.port.toNat < 2 ^ 16 := peer.port.toNat_lt
  have hport : UInt8.ofNat peer.port.toNat = UInt8.ofNat (peer.port.toNat / 256) ↔
      peer.port.toNat / 256 = peer.port.toNat % 256 := by
    rw [← UInt8.toNat_inj, UInt8.toNat_ofNat', UInt8.toNat_ofNat']
    omega
  rw [bytes_fromIpv4, networkBytes, beBytes_two]
  unfold octets Symmetric
  simp only [List.reverse_cons, List.reverse_nil, List.nil_append, List.cons_append,
    List.cons.injEq, true_and, and_true]
  rw [hport]
  constructor
  · rintro ⟨h₄, h₃, -, -, hp, -⟩
    exact ⟨h₄.symm, h₃.symm, hp⟩
  · rintro ⟨h₁, h₂, hp⟩
    exact ⟨h₁.symm, h₂.symm, h₂, h₁, hp, (hport.mpr hp).symm⟩

end Peer

/-! ## In the replies -/

/-- Written at the cursor, `val` has the address of the peer at `offset`, in network order. -/
def ShowsInOrder {T : Type} [BinaryData T] (val : T) (offset : Nat) (peer : Peer)
    (b : BinaryBuffer) : Prop :=
  ∃ b', (write val).run b = .ok ⟨⟩ b' ∧
    (b'.bytes.drop (b.index + offset)).take 7 = peer.networkBytes

/-- With room for the message, what is shown is what the address puts down. -/
theorem showsInOrder_iff {T : Type} [BinaryData T] {val : T} {enc front behind : Bytes}
    {offset : Nat} {address : RakAddress} (hw : Emits (write val) enc)
    (henc : enc = front ++ (address.bytes ++ behind)) (hfront : front.length = offset)
    {b : BinaryBuffer} (peer : Peer) (room : b.index + enc.length ≤ b.size) :
    ShowsInOrder val offset peer b ↔ address.bytes = peer.networkBytes := by
  subst henc
  obtain ⟨r, hrun, -⟩ := hw.run_room room
  have hindex : b.consumedSlice.length = b.index := length_consumedSlice (by omega)
  have hshown : ((b.between (b.consumedSlice ++ (front ++ (address.bytes ++ behind))) r).bytes.drop
      (b.index + offset)).take 7 = address.bytes := by
    rw [between_bytes, ← hindex, ← hfront, ← List.length_append, List.append_assoc,
      List.append_assoc, ← List.append_assoc b.consumedSlice, List.drop_left, List.append_assoc,
      List.take_left' address.length_bytes]
  unfold ShowsInOrder
  rw [← hshown]
  constructor
  · rintro ⟨b', hb', h⟩
    cases hrun.symm.trans hb'
    exact h
  · intro h
    exact ⟨_, hrun, h⟩

/-- A reply to a peer. -/
def replyTwoTo (peer : Peer) (serverGuid : UInt64) (mtu : UInt16) : OpenConnectionReply2 where
  serverGuid
  mtu
  clientAddress := .fromIpv4 peer.address

/-- The answer to a peer's `ConnectionRequest`. -/
def acceptedTo (peer : Peer) (clientReqTime serverUpTime : UInt64) : ConnectionRequestAccepted where
  clientAddress := .fromIpv4 peer.address
  clientReqTime
  serverUpTime

/-- The second reply shows such addresses in order, and no others. -/
theorem replyTwoTo_showsInOrder_iff (peer : Peer) (serverGuid : UInt64) (mtu : UInt16)
    {b : BinaryBuffer} (room : b.index + 35 ≤ b.size) :
    ShowsInOrder (replyTwoTo peer serverGuid mtu) 25 peer b ↔ peer.Symmetric := by
  have hlength := (replyTwoTo peer serverGuid mtu).length_bytes
  have hbytes : (replyTwoTo peer serverGuid mtu).bytes =
      (PacketId.openConnectionReply2.toUnderlying ::
          (magic.toList ++ beBytes 8 serverGuid.toNat)) ++
        ((RakAddress.fromIpv4 peer.address).bytes ++ (beBytes 2 mtu.toNat ++ [0])) := by
    simp [OpenConnectionReply2.bytes, replyTwoTo]
  rw [← peer.bytes_fromIpv4_eq_iff]
  refine showsInOrder_iff (Emits.write (show 1 ≤ 35 by decide) (Nat.le_of_eq hlength.symm)
    (emits_reply2Fields _)) hbytes ?_ peer (by omega)
  rw [List.length_cons, List.length_append, length_magic, length_beBytes]

theorem acceptedTo_showsInOrder_iff (peer : Peer) (clientReqTime serverUpTime : UInt64)
    {b : BinaryBuffer} (room : b.index + 166 ≤ b.size) :
    ShowsInOrder (acceptedTo peer clientReqTime serverUpTime) 1 peer b ↔ peer.Symmetric := by
  have hlength := (acceptedTo peer clientReqTime serverUpTime).length_bytes
  have hbytes : ∃ behind, (acceptedTo peer clientReqTime serverUpTime).bytes =
      [PacketId.connectionRequestAccepted.toUnderlying] ++
        ((RakAddress.fromIpv4 peer.address).bytes ++ behind) := ⟨_, rfl⟩
  obtain ⟨behind, hbytes⟩ := hbytes
  rw [← peer.bytes_fromIpv4_eq_iff]
  exact showsInOrder_iff (emits_connectionRequestAccepted _) hbytes rfl peer (by omega)

/--
**A peer finds its address in network order exactly when the address and the port read the same from
either end**, in either of the messages that tell it.
-/
theorem showsInOrder_iff_symmetric (peer : Peer) (serverGuid : UInt64) (mtu : UInt16)
    (clientReqTime serverUpTime : UInt64) (b : BinaryBuffer) :
    (b.index + 35 ≤ b.size →
        (ShowsInOrder (replyTwoTo peer serverGuid mtu) 25 peer b ↔ peer.Symmetric)) ∧
      (b.index + 166 ≤ b.size →
        (ShowsInOrder (acceptedTo peer clientReqTime serverUpTime) 1 peer b ↔ peer.Symmetric)) :=
  ⟨replyTwoTo_showsInOrder_iff peer serverGuid mtu,
    acceptedTo_showsInOrder_iff peer clientReqTime serverUpTime⟩

/-- Room for either message. -/
def roomForBoth : BinaryBuffer := { bytes := List.replicate 166 0 }

theorem size_roomForBoth : roomForBoth.size = 166 := List.length_replicate

/-- The address 7.9.9.7 with the port 257. -/
def mirrored : Peer where
  o₁ := 7
  o₂ := 9
  o₃ := 9
  o₄ := 7
  port := 257

/-- An address that reads the same backwards. -/
theorem showsInOrder_mirrored :
    ShowsInOrder (replyTwoTo mirrored 0 0) 25 mirrored roomForBoth ∧
      ShowsInOrder (acceptedTo mirrored 0 0) 1 mirrored roomForBoth := by
  have h := showsInOrder_iff_symmetric mirrored 0 0 0 0 roomForBoth
  have hsymmetric : mirrored.Symmetric := ⟨rfl, rfl, rfl⟩
  rw [size_roomForBoth] at h
  exact ⟨(h.1 (by decide)).mpr hsymmetric, (h.2 (by decide)).mpr hsymmetric⟩

/-- The address 127.0.0.1 with the usual port. -/
def localPeer : Peer where
  o₁ := 127
  o₂ := 0
  o₃ := 0
  o₄ := 1
  port := 19132

/-- It is told 1.0.0.127 and another port, in both messages. -/
theorem localPeer_not_showsInOrder :
    ¬ ShowsInOrder (replyTwoTo localPeer 0 0) 25 localPeer roomForBoth ∧
      ¬ ShowsInOrder (acceptedTo localPeer 0 0) 1 localPeer roomForBoth := by
  have hnot : ¬ localPeer.Symmetric := fun h => absurd h.1 (by decide)
  have hreply := replyTwoTo_showsInOrder_iff localPeer 0 0 (b := roomForBoth)
    (by rw [size_roomForBoth]; decide)
  have haccepted := acceptedTo_showsInOrder_iff localPeer 0 0 (b := roomForBoth)
    (by rw [size_roomForBoth]; decide)
  exact ⟨mt hreply.mp hnot, mt haccepted.mp hnot⟩

end Rakro
