import Rakro.Packet.Unconnected
import Rakro.Roundtrip.Connected

/-!
# The messages before the connection on the wire

What the readers of the three requests take and what the writers of the replies put down. The reader
of an address decodes it through a buffer of its own and leaves the cursor in front of it, so the
second request is never taken apart as it was put together.
-/

namespace Rakro

open Infra BinaryBuffer

/-! ## The magic bytes -/

theorem consumes_discard {α : Type} {method : BufM α} (h : ∀ x, ∃ v, Consumes method [x] v) :
    ∀ bs : Bytes, Consumes (discard method bs.length) bs (⟨⟩ : PUnit)
  | [] => Consumes.pure PUnit.unit
  | x :: bs => by
    obtain ⟨v, hv⟩ := h x
    exact hv.bind (consumes_discard h bs)

@[simp] theorem length_magic : magic.toList.length = 16 := rfl

/-- Any sixteen bytes are read as the magic ones. -/
theorem consumes_magic {bs : Bytes} (h : bs.length = 16) :
    Consumes (readNext MagicType) bs magic := by
  refine Consumes.readNext (show 1 ≤ 16 by decide) (show 16 ≤ _ from Nat.le_of_eq h.symm) ?_
  have hdiscard : Consumes (discard nextByte bs.length) bs (⟨⟩ : PUnit) :=
    consumes_discard (fun x => ⟨x, consumes_nextByte x⟩) bs
  rw [h] at hdiscard
  exact hdiscard.map fun _ => magic

theorem emits_magic : Emits (write magic) magic.toList :=
  Emits.write (show 1 ≤ 16 by decide) (show 16 ≤ magic.toList.length by decide) (emits_forM _)

/-! ## Pings -/

theorem consumes_unconnectedPing {time bs guid : Bytes} (htime : time.length = 8)
    (hbs : bs.length = 16) (hguid : guid.length = 8) :
    Consumes (readNext UnconnectedPing) (time ++ (bs ++ guid))
      { time := .ofBitVec (byteswap (n := 8) (orAll time 0 0))
        clientGuid := .ofBitVec (byteswap (n := 8) (orAll guid 0 0)) } := by
  refine Consumes.readNext (show 1 ≤ 32 by decide) ?_ ?_
  · show 32 ≤ _
    simp only [List.length_append]
    omega
  · exact (consumes_uint64 htime).bind ((consumes_magic hbs).bind ((consumes_uint64 hguid).map _))

/-- The ping behind its id: the time, the magic bytes and the guid. -/
def UnconnectedPing.bytes (self : UnconnectedPing) : Bytes :=
  beBytes 8 self.time.toNat ++ (magic.toList ++ beBytes 8 self.clientGuid.toNat)

@[simp] theorem UnconnectedPing.length_bytes (self : UnconnectedPing) : self.bytes.length = 32 := by
  simp [bytes]

theorem emits_pingFields (self : UnconnectedPing) : Emits (BinaryData.write self) self.bytes :=
  (emits_uint64 _).bind (emits_magic.bind (emits_uint64 _))

/-- The length in two bytes, then the characters. -/
def StdString.bytes (self : StdString) : Bytes :=
  beBytes 2 (UInt16.ofNat self.chars.length).toNat ++ self.chars

@[simp] theorem StdString.length_bytes (self : StdString) :
    self.bytes.length = 2 + self.chars.length := by
  simp [bytes]

theorem emits_stdString (self : StdString) : Emits (write self) self.bytes := by
  refine Emits.write ?_ ?_ ((emits_uint16 _).bind (emits_forM _))
  · show 1 ≤ self.chars.length + 2
    omega
  · show self.chars.length + 2 ≤ _
    rw [StdString.length_bytes]
    omega

/-- The pong as it is written. -/
def UnconnectedPong.bytes (self : UnconnectedPong) : Bytes :=
  PacketId.unconnectedPong.toUnderlying :: (beBytes 8 self.time.toNat
    ++ (beBytes 8 self.serverGuid.toNat ++ (magic.toList ++ self.serverId.bytes)))

@[simp] theorem UnconnectedPong.length_bytes (self : UnconnectedPong) :
    self.bytes.length = 35 + self.serverId.chars.length := by
  simp only [bytes, List.length_cons, List.length_append, length_beBytes, length_magic,
    StdString.length_bytes]
  omega

theorem emits_pongFields (self : UnconnectedPong) : Emits (BinaryData.write self) self.bytes :=
  (emits_uint8 _).bind ((emits_uint64 _).bind ((emits_uint64 _).bind
    (emits_magic.bind (emits_stdString _))))

/-- The size that a pong states is two bytes more than it takes. -/
theorem size_pong (self : UnconnectedPong) :
    BinaryData.size (some self) = self.bytes.length + 2 := by
  show 16 + 8 * 2 + (self.serverId.chars.length + 2 + 1) + 2 = _
  rw [UnconnectedPong.length_bytes]
  omega

/-! ## The first request -/

/-- Everything in front of the cursor belongs to the request. -/
theorem run_readRequest1 (b : BinaryBuffer) (p : Bytes) {bs r : Bytes} (version : UInt8)
    (hbs : bs.length = 16) (hr : 83 ≤ r.length) :
    (readNext OpenConnectionRequest1).run (b.between p (bs ++ version :: r)) =
      .ok { protoVersion := version, mtu := UInt16.ofNat (p ++ (bs ++ version :: r)).length }
        (b.between (p ++ bs ++ [version] ++ r) []) := by
  have hcheck : 100 ≤ (bs ++ version :: r).length := by
    simp only [List.length_append, List.length_cons]
    omega
  have hrest := consumes_discard (fun x => ⟨x, consumes_uint8 x⟩) r b (p ++ bs ++ [version]) []
  rw [List.append_nil] at hrest
  refine (run_bind_of_ok (run_boundsCheck (show 1 ≤ 100 by decide) hcheck)).trans ?_
  refine (run_bind_of_ok (consumes_magic hbs b p (version :: r))).trans ?_
  refine (run_bind_of_ok (consumes_uint8 version b (p ++ bs) r)).trans ?_
  refine (run_get_bind _ _).trans ?_
  rw [between_remaining, between_bytes]
  refine (run_bind_of_ok hrest).trans ?_
  simp only [EStateM.run_pure, List.append_assoc, List.singleton_append]

/-- The first reply as it is written. It asks for no security. -/
def OpenConnectionReply1.bytes (self : OpenConnectionReply1) : Bytes :=
  PacketId.openConnectionReply1.toUnderlying :: (magic.toList
    ++ (beBytes 8 self.serverGuid.toNat ++ (0 :: beBytes 2 self.mtu.toNat)))

@[simp] theorem OpenConnectionReply1.length_bytes (self : OpenConnectionReply1) :
    self.bytes.length = 28 := by
  simp [bytes]

theorem emits_reply1Fields (self : OpenConnectionReply1) :
    Emits (BinaryData.write self) self.bytes :=
  (emits_uint8 _).bind (emits_magic.bind ((emits_uint64 _).bind
    ((emits_bool false).bind (emits_uint16 _))))

/-- The refusal as it is written. -/
def IncompatibleProtocol.bytes (self : IncompatibleProtocol) : Bytes :=
  PacketId.incompatibleProtocol.toUnderlying :: self.clientProtocol
    :: (magic.toList ++ beBytes 8 self.serverGuid.toNat)

@[simp] theorem IncompatibleProtocol.length_bytes (self : IncompatibleProtocol) :
    self.bytes.length = 26 := by
  simp [bytes]

theorem emits_incompatibleFields (self : IncompatibleProtocol) :
    Emits (BinaryData.write self) self.bytes :=
  (emits_uint8 _).bind ((emits_uint8 _).bind (emits_magic.bind (emits_uint64 _)))

/-! ## The second request -/

/-- What stands behind the tag byte of an address. -/
def RakAddress.ofBytes (ip port : Bytes) : RakAddress where
  ip := UInt32.ofNat (ofBeBytes ip)
  port := UInt16.ofNat (ofBeBytes port)

theorem consumes_readTagged {ip port : Bytes} (hip : ip.length = 4) (hport : port.length = 2) :
    Consumes RakAddress.readTagged (4 :: (ip ++ port)) (some (.ofBytes ip port)) :=
  (consumes_nextByte 4).bind ((consumes_uint32 hip).bind ((consumes_uint16 hport).map _))

/-- The six bytes behind the tag, and the rest. -/
theorem exists_address_fields {r : Bytes} (h : 6 ≤ r.length) :
    ∃ ip port rest : Bytes, ip.length = 4 ∧ port.length = 2 ∧ r = ip ++ port ++ rest := by
  refine ⟨r.take 4, (r.drop 4).take 2, r.drop 6, ?_, ?_, ?_⟩
  · rw [List.length_take]; omega
  · rw [List.length_take, List.length_drop]; omega
  · rw [List.append_assoc, ← List.drop_drop (i := 2) (j := 4), List.take_append_drop,
      List.take_append_drop]

/-- The slice may be longer. -/
theorem fromBytes_eq {ip port : Bytes} (hip : ip.length = 4) (hport : port.length = 2) (r : Bytes) :
    RakAddress.fromBytes (4 :: (ip ++ port) ++ r) = .ok (some (.ofBytes ip port)) := by
  have hlong : ¬ (4 :: (ip ++ port) ++ r).length < 7 := by
    simp only [List.cons_append, List.length_cons, List.length_append]
    omega
  have hrun : RakAddress.readTagged.run (.ofRented { memory := 4 :: (ip ++ port) ++ r }) = _ :=
    consumes_readTagged hip hport (.ofRented { memory := 4 :: (ip ++ port) ++ r }) [] r
  unfold RakAddress.fromBytes
  rw [if_neg hlong, hrun]

/-- **Reading an address leaves the cursor in front of it.** -/
theorem run_readAddress (b : BinaryBuffer) (p : Bytes) {ip port : Bytes} (r : Bytes)
    (hip : ip.length = 4) (hport : port.length = 2) :
    (readNext RakAddress).run (b.between p (4 :: (ip ++ port) ++ r)) =
      .ok (.ofBytes ip port) (b.between p (4 :: (ip ++ port) ++ r)) := by
  have hcheck : 7 ≤ (4 :: (ip ++ port) ++ r).length := by
    simp only [List.cons_append, List.length_cons, List.length_append]
    omega
  have hpeek : (readNextPeak UInt8).run (b.between p (4 :: (ip ++ port) ++ r)) =
      .ok 4 (b.between p (4 :: (ip ++ port) ++ r)) :=
    run_readNextPeak (by simp) (by simp) (consumes_read_uint8 4) b p (ip ++ port ++ r)
  refine (run_bind_of_ok (run_boundsCheck (show 1 ≤ 7 by decide) hcheck)).trans ?_
  refine (run_bind_of_ok hpeek).trans ?_
  rw [if_neg (by decide)]
  refine (run_get_bind _ _).trans ?_
  rw [between_remainingSlice, fromBytes_eq hip hport r, EStateM.run_pure]

/-- Any other tag is no address. -/
theorem run_readAddress_untagged (b : BinaryBuffer) (p r : Bytes) {tag : UInt8} (htag : tag ≠ 4)
    (hr : 6 ≤ r.length) :
    (readNext RakAddress).run (b.between p (tag :: r)) =
      .error (.runtimeError "invalid IP") (b.between p (tag :: r)) := by
  have hpeek := run_readNextPeak (T := UInt8) (by simp) (by simp) (consumes_read_uint8 tag) b p r
  refine (run_bind_of_ok (run_boundsCheck (show 1 ≤ 7 by decide) ?_)).trans ?_
  · show 7 ≤ (tag :: r).length
    rw [List.length_cons]
    omega
  · refine (run_bind_of_ok hpeek).trans ?_
    rw [if_pos htag]
    rfl

/-- The MTU and the guid are read from where the address starts. -/
theorem run_readRequest2 (b : BinaryBuffer) (p : Bytes) {bs r : Bytes} (x : UInt8)
    (hbs : bs.length = 16) (hr : 15 ≤ r.length) :
    (readNext OpenConnectionRequest2).run (b.between p (bs ++ 4 :: x :: r)) =
      .ok { mtu := UInt16.ofNat (ofBeBytes [4, x])
            clientGuid := .ofBitVec (byteswap (n := 8) (orAll (r.take 8) 0 0)) }
        (b.between (p ++ bs ++ [4, x] ++ r.take 8) (r.drop 8)) := by
  have hcheck : 33 ≤ (bs ++ 4 :: x :: r).length := by
    simp only [List.length_append, List.length_cons]
    omega
  obtain ⟨ip, port, rest, hip, hport, hfields⟩ := exists_address_fields (r := x :: r)
    (by rw [List.length_cons]; omega)
  have haddress := run_readAddress b (p ++ bs) rest hip hport
  rw [List.cons_append, ← hfields] at haddress
  have hguid := consumes_uint64 (show (r.take 8).length = 8 by rw [List.length_take]; omega) b
    (p ++ bs ++ [4, x]) (r.drop 8)
  rw [List.take_append_drop] at hguid
  refine (run_bind_of_ok (run_boundsCheck (show 1 ≤ 33 by decide) hcheck)).trans ?_
  refine (run_bind_of_ok (consumes_magic hbs b p (4 :: x :: r))).trans ?_
  refine (run_bind_of_ok haddress).trans ?_
  refine (run_bind_of_ok (consumes_uint16 (show [4, x].length = 2 from rfl) b (p ++ bs) r)).trans ?_
  exact run_bind_of_ok hguid

/-- An address of another family is refused. -/
theorem run_readRequest2_untagged (b : BinaryBuffer) (p : Bytes) {bs r : Bytes} {tag : UInt8}
    (hbs : bs.length = 16) (htag : tag ≠ 4) (hr : 16 ≤ r.length) :
    (readNext OpenConnectionRequest2).run (b.between p (bs ++ tag :: r)) =
      .error (.runtimeError "invalid IP") (b.between (p ++ bs) (tag :: r)) := by
  have hcheck : 33 ≤ (bs ++ tag :: r).length := by
    simp only [List.length_append, List.length_cons]
    omega
  refine (run_bind_of_ok (run_boundsCheck (show 1 ≤ 33 by decide) hcheck)).trans ?_
  refine (run_bind_of_ok (consumes_magic hbs b p (tag :: r))).trans ?_
  exact run_bind_of_error (run_readAddress_untagged b (p ++ bs) r htag (by omega))

section Split

variable {b : BinaryBuffer} {p r : Bytes}

/-- A part of any length can be cut off. -/
theorem exists_split {n : Nat} (h : n ≤ r.length) :
    ∃ x rest : Bytes, x.length = n ∧ r = x ++ rest :=
  ⟨r.take n, r.drop n, List.length_take_of_le h, (List.take_append_drop n r).symm⟩

/-- In a second request, the magic bytes and the tag of the address. -/
theorem exists_tag (h : 33 ≤ r.length) : ∃ (bs : Bytes) (tag : UInt8) (rest : Bytes),
    bs.length = 16 ∧ 16 ≤ rest.length ∧ r = bs ++ tag :: rest ∧ r[16]? = some tag := by
  obtain ⟨bs, r₁, hbs, rfl⟩ := exists_split (n := 16) (r := r) (by omega)
  rw [List.length_append] at h
  obtain ⟨tag, rest, rfl⟩ := List.exists_cons_of_length_pos (l := r₁) (by omega)
  rw [List.length_cons] at h
  refine ⟨bs, tag, rest, hbs, by omega, rfl, ?_⟩
  rw [List.getElem?_append_right (Nat.le_of_eq hbs), hbs, List.getElem?_cons_zero]

/-- A second request that is read has an address of the right family. -/
theorem tag_of_succeeds_readRequest2 (h : 33 ≤ r.length)
    (hread : Succeeds (readNext OpenConnectionRequest2) (b.between p r)) : r[16]? = some 4 := by
  obtain ⟨bs, tag, rest, hbs, hrest, rfl, htag⟩ := exists_tag h
  by_contra hne
  have hfour : tag ≠ 4 := by
    rintro rfl
    exact hne htag
  exact not_succeeds_of_error (run_readRequest2_untagged b p hbs hfour hrest) hread

end Split

/-- The second reply as it is written. It asks for no encryption. -/
def OpenConnectionReply2.bytes (self : OpenConnectionReply2) : Bytes :=
  PacketId.openConnectionReply2.toUnderlying :: (magic.toList
    ++ (beBytes 8 self.serverGuid.toNat ++ (self.clientAddress.bytes
      ++ (beBytes 2 self.mtu.toNat ++ [0]))))

@[simp] theorem OpenConnectionReply2.length_bytes (self : OpenConnectionReply2) :
    self.bytes.length = 35 := by
  simp [bytes]

theorem emits_reply2Fields (self : OpenConnectionReply2) :
    Emits (BinaryData.write self) self.bytes :=
  (emits_uint8 _).bind (emits_magic.bind ((emits_uint64 _).bind ((emits_rakAddress _).bind
    ((emits_uint16 _).bind (emits_bool false)))))

/-! ## Reading back the second request -/

/-- In front of `enc`, the reader returns `v` and stops behind `enc`. -/
def ReadsBack {T : Type} [BinaryData T] (enc : Bytes) (v : T) (b : BinaryBuffer) (p r : Bytes) :
    Prop :=
  ∃ b', (readNext T).run (b.between p (enc ++ r)) = .ok v b' ∧ b'.index = p.length + enc.length

/-- The body of a second request: the magic bytes, the address, the MTU and the guid. -/
def requestTwoBytes (address : RakAddress) (mtu : UInt16) (clientGuid : UInt64) : Bytes :=
  magic.toList ++ (address.bytes ++ (beBytes 2 mtu.toNat ++ beBytes 8 clientGuid.toNat))

@[simp] theorem length_requestTwoBytes (address : RakAddress) (mtu : UInt16) (clientGuid : UInt64) :
    (requestTwoBytes address mtu clientGuid).length = 33 := by
  simp [requestTwoBytes]

/-- Of the thirty-three bytes of a body, twenty-six are taken. -/
theorem run_readRequest2_body (address : RakAddress) (mtu : UInt16) (clientGuid : UInt64)
    (b : BinaryBuffer) (p r : Bytes) : ∃ request b',
    (readNext OpenConnectionRequest2).run
      (b.between p (requestTwoBytes address mtu clientGuid ++ r)) = .ok request b' ∧
    b'.index = p.length + 26 := by
  obtain ⟨tail, hbody, hlen⟩ : ∃ tail : Bytes,
      requestTwoBytes address mtu clientGuid ++ r = magic.toList ++ 4 :: tail ∧ 16 ≤ tail.length := by
    refine ⟨beBytes 4 address.ip.toNat ++ beBytes 2 address.port.toNat
      ++ (beBytes 2 mtu.toNat ++ beBytes 8 clientGuid.toNat ++ r), ?_, ?_⟩
    · simp [requestTwoBytes, RakAddress.bytes]
    · simp only [List.length_append, length_beBytes]
      omega
  obtain ⟨x, rest, rfl⟩ := List.exists_cons_of_length_pos (show 0 < tail.length by omega)
  rw [List.length_cons] at hlen
  rw [hbody]
  refine ⟨_, _, run_readRequest2 b p x length_magic (by omega), ?_⟩
  simp only [between_index, List.length_append, length_magic, List.length_cons, List.length_nil,
    List.length_take]
  omega

/-- An address is read, and the cursor stays in front of it. -/
theorem run_readAddress_bytes (address : RakAddress) (b : BinaryBuffer) (p r : Bytes) :
    (readNext RakAddress).run (b.between p (address.bytes ++ r)) =
      .ok address (b.between p (address.bytes ++ r)) := by
  have hip : UInt32.ofNat (ofBeBytes (beBytes 4 address.ip.toNat)) = address.ip := by
    rw [ofBeBytes_beBytes (UInt32.toNat_lt _), UInt32.ofNat_toNat]
  have hport : UInt16.ofNat (ofBeBytes (beBytes 2 address.port.toNat)) = address.port := by
    rw [ofBeBytes_beBytes (UInt16.toNat_lt _), UInt16.ofNat_toNat]
  have h := run_readAddress b p r (length_beBytes 4 address.ip.toNat)
    (length_beBytes 2 address.port.toNat)
  rw [RakAddress.ofBytes, hip, hport] at h
  exact h

/-- What `write` has put down for an address is read back in place, never moved past. -/
theorem not_roundTrips_rakAddress (address : RakAddress) {b : BinaryBuffer}
    (room : b.index + 7 ≤ b.size) : ¬ RoundTrips address b := by
  obtain ⟨p, r, hiff⟩ := roundTrips_iff (emits_rakAddress address)
    (by rw [address.length_bytes]; exact room)
  rw [hiff, run_readAddress_bytes]
  rintro ⟨b', hread, hidx⟩
  cases hread
  rw [between_index, address.length_bytes] at hidx
  omega

/--
**No second request and no address is read back.**

The reader of an address decodes it through another buffer and leaves its own cursor where it was.
-/
theorem readsBack_never (address : RakAddress) (mtu : UInt16) (clientGuid : UInt64)
    (b : BinaryBuffer) (p r : Bytes) :
    ¬ ReadsBack (requestTwoBytes address mtu clientGuid) { mtu, clientGuid : OpenConnectionRequest2 }
        b p r ∧
      ¬ ReadsBack address.bytes address b p r := by
  constructor
  · rintro ⟨b', hread, hidx⟩
    obtain ⟨request, b'', hrun, hidx'⟩ := run_readRequest2_body address mtu clientGuid b p r
    rw [hrun] at hread
    cases hread
    rw [length_requestTwoBytes] at hidx
    omega
  · rintro ⟨b', hread, hidx⟩
    rw [run_readAddress_bytes] at hread
    cases hread
    rw [between_index, address.length_bytes] at hidx
    omega

/-- The body a client at 127.0.0.1 sends for an MTU of 1400. -/
def localRequestTwo : Bytes := requestTwoBytes { ip := 0x7F000001, port := 19132 } 1400 1

/-- The first byte of the address ends up in the MTU. -/
theorem localRequestTwo_not_readsBack :
    ¬ ReadsBack localRequestTwo { mtu := 1400, clientGuid := 1 : OpenConnectionRequest2 } {} [7]
      [] := by
  rintro ⟨b', hread, -⟩
  have hbody : localRequestTwo ++ [] =
      magic.toList ++ 4 :: 0x7F :: [0, 0, 1, 0x4A, 0xBC, 0x05, 0x78, 0, 0, 0, 0, 0, 0, 0, 1] := by
    decide
  rw [hbody, run_readRequest2 _ _ _ length_magic (by decide)] at hread
  injection hread with hrequest
  injection hrequest with hmtu
  exact absurd hmtu (by decide)

end Rakro
