import Rakro.Packet.Ack
import Rakro.Roundtrip.Integer

/-!
# Acknowledgements on the wire

The writer puts down the id, a count and the records, each range after a flag byte of its own. The
reader takes the id byte for the flag that says a list of ranges follows, and reads the ranges
without flags. So what comes back is a list of ranges, six bytes each, whatever was written.
-/

namespace Rakro

open Infra BinaryBuffer

namespace Ack

/-! ## Writing -/

/-- A record as the writer leaves it. -/
def recordBytes : Record → Bytes
  | .multi range => 1 :: highBytes range.start ++ highBytes range.stop
  | .single value => highBytes value

/-- The encoding of an acknowledgement. -/
def bytes (self : Ack) : Bytes :=
  PacketId.ack.toUnderlying :: beBytes 2 (UInt16.ofNat self.count).toNat
    ++ self.records.flatMap recordBytes

theorem emits_record : ∀ record, Emits (writeRecord record) (recordBytes record)
  | .multi _ => (emits_bool true).bind ((emits_uint24 _).bind (emits_uint24 _))
  | .single _ => emits_uint24 _

theorem emits_ack (self : Ack) : Emits (write self) self.bytes := by
  refine Emits.write (show 1 ≤ 3 by decide) ?_ ?_
  · show 3 ≤ _
    simp only [bytes, List.cons_append, List.length_cons, List.length_append, length_beBytes]
    omega
  · exact (emits_uint8 _).bind ((emits_uint16 _).bind (Emits.forM emits_record _))

/-- A range takes a flag and two numbers. -/
theorem length_flatMap_multi : ∀ records : List Record, (∀ x ∈ records, ∃ range, x = .multi range) →
    (records.flatMap recordBytes).length = 7 * records.length
  | [], _ => rfl
  | record :: records, h => by
    obtain ⟨range, rfl⟩ := h record List.mem_cons_self
    rw [List.flatMap_cons, List.length_append,
      length_flatMap_multi records fun x hx => h x (List.mem_cons_of_mem _ hx)]
    simp [recordBytes]
    omega

/-! ## Reading -/

/-- What `readRanges` returns is made of ranges, and it has read six bytes for each. -/
theorem readRanges_eq_ok : ∀ (n : Nat) (b b' : BinaryBuffer) (p r : Bytes) (v : List Record),
    (readRanges n).run (b.between p r) = .ok v b' →
    v.length = n ∧ (∀ x ∈ v, ∃ range, x = .multi range) ∧ b'.index = p.length + 6 * n
  | 0, b, b', p, r, v, h => by
    cases h
    simp
  | n + 1, b, b', p, r, v, h => by
    rw [readRanges] at h
    obtain ⟨start, b₁, h₁, h⟩ := bind_eq_ok h
    obtain ⟨bs₁, r₁, hlen₁, rfl, rfl, -⟩ := uint24_exact h₁
    obtain ⟨stop, b₂, h₂, h⟩ := bind_eq_ok h
    obtain ⟨bs₂, r₂, hlen₂, rfl, rfl, -⟩ := uint24_exact h₂
    obtain ⟨records, b₃, h₃, h⟩ := bind_eq_ok h
    cases h
    obtain ⟨hlen, hmulti, hidx⟩ := readRanges_eq_ok n _ _ _ _ _ h₃
    refine ⟨by rw [List.length_cons, hlen], ?_, ?_⟩
    · intro x hx
      rcases List.mem_cons.mp hx with rfl | hx
      · exact ⟨_, rfl⟩
      · exact hmulti x hx
    · rw [hidx]
      simp only [List.length_append]
      omega

/-- The number of ranges that the reader expects behind these two bytes of the count. -/
def rangeCount (lengBytes : Bytes) : Nat :=
  (byteswap (n := 2) (UInt16.ofNat (ofBeBytes lengBytes)).toBitVec).toNat

/-- In front of an id byte, the reader goes for the ranges behind the count. -/
theorem run_readAck {b : BinaryBuffer} {p lengBytes r : Bytes} {id : UInt8} (hid : id ≠ 0)
    (hlen : lengBytes.length = 2) :
    (readNext Ack).run (b.between p (id :: lengBytes ++ r)) =
      (readRanges (rangeCount lengBytes) >>= fun records => pure (⟨records⟩ : Ack)).run
        (b.between (p ++ [id] ++ lengBytes) r) := by
  have hcheck : 3 ≤ (id :: lengBytes ++ r).length := by
    simp only [List.cons_append, List.length_cons, List.length_append]
    omega
  have hpeek := run_readNextPeak (T := UInt8) (by simp) (by simp) (consumes_read_uint8 id) b p
    (lengBytes ++ r)
  have hid' := consumes_uint8 id b p (lengBytes ++ r)
  have hcount := consumes_uint16 hlen b (p ++ [id]) r
  refine (run_bind_of_ok (run_boundsCheck (show 1 ≤ 3 by decide) hcheck)).trans ?_
  refine (run_bind_of_ok hpeek).trans ?_
  refine (run_bind_of_ok hid').trans ?_
  rw [if_pos hid]
  exact run_bind_of_ok hcount

/-- What an acknowledgement reads back as is a list of ranges, six bytes each. -/
theorem read_eq_ok {b b' : BinaryBuffer} {p lengBytes r : Bytes} {id : UInt8} {v : Ack}
    (hid : id ≠ 0) (hlen : lengBytes.length = 2)
    (h : (readNext Ack).run (b.between p (id :: lengBytes ++ r)) = .ok v b') :
    (∀ x ∈ v.records, ∃ range, x = .multi range) ∧ b'.index = p.length + 3 + 6 * v.count := by
  rw [run_readAck hid hlen] at h
  obtain ⟨records, b₁, hranges, h⟩ := bind_eq_ok h
  cases h
  obtain ⟨hcount, hmulti, hidx⟩ := readRanges_eq_ok _ _ _ _ _ _ hranges
  refine ⟨hmulti, ?_⟩
  rw [hidx, count, hcount]
  simp only [List.length_append, List.length_singleton]
  omega

/-! ## The round trip -/

/-- The reader stops where the writer stopped only behind an empty list. -/
theorem eq_nil_of_roundTrips {self : Ack} {b : BinaryBuffer}
    (room : b.index + self.bytes.length ≤ b.size) (h : RoundTrips self b) : self.records = [] := by
  obtain ⟨p, r, hiff⟩ := roundTrips_iff (emits_ack self) room
  obtain ⟨b'', hread, hidx⟩ := hiff.mp h
  rw [bytes, List.append_assoc] at hread
  obtain ⟨hmulti, hidx'⟩ := read_eq_ok (show PacketId.ack.toUnderlying ≠ 0 by decide)
    (length_beBytes _ _) hread
  rw [hidx, bytes, List.length_append, List.length_cons, length_beBytes,
    length_flatMap_multi _ hmulti, count] at hidx'
  exact List.length_eq_zero_iff.mp (by omega)

/-- An acknowledgement without records comes back. -/
theorem roundTrips_nil {b : BinaryBuffer} (room : b.index + (bytes {}).length ≤ b.size) :
    RoundTrips ({} : Ack) b := by
  obtain ⟨p, r, hiff⟩ := roundTrips_iff (emits_ack {}) room
  rw [hiff]
  refine ⟨b.between (p ++ [0xC0] ++ [0, 0]) r, ?_, by simp [bytes]⟩
  exact run_readAck (b := b) (p := p) (r := r) (show (0xC0 : UInt8) ≠ 0 by decide)
    (show [0, 0].length = 2 from rfl)

/-- **An acknowledgement comes back exactly when it acknowledges nothing.** -/
theorem roundTrips_iff_nil {self : Ack} {b : BinaryBuffer}
    (room : b.index + self.bytes.length ≤ b.size) : RoundTrips self b ↔ self.records = [] := by
  constructor
  · exact eq_nil_of_roundTrips room
  · intro h
    obtain ⟨records⟩ := self
    dsimp only at h
    subst h
    exact roundTrips_nil room

theorem roundTrips_iff_nil_empty : RoundTrips ({} : Ack) { bytes := [0, 0, 0] } :=
  (roundTrips_iff_nil (by decide)).mpr rfl

/-- A single number, in a buffer with room for it, is not read back. -/
theorem single_not_roundTrips :
    (bytes ⟨[.single ⟨5⟩]⟩).length ≤ 16 ∧
      ¬ RoundTrips (⟨[.single ⟨5⟩]⟩ : Ack) { bytes := List.replicate 16 0 } := by
  refine ⟨by decide, fun h => ?_⟩
  have hnil := eq_nil_of_roundTrips (by decide) h
  cases hnil

end Ack

end Rakro
