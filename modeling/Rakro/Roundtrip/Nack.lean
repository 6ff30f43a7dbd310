import Rakro.Packet.Nack
import Rakro.Roundtrip.Ack

/-!
# Negative acknowledgements on the wire

The writer puts a flag in front of a range only, the reader expects one in front of every record. So
a reader that stops where the writer stopped has read ranges alone, and of their ends the 24-bit
writer has dropped the low bytes.
-/

namespace Rakro

open Infra BinaryBuffer

namespace Nack

open Ack (Record recordBytes)

/-! ## Writing -/

/-- The encoding of a negative acknowledgement. -/
def bytes (self : Nack) : Bytes :=
  PacketId.nack.toUnderlying :: (beBytes 2 (UInt16.ofNat self.count).toNat
    ++ self.records.flatMap recordBytes)

theorem emits_nack (self : Nack) : Emits (write self) self.bytes := by
  refine Emits.write (show 1 ≤ 3 by decide) ?_ ?_
  · show 3 ≤ _
    simp only [bytes, List.length_cons, List.length_append, length_beBytes]
    omega
  · exact (emits_uint8 _).bind ((emits_uint16 _).bind (Emits.forM Ack.emits_record _))

/-! ## Reading -/

/-- What the reader takes for a record, its flag included. -/
def readLength : Record → Nat
  | .multi _ => 7
  | .single _ => 4

/-- The cursor moves on by what the records it returns take. -/
theorem readRecords_eq_ok : ∀ (n : Nat) (b b' : BinaryBuffer) (p r : Bytes) (v : List Record),
    (readRecords n).run (b.between p r) = .ok v b' → b'.index = p.length + (v.map readLength).sum
  | 0, b, b', p, r, v, h => by
    cases h
    simp
  | n + 1, b, b', p, r, v, h => by
    rw [readRecords, readRecord] at h
    obtain ⟨record, b₁, hrecord, h⟩ := bind_eq_ok h
    obtain ⟨records, b₂, hrecords, h⟩ := bind_eq_ok h
    cases h
    obtain ⟨flag, b₃, hflag, hrecord⟩ := bind_eq_ok hrecord
    obtain ⟨bs, r₁, hlen, rfl, rfl, -⟩ := scans_bool.exact (f := fun bs => decide (bs.headD 0 ≠ 0))
      (fun bs hbs => by
        obtain ⟨x, rfl⟩ := List.length_eq_one_iff.mp hbs
        exact consumes_bool x) hflag
    split at hrecord
    · obtain ⟨start, b₄, h₄, hrecord⟩ := bind_eq_ok hrecord
      obtain ⟨bs₄, r₄, hlen₄, rfl, rfl, -⟩ := uint24_exact h₄
      obtain ⟨stop, b₅, h₅, hrecord⟩ := bind_eq_ok hrecord
      obtain ⟨bs₅, r₅, hlen₅, rfl, rfl, -⟩ := uint24_exact h₅
      cases hrecord
      rw [readRecords_eq_ok n _ _ _ _ _ hrecords]
      simp [readLength, hlen, hlen₄, hlen₅]
      omega
    · obtain ⟨value, b₄, h₄, hrecord⟩ := bind_eq_ok hrecord
      obtain ⟨bs₄, r₄, hlen₄, rfl, rfl, -⟩ := uint24_exact h₄
      cases hrecord
      rw [readRecords_eq_ok n _ _ _ _ _ hrecords]
      simp [readLength, hlen, hlen₄]
      omega

/-- A number takes one byte more to read than it was written in. -/
theorem length_flatMap_lt : ∀ records : List Record,
    (records.flatMap recordBytes).length ≤ (records.map readLength).sum ∧
      ∀ value, .single value ∈ records →
        (records.flatMap recordBytes).length < (records.map readLength).sum
  | [] => by simp
  | record :: records => by
    obtain ⟨hle, hlt⟩ := length_flatMap_lt records
    cases record with
    | multi range =>
      simp only [List.flatMap_cons, recordBytes, List.length_append, List.length_cons,
        length_highBytes, List.map_cons, readLength, List.sum_cons, List.mem_cons]
      refine ⟨by omega, ?_⟩
      rintro value (h | h)
      · cases h
      · have := hlt value h
        omega
    | single value =>
      simp only [List.flatMap_cons, recordBytes, List.length_append, length_highBytes,
        List.map_cons, readLength, List.sum_cons]
      exact ⟨by omega, fun _ _ => by omega⟩

/-- What a record reads back as: without the low bytes of its numbers. -/
def shifted : Record → Record
  | .multi range =>
    .multi
      { start := UInt24.ofNat (range.start.toNat / 256)
        stop := UInt24.ofNat (range.stop.toNat / 256) }
  | .single value => .single (UInt24.ofNat (value.toNat / 256))

/-- A range is read where it was written. -/
theorem consumes_range (range : Ack.MultiAck) :
    Consumes readRecord (recordBytes (.multi range)) (shifted (.multi range)) := by
  have hstart := consumes_uint24 (length_highBytes range.start)
  have hstop := consumes_uint24 (length_highBytes range.stop)
  rw [ofLeBytes_highBytes] at hstart hstop
  exact (consumes_bool 1).bind (hstart.bind (hstop.map fun stop =>
    Record.multi { start := UInt24.ofNat (range.start.toNat / 256), stop }))

/-- Ranges are read shifted by a byte. -/
theorem consumes_ranges : ∀ records : List Record, (∀ value, .single value ∉ records) →
    Consumes (readRecords records.length) (records.flatMap recordBytes) (records.map shifted)
  | [], _ => Consumes.pure []
  | .multi range :: records, h =>
    (consumes_range range).bind ((consumes_ranges records fun value hv =>
      h value (List.mem_cons_of_mem _ hv)).map (shifted (.multi range) :: ·))
  | .single value :: _, h => absurd List.mem_cons_self (h value)

/-- The shift shows in every range but that of zeros. -/
theorem shifted_multi_eq_iff (range : Ack.MultiAck) :
    shifted (.multi range) = .multi range ↔ range = { start := {}, stop := {} } := by
  obtain ⟨start, stop⟩ := range
  have hzero : ∀ a : UInt24, a.toNat = 0 ↔ a = {} := fun a => UInt24.toNat_inj (b := {})
  simp only [shifted, Record.multi.injEq, Ack.MultiAck.mk.injEq, ofNat_div_eq_iff, hzero]

theorem map_shifted_eq_iff {records : List Record} (h : ∀ value, .single value ∉ records) :
    records.map shifted = records ↔
      ∀ record ∈ records, record = .multi { start := {}, stop := {} } := by
  have hmap := List.map_inj_left (l := records) (f := shifted) (g := id)
  rw [List.map_id] at hmap
  rw [hmap]
  refine forall₂_congr fun record hrecord => ?_
  cases record with
  | multi range =>
    rw [Record.multi.injEq]
    exact shifted_multi_eq_iff range
  | single value => exact absurd hrecord (h value)

/-! ## The round trip -/

/--
Written at the cursor of `b`, the records come back from behind the id, and the reader stops where
the writer stopped.
-/
def RoundTrips (self : Nack) (b : BinaryBuffer) : Prop :=
  ∃ b' b'' : BinaryBuffer, (write self).run b = .ok ⟨⟩ b' ∧
    (readNext UInt8 >>= fun _ => (BinaryData.read : BufM Nack)).run (b'.goTo b.index)
      = .ok self b'' ∧
    b''.index = b'.index

/-- Behind the id, the reader goes for as many records as the count says. -/
theorem run_readNack {self : Nack} (hcount : self.count ≤ 65535) (b : BinaryBuffer) (p r : Bytes) :
    (readNext UInt8 >>= fun _ => (BinaryData.read : BufM Nack)).run
        (b.between p (self.bytes ++ r)) =
      (readRecords self.count >>= fun records => pure (⟨records⟩ : Nack)).run
        (b.between (p ++ [PacketId.nack.toUnderlying] ++ beBytes 2 self.count)
          (self.records.flatMap recordBytes ++ r)) := by
  have hcast : (UInt16.ofNat self.count).toNat = self.count := by
    rw [UInt16.toNat_ofNat']
    omega
  have hlength := consumes_uint16 (length_beBytes 2 self.count) b
    (p ++ [PacketId.nack.toUnderlying]) (self.records.flatMap recordBytes ++ r)
  rw [ofBeBytes_beBytes (show self.count < 256 ^ 2 by omega)] at hlength
  have hid := consumes_uint8 PacketId.nack.toUnderlying b p
    (beBytes 2 self.count ++ (self.records.flatMap recordBytes ++ r))
  rw [bytes, hcast, List.cons_append, List.append_assoc]
  refine (run_bind_of_ok hid).trans ((run_bind_of_ok hlength).trans ?_)
  rw [hcast]

/-- The cursor behind the encoding. -/
theorem length_append_bytes (self : Nack) (p : Bytes) : (p ++ self.bytes).length =
    (p ++ [PacketId.nack.toUnderlying] ++ beBytes 2 self.count).length
      + (self.records.flatMap recordBytes).length := by
  simp [bytes]
  omega

/-- What comes back has no number in it and nothing that the writer dropped. -/
theorem zeros_of_roundTrips {self : Nack} (hcount : self.count ≤ 65535) {b : BinaryBuffer}
    (room : b.index + self.bytes.length ≤ b.size) (h : self.RoundTrips b) :
    ∀ record ∈ self.records, record = .multi { start := {}, stop := {} } := by
  obtain ⟨r, hrun, hgo⟩ := (emits_nack self).run_room room
  obtain ⟨b', b'', hb', hback, hidx⟩ := h
  rw [hrun] at hb'
  cases hb'
  rw [hgo, run_readNack hcount] at hback
  obtain ⟨records, b₁, hrecords, hself⟩ := bind_eq_ok hback
  cases hself
  have hend := readRecords_eq_ok _ _ _ _ _ _ hrecords
  rw [between_index, length_append_bytes, hend] at hidx
  -- the reader has taken as much as was written, so no number was among the records
  have hranges : ∀ value, Record.single value ∉ records := by
    intro value hvalue
    have hlt := (length_flatMap_lt records).2 value hvalue
    dsimp only at hidx
    omega
  have hall := consumes_ranges records hranges b
    (b.consumedSlice ++ [PacketId.nack.toUnderlying] ++ beBytes 2 records.length) r
  have hsame := hrecords.symm.trans hall
  injection hsame with hsame
  exact (map_shifted_eq_iff hranges).mp hsame.symm

/-- **A `Nack` comes back exactly when all it names are ranges from zero to zero.** -/
theorem roundTrips_iff_zeros {self : Nack} (hcount : self.count ≤ 65535) {b : BinaryBuffer}
    (room : b.index + self.bytes.length ≤ b.size) :
    self.RoundTrips b ↔ ∀ record ∈ self.records, record = .multi { start := {}, stop := {} } := by
  constructor
  · exact zeros_of_roundTrips hcount room
  · intro hzeros
    obtain ⟨r, hrun, hgo⟩ := (emits_nack self).run_room room
    have hranges : ∀ value, Record.single value ∉ self.records := by
      intro value hvalue
      cases hzeros _ hvalue
    have hall := consumes_ranges self.records hranges b
      (b.consumedSlice ++ [PacketId.nack.toUnderlying] ++ beBytes 2 self.count) r
    rw [(map_shifted_eq_iff hranges).mpr hzeros] at hall
    refine ⟨_, b.between (b.consumedSlice ++ [PacketId.nack.toUnderlying] ++ beBytes 2 self.count
      ++ self.records.flatMap recordBytes) r, hrun, ?_, ?_⟩
    · rw [hgo, run_readNack hcount]
      exact run_bind_of_ok hall
    · rw [between_index, between_index, List.length_append, length_append_bytes]

theorem roundTrips_iff_zeros_range :
    RoundTrips ⟨[.multi { start := {}, stop := {} }]⟩ { bytes := List.replicate 10 0 } :=
  (roundTrips_iff_zeros (by decide) (by decide)).mpr (by simp)

/-- A single number, in a buffer with room for it, is not read back. -/
theorem number_not_roundTrips :
    (bytes ⟨[.single ⟨5⟩]⟩).length ≤ 16 ∧
      ¬ RoundTrips ⟨[.single ⟨5⟩]⟩ { bytes := List.replicate 16 0 } := by
  refine ⟨by decide, fun h => ?_⟩
  cases zeros_of_roundTrips (by decide) (by decide) h _ List.mem_cons_self

end Nack

end Rakro
