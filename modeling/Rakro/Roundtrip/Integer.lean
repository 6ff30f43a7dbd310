import Rakro.Roundtrip.Cursor

/-!
# The integer codecs

An integer of `n` bytes is written most significant byte first. The reader ors shifted bytes
together and swaps the result. Up to four bytes the shifts stay inside the promoted byte and the
value comes back; for eight bytes nothing is said of the value, only of the bytes that are consumed.
-/

namespace Rakro

open Infra

/-- The `n` low bytes of `v`, most significant first. -/
def beBytes (n v : Nat) : Bytes := (leBytes n v).reverse

@[simp] theorem length_beBytes (n v : Nat) : (beBytes n v).length = n := by
  rw [beBytes, List.length_reverse, length_leBytes]

/-- The number whose bytes these are, most significant first. -/
def ofBeBytes (bs : Bytes) : Nat := ofLeBytes bs.reverse

/-- A number comes back from its bytes. -/
theorem ofBeBytes_beBytes {n v : Nat} (h : v < 256 ^ n) : ofBeBytes (beBytes n v) = v := by
  rw [ofBeBytes, beBytes, List.reverse_reverse, ofLeBytes_leBytes, Nat.mod_eq_of_lt h]

/-! ## The loop of the reader -/

/-- The value that `orBytes` has gathered once it has read `bs`. -/
def orAll {w : Nat} : Bytes → Nat → BitVec w → BitVec w
  | [], _, value => value
  | byte :: bs, x, value => orAll bs (x + 1) (value ||| (shiftByte byte (8 * x)).signExtend w)

/-- The loop of the integer reader takes the bytes one after the other. -/
theorem consumes_orBytes {w : Nat} : ∀ (bs : Bytes) (x : Nat) (value : BitVec w),
    Consumes (orBytes bs.length x value) bs (orAll bs x value)
  | [], _, value => Consumes.pure value
  | byte :: bs, x, _ => (consumes_nextByte byte).bind (consumes_orBytes bs (x + 1) _)

theorem scans_orBytes {w : Nat} : ∀ (left x : Nat) (value : BitVec w),
    Scans left (orBytes left x value)
  | 0, _, value => Scans.pure value
  | left + 1, x, _ =>
    (scans_nextByte.bind fun _ => scans_orBytes left (x + 1) _).mono (by omega)

/-- A byte that is shifted by `x` bytes ends within `x + 1` of them. -/
theorem byte_shiftLeft_lt (byte : UInt8) (x : Nat) :
    byte.toNat <<< (8 * x) < 2 ^ (8 * (x + 1)) := by
  rw [Nat.shiftLeft_eq, Nat.mul_succ, Nat.pow_add, Nat.mul_comm]
  exact Nat.mul_lt_mul_of_pos_left byte.toNat_lt (Nat.pow_pos (by decide))

/-- Below 32 bits, a shifted byte keeps its value through the cast. -/
theorem toNat_shiftByte {w x : Nat} (byte : UInt8) (hx : 8 * (x + 1) ≤ w) (hw : w ≤ 32) :
    ((shiftByte byte (8 * x)).signExtend w).toNat = byte.toNat <<< (8 * x) := by
  have hb : byte.toNat < 256 := UInt8.toNat_lt_size byte
  have hlt : byte.toNat * 2 ^ (8 * x) < 2 ^ (8 * (x + 1)) := by
    rw [← Nat.shiftLeft_eq]
    exact byte_shiftLeft_lt byte x
  have hw' : 2 ^ (8 * (x + 1)) ≤ 2 ^ w := Nat.pow_le_pow_right (by decide) hx
  have h32 : 2 ^ w ≤ 2 ^ 32 := Nat.pow_le_pow_right (by decide) hw
  -- the cast only cuts off zeros, as the shifted byte ends below bit `w`
  unfold shiftByte
  rw [if_pos (by omega), BitVec.signExtend_eq_setWidth_of_le _ hw, BitVec.toNat_setWidth,
    BitVec.toNat_shiftLeft, BitVec.toNat_ofNat, Nat.mod_eq_of_lt (a := byte.toNat) (by omega),
    Nat.shiftLeft_eq, Nat.mod_eq_of_lt (by omega), Nat.mod_eq_of_lt (by omega)]

/-- As long as no shift leaves the `int`, the bytes are gathered. -/
theorem toNat_orAll {w : Nat} (hw : w ≤ 32) : ∀ (bs : Bytes) (x : Nat) (value : BitVec w),
    8 * (x + bs.length) ≤ w → (orAll bs x value).toNat = gather bs x value.toNat
  | [], _, _, _ => rfl
  | byte :: bs, x, value, h => by
    rw [List.length_cons] at h
    rw [orAll, toNat_orAll hw bs (x + 1) _ (by omega), gather, BitVec.toNat_or,
      toNat_shiftByte byte (by omega) hw]

/-- Up to four bytes, the loop puts the number together. -/
theorem toNat_orAll_zero {w : Nat} (hw : w ≤ 32) {bs : Bytes} (h : 8 * bs.length ≤ w) :
    (orAll bs 0 (0 : BitVec w)).toNat = ofLeBytes bs := by
  rw [toNat_orAll hw bs 0 0 (by omega), gather_eq bs 0 _ (by simp)]
  simp

/-! ## Reading -/

theorem consumes_readIntegral {n : Nat} {bs : Bytes} (h : bs.length = n) :
    Consumes (readIntegral n) bs (byteswap (orAll bs 0 0)) := by
  subst h
  exact (consumes_orBytes bs 0 0).map byteswap

theorem scans_readIntegral (n : Nat) : Scans n (readIntegral n) :=
  (scans_orBytes n 0 0).bind fun _ => Scans.pure _

/-- Up to four bytes, that is the number that they write. -/
theorem byteswap_orAll {n : Nat} {bs : Bytes} (h : bs.length = n) (hn : n ≤ 4) :
    byteswap (orAll bs 0 (0 : BitVec (8 * n))) = BitVec.ofNat (8 * n) (ofBeBytes bs) := by
  subst h
  unfold byteswap
  rw [toNat_orAll_zero (by omega) (Nat.le_refl _), leBytes_ofLeBytes]
  rfl

/-- Up to four bytes, what has been written is read back. -/
theorem consumes_beBytes {n : Nat} (hn : n ≤ 4) (val : BitVec (8 * n)) :
    Consumes (readIntegral n) (beBytes n val.toNat) val := by
  have hlt : val.toNat < 256 ^ n := by
    rw [← two_pow_eight_mul]
    exact val.isLt
  have h := consumes_readIntegral (length_beBytes n val.toNat)
  rwa [byteswap_orAll (length_beBytes _ _) hn, ofBeBytes_beBytes hlt, BitVec.ofNat_toNat,
    BitVec.setWidth_eq] at h

theorem consumes_read_uint8 (x : UInt8) : Consumes (BinaryData.read : BufM UInt8) [x] x := by
  have h := (consumes_readIntegral (n := 1) (show [x].length = 1 from rfl)).map UInt8.ofBitVec
  rw [byteswap_orAll (n := 1) rfl (by decide)] at h
  have hx : UInt8.ofBitVec (BitVec.ofNat (8 * 1) (ofBeBytes [x])) = x := by
    apply UInt8.toNat_inj.mp
    simp [ofBeBytes, ofLeBytes]
  rwa [hx] at h

theorem consumes_uint8 (x : UInt8) : Consumes (readNext UInt8) [x] x :=
  Consumes.readNext (by simp) (by simp) (consumes_read_uint8 x)

theorem consumes_uint16 {bs : Bytes} (h : bs.length = 2) :
    Consumes (readNext UInt16) bs (UInt16.ofNat (ofBeBytes bs)) := by
  have hc := (consumes_readIntegral h).map UInt16.ofBitVec
  rw [byteswap_orAll h (by decide)] at hc
  exact Consumes.readNext (T := UInt16) (by simp) (by simp [h]) hc

theorem consumes_uint32 {bs : Bytes} (h : bs.length = 4) :
    Consumes (readNext UInt32) bs (UInt32.ofNat (ofBeBytes bs)) := by
  have hc := (consumes_readIntegral h).map UInt32.ofBitVec
  rw [byteswap_orAll h (by decide)] at hc
  exact Consumes.readNext (T := UInt32) (by simp) (by simp [h]) hc

/-- Eight bytes are always enough; the value is what the shifts of the target make of them. -/
theorem consumes_uint64 {bs : Bytes} (h : bs.length = 8) :
    Consumes (readNext UInt64) bs (.ofBitVec (byteswap (n := 8) (orAll bs 0 0))) :=
  Consumes.readNext (T := UInt64) (by simp) (by simp [h])
    ((consumes_readIntegral h).map UInt64.ofBitVec)

theorem consumes_bool (x : UInt8) : Consumes (readNext Bool) [x] (x ≠ 0) :=
  Consumes.readNext (T := Bool) (by simp) (by simp)
    ((consumes_nextByte x).map fun byte => decide (byte ≠ 0))

/-- Three bytes make up a number of twenty-four bits. -/
theorem ofLeBytes_lt_three {bs : Bytes} (h : bs.length = 3) : ofLeBytes bs < 2 ^ 24 := by
  have hlt := ofLeBytes_lt bs
  rwa [h] at hlt

/-- A `uint24_t` is read from three bytes, the low one first. -/
theorem consumes_uint24 {bs : Bytes} (h : bs.length = 3) :
    Consumes (readNext UInt24) bs (UInt24.ofNat (ofLeBytes bs)) := by
  have hc := (consumes_orBytes bs 0 (0 : BitVec 32)).map fun v => (⟨.ofBitVec v⟩ : UInt24)
  rw [h] at hc
  have hv : (⟨.ofBitVec (orAll bs 0 (0 : BitVec 32))⟩ : UInt24) = UInt24.ofNat (ofLeBytes bs) := by
    have hlt := ofLeBytes_lt_three h
    apply UInt24.toNat_inj.mp
    rw [UInt24.toNat_ofNat (by omega)]
    exact toNat_orAll_zero (by simp) (by simp [h])
  rw [hv] at hc
  exact Consumes.readNext (T := UInt24) (by simp) (by simp [h]) hc

theorem scans_uint8 : Scans 1 (readNext UInt8) :=
  Scans.checked (by simp) (by simp) ((scans_readIntegral 1).bind fun _ => Scans.pure _)

theorem scans_uint16 : Scans 2 (readNext UInt16) :=
  Scans.checked (by simp) (by simp) ((scans_readIntegral 2).bind fun _ => Scans.pure _)

theorem scans_uint32 : Scans 4 (readNext UInt32) :=
  Scans.checked (by simp) (by simp) ((scans_readIntegral 4).bind fun _ => Scans.pure _)

theorem scans_uint64 : Scans 8 (readNext UInt64) :=
  Scans.checked (by simp) (by simp) ((scans_readIntegral 8).bind fun _ => Scans.pure _)

theorem scans_bool : Scans 1 (readNext Bool) :=
  Scans.checked (by simp) (by simp) (scans_nextByte.bind fun _ => Scans.pure _)

theorem scans_uint24 : Scans 3 (readNext UInt24) :=
  Scans.checked (by simp) (by simp) ((scans_orBytes 3 0 _).bind fun _ => Scans.pure _)

/-- Three bytes are read, the low one first. -/
theorem uint24_exact {b b' : BinaryBuffer} {p r : Bytes} {v : UInt24}
    (h : (readNext UInt24).run (b.between p r) = .ok v b') :
    ∃ bs r' : Bytes, bs.length = 3 ∧ r = bs ++ r' ∧ b' = b.between (p ++ bs) r' ∧
      v = UInt24.ofNat (ofLeBytes bs) :=
  scans_uint24.exact (fun _ => consumes_uint24) h

/-- A loop that ors bytes into a number below `2 ^ (8 * x)` adds the bits of the bytes. -/
theorem yields_orBytes : ∀ (left x : Nat) (value : BitVec 32), 8 * (x + left) ≤ 32 →
    value.toNat < 2 ^ (8 * x) →
    Yields (fun _ => True) (orBytes left x value) fun v _ => v.toNat < 2 ^ (8 * (x + left))
  | 0, _, _, _, hvalue => Yields.pure fun _ _ => hvalue
  | left + 1, x, value, hle, hvalue => by
    have hle' : 8 * (x + 1 + left) ≤ 32 := by omega
    have hmono : 2 ^ (8 * x) ≤ 2 ^ (8 * (x + 1)) := Nat.pow_le_pow_right (by decide) (by omega)
    refine Yields.bind (Q := fun _ _ => True) (fun _ _ _ _ _ => trivial) fun byte => ?_
    have hor : (value ||| (shiftByte byte (8 * x)).signExtend 32).toNat < 2 ^ (8 * (x + 1)) := by
      rw [BitVec.toNat_or, toNat_shiftByte byte (by omega) (Nat.le_refl _)]
      exact Nat.or_lt_two_pow (Nat.lt_of_lt_of_le hvalue hmono) (byte_shiftLeft_lt byte x)
    rw [show x + (left + 1) = x + 1 + left by omega]
    exact yields_orBytes left (x + 1) _ hle' hor

/-- Wherever the cursor is, a number that is read has 24 bits. -/
theorem yields_uint24 : Yields (fun _ => True) (readNext UInt24) fun v _ => v.Canonical := by
  refine Yields.bind (Q := fun _ _ => True) (fun _ _ _ _ _ => trivial) fun _ => ?_
  refine Yields.bind (yields_orBytes 3 0 0 (by decide) (by decide)) fun v => ?_
  exact Yields.pure fun _ hv => hv

/-! ## Writing -/

/-- Swapped, the low byte comes last. -/
theorem leBytes_byteswap {n : Nat} (val : BitVec (8 * n)) :
    leBytes n (byteswap val).toNat = beBytes n val.toNat := by
  have hlt := ofLeBytes_lt (beBytes n val.toNat)
  rw [length_beBytes] at hlt
  have hpow : 2 ^ (8 * n) = 256 ^ n := two_pow_eight_mul n
  unfold byteswap
  rw [BitVec.toNat_ofNat, hpow, ← beBytes, Nat.mod_eq_of_lt hlt]
  have := leBytes_ofLeBytes (beBytes n val.toNat)
  rwa [length_beBytes] at this

/-- An integer is written with its high byte first. -/
theorem emits_writeIntegral (n : Nat) (val : BitVec (8 * n)) :
    Emits (writeIntegral n val) (beBytes n val.toNat) := by
  unfold writeIntegral
  rw [leBytes_byteswap]
  exact emits_forM _

theorem emits_uint8 (val : UInt8) : Emits (write val) [val] := by
  have h := Emits.write (T := UInt8) (v := val) (by simp) (by simp)
    (emits_writeIntegral 1 val.toBitVec)
  have hx : beBytes 1 val.toBitVec.toNat = [val] := by
    simp [beBytes, leBytes]
  rwa [hx] at h

theorem emits_uint16 (val : UInt16) : Emits (write val) (beBytes 2 val.toNat) :=
  Emits.write (T := UInt16) (by simp) (by simp)
    (emits_writeIntegral 2 val.toBitVec)

theorem emits_uint32 (val : UInt32) : Emits (write val) (beBytes 4 val.toNat) :=
  Emits.write (T := UInt32) (by simp) (by simp)
    (emits_writeIntegral 4 val.toBitVec)

theorem emits_uint64 (val : UInt64) : Emits (write val) (beBytes 8 val.toNat) :=
  Emits.write (T := UInt64) (by simp) (by simp)
    (emits_writeIntegral 8 val.toBitVec)

theorem emits_bool (val : Bool) : Emits (write val) [if val then 1 else 0] :=
  Emits.write (T := Bool) (by simp) (by simp) (emits_writeByte _)

/-- What the 24-bit writer puts down: bytes 1 to 3, so the low byte is lost. -/
def highBytes (val : UInt24) : Bytes := (leBytes 4 val.toNat).drop 1

@[simp] theorem length_highBytes (val : UInt24) : (highBytes val).length = 3 := by
  rw [highBytes, List.length_drop, length_leBytes]

/-- The low byte is left out. -/
theorem highBytes_eq (val : UInt24) : highBytes val = leBytes 3 (val.toNat / 256) := rfl

/-- A `uint24_t` is written without its low byte. -/
theorem emits_uint24 (val : UInt24) : Emits (write val) (highBytes val) :=
  Emits.write (T := UInt24) (by simp) (by simp) (emits_forM _)

/-- Reading what the 24-bit writer wrote gives the number without its low byte. -/
theorem ofLeBytes_highBytes (val : UInt24) : ofLeBytes (highBytes val) = val.toNat / 256 := by
  have hlt : val.toNat < 2 ^ 32 := UInt32.toNat_lt val.value
  rw [highBytes_eq, ofLeBytes_leBytes, Nat.mod_eq_of_lt (by omega)]

/-- Only zero survives the 24-bit codec. -/
theorem ofNat_div_eq_iff (val : UInt24) :
    UInt24.ofNat (val.toNat / 256) = val ↔ val.toNat = 0 := by
  have hlt : val.toNat < 2 ^ 32 := UInt32.toNat_lt val.value
  rw [← UInt24.toNat_inj, UInt24.toNat_ofNat (by omega)]
  omega

end Rakro
