import Mathlib.Data.Nat.Bitwise

/-!
# `uint24_t`

The 24-bit counter of the protocol, kept in a `uint32_t`. The one-argument constructor and the
plain binary operators do not mask, so `value` may exceed 24 bits. The comparisons mask both sides
and the increments mask their result.
-/

namespace Rakro

/-- `uint24_t`: a number of 24 bits in a word of 32. -/
structure UInt24 where
  value : UInt32 := 0
  deriving DecidableEq, Repr

namespace UInt24

/-- The low 24 bits. -/
def mask : UInt32 := 0x00FFFFFF

/-- `get_value`. -/
def getValue (a : UInt24) : UInt32 := a.value

/-- What the comparison operators look at. -/
def masked (a : UInt24) : UInt32 := a.value &&& mask

/-- `set_value(uint32_t)` and `operator=(uint32_t)`. -/
def setValue (_ : UInt24) (v : UInt32) : UInt24 := ⟨v &&& mask⟩

/-- `set_value(uint24_t)`. -/
def copyValue (_ v : UInt24) : UInt24 := ⟨v.value⟩

/-! ### Operators -/

/-- `operator+`. The result is not masked. -/
def add (a b : UInt24) : UInt24 := ⟨a.value + b.value⟩

/-- `operator-`. -/
def sub (a b : UInt24) : UInt24 := ⟨a.value - b.value⟩

/-- `operator*`. -/
def mul (a b : UInt24) : UInt24 := ⟨a.value * b.value⟩

/-- `operator/`, which is undefined for a divisor of zero. -/
def div (a b : UInt24) : Option UInt24 :=
  if b.value = 0 then none else some ⟨a.value / b.value⟩

/-- `operator%`. -/
def mod (a b : UInt24) : Option UInt24 :=
  if b.value = 0 then none else some ⟨a.value % b.value⟩

/-- `operator&`. -/
def and (a b : UInt24) : UInt24 := ⟨a.value &&& b.value⟩

/-- `operator|`. -/
def or (a b : UInt24) : UInt24 := ⟨a.value ||| b.value⟩

/-- `operator^`. -/
def xor (a b : UInt24) : UInt24 := ⟨a.value ^^^ b.value⟩

/-- `operator~`. -/
def complement (a : UInt24) : UInt24 := ⟨~~~a.value⟩

/-- `operator<<`, of a shift below the 32 bits of the word. -/
def shiftLeft (a : UInt24) (shift : Nat) : UInt24 := ⟨(a.value <<< UInt32.ofNat shift) &&& mask⟩

/-- `operator>>`. -/
def shiftRight (a : UInt24) (shift : Nat) : UInt24 := ⟨a.value >>> UInt32.ofNat shift⟩

/-- `operator+=`. -/
def addAssign (a b : UInt24) : UInt24 := ⟨(a.value + b.value) &&& mask⟩

/-- `operator-=`. -/
def subAssign (a b : UInt24) : UInt24 := ⟨(a.value - b.value) &&& mask⟩

/-- `operator*=`. -/
def mulAssign (a b : UInt24) : UInt24 := ⟨(a.value * b.value) &&& mask⟩

/-- `operator/=`. -/
def divAssign (a b : UInt24) : Option UInt24 :=
  if b.value = 0 then none else some ⟨(a.value / b.value) &&& mask⟩

/-- `operator%=`. -/
def modAssign (a b : UInt24) : Option UInt24 :=
  if b.value = 0 then none else some ⟨(a.value % b.value) &&& mask⟩

/-- `operator&=`. -/
def andAssign (a b : UInt24) : UInt24 := ⟨a.value &&& b.value⟩

/-- `operator|=`. -/
def orAssign (a b : UInt24) : UInt24 := ⟨a.value ||| b.value⟩

/-- `operator^=`. -/
def xorAssign (a b : UInt24) : UInt24 := ⟨a.value ^^^ b.value⟩

/-- `operator<<=`. -/
def shiftLeftAssign (a : UInt24) (shift : Nat) : UInt24 :=
  ⟨(a.value <<< UInt32.ofNat shift) &&& mask⟩

/-- `operator>>=`. -/
def shiftRightAssign (a : UInt24) (shift : Nat) : UInt24 := ⟨a.value >>> UInt32.ofNat shift⟩

/-- `operator++`. -/
def incr (a : UInt24) : UInt24 := ⟨(a.value + 1) &&& mask⟩

/-- `operator--`. -/
def decr (a : UInt24) : UInt24 := ⟨(a.value - 1) &&& mask⟩

/-- `operator++(int)`: the result and the object behind it. -/
def postIncr (a : UInt24) : UInt24 × UInt24 := (a, a.incr)

/-- `operator--(int)`. -/
def postDecr (a : UInt24) : UInt24 × UInt24 := (a, a.decr)

/-- `std::hash`, of whatever `std::hash<uint32_t>` is. -/
def hash (hashUInt32 : UInt32 → UInt64) (a : UInt24) : UInt64 := hashUInt32 a.getValue

/-! ### Comparisons -/

/-- `operator==`. -/
def eqv (a b : UInt24) : Prop := a.masked = b.masked

instance : LT UInt24 := ⟨fun a b => a.masked < b.masked⟩

instance : LE UInt24 := ⟨fun a b => a.masked ≤ b.masked⟩

instance (a b : UInt24) : Decidable (a.eqv b) := inferInstanceAs (Decidable (a.masked = b.masked))

instance (a b : UInt24) : Decidable (a < b) := inferInstanceAs (Decidable (a.masked < b.masked))

instance (a b : UInt24) : Decidable (a ≤ b) := inferInstanceAs (Decidable (a.masked ≤ b.masked))

/-! ## As a number -/

/-- The number that the word holds. -/
def toNat (a : UInt24) : Nat := a.value.toNat

/-- The word of a number, not masked. -/
def ofNat (n : Nat) : UInt24 := ⟨UInt32.ofNat n⟩

/-- No bit above the 24th is set. -/
def Canonical (a : UInt24) : Prop := a.toNat < 2 ^ 24

/-- Two words with the same number are the same. -/
theorem toNat_inj {a b : UInt24} : a.toNat = b.toNat ↔ a = b := by
  constructor
  · intro h
    cases a; cases b
    exact congrArg UInt24.mk (UInt32.toNat_inj.mp h)
  · rintro rfl; rfl

/-- A number of 24 bits is the one its word holds. -/
theorem toNat_ofNat {n : Nat} (h : n < 2 ^ 24) : (ofNat n).toNat = n := by
  unfold toNat ofNat
  rw [UInt32.toNat_ofNat']
  omega

/-- A number of 24 bits makes a canonical word. -/
theorem ofNat_canonical {n : Nat} (h : n < 2 ^ 24) : (ofNat n).Canonical := by
  unfold Canonical
  rw [toNat_ofNat h]; exact h

/-- The mask takes the remainder at `2 ^ 24`. -/
theorem toNat_and_mask (v : UInt32) : (v &&& mask).toNat = v.toNat % 2 ^ 24 := by
  rw [UInt32.toNat_and, show mask.toNat = 2 ^ 24 - 1 by decide, Nat.and_two_pow_sub_one_eq_mod]

theorem toNat_masked (a : UInt24) : a.masked.toNat = a.toNat % 2 ^ 24 := toNat_and_mask a.value

/-- The comparison looks at 24 bits on either side. -/
theorem lt_iff {a b : UInt24} : a < b ↔ a.toNat % 2 ^ 24 < b.toNat % 2 ^ 24 := by
  rw [← toNat_masked, ← toNat_masked]
  exact UInt32.lt_iff_toNat_lt

/-- The comparison looks at 24 bits on either side. -/
theorem le_iff {a b : UInt24} : a ≤ b ↔ a.toNat % 2 ^ 24 ≤ b.toNat % 2 ^ 24 := by
  rw [← toNat_masked, ← toNat_masked]
  exact UInt32.le_iff_toNat_le

/-- Equality looks at 24 bits on either side. -/
theorem eqv_iff {a b : UInt24} : a.eqv b ↔ a.toNat % 2 ^ 24 = b.toNat % 2 ^ 24 := by
  rw [← toNat_masked, ← toNat_masked]
  exact UInt32.toNat_inj.symm

/-- Canonical words compare as their numbers do. -/
theorem lt_iff_of_canonical {a b : UInt24} (ha : a.Canonical) (hb : b.Canonical) :
    a < b ↔ a.toNat < b.toNat := by
  rw [lt_iff, Nat.mod_eq_of_lt ha, Nat.mod_eq_of_lt hb]

/-- The successor wraps at 24 bits. -/
theorem toNat_incr (a : UInt24) : a.incr.toNat = (a.toNat + 1) % 2 ^ 24 := by
  show ((a.value + 1) &&& mask).toNat = _
  rw [toNat_and_mask, UInt32.toNat_add]
  show (a.value.toNat + 1) % 2 ^ 32 % 2 ^ 24 = (a.value.toNat + 1) % 2 ^ 24
  omega

/-- The successor is masked. -/
theorem incr_canonical (a : UInt24) : a.incr.Canonical := by
  unfold Canonical
  rw [toNat_incr]
  exact Nat.mod_lt _ (by decide)

/-- Below the top, the increment is the successor. -/
theorem toNat_incr_of_lt {a : UInt24} (h : a.toNat + 1 < 2 ^ 24) :
    a.incr.toNat = a.toNat + 1 := by
  rw [toNat_incr, Nat.mod_eq_of_lt h]

end UInt24

end Rakro
