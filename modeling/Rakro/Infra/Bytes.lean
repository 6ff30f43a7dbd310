import Mathlib.Data.Nat.Bitwise
import Mathlib.Tactic.Ring

/-!
# Bytes of a number

A number as a fixed count of bytes, least significant first, and back. The big-endian form is the
reversed list, so one induction serves both byte orders.

`gather` is the usual way a decoder puts the bytes together again: shift each one to its place and
or it in. It is the sum because the places do not overlap.
-/

namespace Infra

/-- The bytes of a datagram, a buffer or a part of one. -/
abbrev Bytes := List UInt8

/-! ## The two directions -/

/-- The `n` low bytes of `v`, least significant first. -/
def leBytes : Nat → Nat → Bytes
  | 0, _ => []
  | n + 1, v => UInt8.ofNat v :: leBytes n (v / 256)

/-- The number whose bytes these are, least significant first. -/
def ofLeBytes : Bytes → Nat
  | [] => 0
  | b :: bs => b.toNat + 256 * ofLeBytes bs

@[simp] theorem length_leBytes : ∀ n v, (leBytes n v).length = n
  | 0, _ => rfl
  | n + 1, v => by rw [leBytes, List.length_cons, length_leBytes n]

/-- `n` bytes make a number below `256 ^ n`. -/
theorem ofLeBytes_lt : ∀ bs : Bytes, ofLeBytes bs < 256 ^ bs.length
  | [] => by simp [ofLeBytes]
  | b :: bs => by
    have hb : b.toNat < 256 := UInt8.toNat_lt_size b
    have ih := ofLeBytes_lt bs
    rw [ofLeBytes, List.length_cons, Nat.pow_succ]
    omega

/-- Writing a number and reading it back leaves what fits in `n` bytes. -/
theorem ofLeBytes_leBytes : ∀ n v, ofLeBytes (leBytes n v) = v % 256 ^ n
  | 0, v => by simp [leBytes, ofLeBytes, Nat.mod_one]
  | n + 1, v => by
    have hb : (UInt8.ofNat v).toNat = v % 256 := UInt8.toNat_ofNat'
    rw [leBytes, ofLeBytes, ofLeBytes_leBytes n, hb, Nat.pow_succ', Nat.mod_mul]

/-- Reading bytes and writing the number gives the bytes back. -/
theorem leBytes_ofLeBytes : ∀ bs : Bytes, leBytes bs.length (ofLeBytes bs) = bs
  | [] => rfl
  | b :: bs => by
    have hb : b.toNat < 256 := UInt8.toNat_lt_size b
    rw [List.length_cons, leBytes, ofLeBytes,
      show (b.toNat + 256 * ofLeBytes bs) / 256 = ofLeBytes bs by omega, leBytes_ofLeBytes bs]
    congr 1
    apply UInt8.toNat_inj.mp
    rw [UInt8.toNat_ofNat']
    omega

/-! ## Putting the bytes together by shifts -/

/-- Or in the bytes one after the other, the next of them `x` bytes up. -/
def gather : Bytes → Nat → Nat → Nat
  | [], _, acc => acc
  | b :: bs, x, acc => gather bs (x + 1) (acc ||| b.toNat <<< (8 * x))

/-- An or into places that are still empty is a sum. -/
theorem or_shiftLeft_eq_add {acc b i : Nat} (h : acc < 2 ^ i) :
    acc ||| b <<< i = acc + b * 2 ^ i := by
  rw [Nat.or_comm, ← Nat.shiftLeft_add_eq_or_of_lt h, Nat.shiftLeft_eq, Nat.add_comm]

/-- Eight bits are a byte. -/
theorem two_pow_eight_mul (x : Nat) : 2 ^ (8 * x) = 256 ^ x := by
  rw [Nat.pow_mul]

/-- Gathering from byte `x` on adds the number of the bytes, shifted into its place. -/
theorem gather_eq : ∀ (bs : Bytes) (x acc : Nat), acc < 2 ^ (8 * x) →
    gather bs x acc = acc + 2 ^ (8 * x) * ofLeBytes bs
  | [], x, acc, _ => by simp [gather, ofLeBytes]
  | b :: bs, x, acc, h => by
    have hb : b.toNat < 256 := UInt8.toNat_lt_size b
    have hx : 2 ^ (8 * (x + 1)) = 2 ^ (8 * x) * 256 := by
      rw [two_pow_eight_mul, two_pow_eight_mul, Nat.pow_succ]
    have hacc : acc + b.toNat * 2 ^ (8 * x) < 2 ^ (8 * (x + 1)) := by
      rw [hx]
      have : b.toNat * 2 ^ (8 * x) ≤ 255 * 2 ^ (8 * x) := Nat.mul_le_mul_right _ (by omega)
      omega
    rw [gather, or_shiftLeft_eq_add h, gather_eq bs (x + 1) _ hacc, hx, ofLeBytes]
    ring

end Infra
