import Mathlib.Data.Nat.Basic
import Mathlib.Tactic.Ring

/-!
Fixed-width big-endian byte codec.

`toBE n v` writes the `n` low-order base-256 digits of `v`, most significant
first; `ofBE` reads a byte string back. The two are inverse in both directions:
`ofBE_toBE` up to the width, `toBE_ofBE` exactly, so a fixed-width field has one
encoding and every byte string of that width is one.
-/

namespace BlazeBee.Lib.Bytes

/-- The `n` low-order bytes of `v`, most significant first. -/
def toBE : Nat → Nat → List UInt8
  | 0, _ => []
  | n + 1, v => UInt8.ofNat (v / 256 ^ n) :: toBE n v

/-- The number a byte string spells, most significant byte first. -/
def ofBE : List UInt8 → Nat
  | [] => 0
  | b :: bs => b.toNat * 256 ^ bs.length + ofBE bs

@[simp] theorem length_toBE (n v : Nat) : (toBE n v).length = n := by
  induction n with
  | zero => rfl
  | succ n ih => simp [toBE, ih]

/-- Reading back what was written loses only the digits beyond the width. -/
theorem ofBE_toBE (n v : Nat) : ofBE (toBE n v) = v % 256 ^ n := by
  induction n with
  | zero => simp [toBE, ofBE, Nat.mod_one]
  | succ n ih =>
      have byte : (UInt8.ofNat (v / 256 ^ n)).toNat = v / 256 ^ n % 256 := by simp
      rw [toBE, ofBE, ih, length_toBE, byte, Nat.mod_pow_succ, Nat.mul_comm, Nat.add_comm]

/-- The number is below 256 to the power of how many bytes it is read from. -/
theorem ofBE_lt (bs : List UInt8) : ofBE bs < 256 ^ bs.length := by
  induction bs with
  | nil => simp [ofBE]
  | cons b bs ih =>
      have top : b.toNat + 1 ≤ 256 := b.toNat_lt
      calc ofBE (b :: bs) < (b.toNat + 1) * 256 ^ bs.length := by rw [ofBE, Nat.add_one_mul]; omega
        _ ≤ 256 * 256 ^ bs.length := Nat.mul_le_mul_right _ top
        _ = 256 ^ (b :: bs).length := by rw [List.length_cons, pow_succ]; ring

/-- Digits above the width are not written. -/
theorem toBE_add_mul (n k v : Nat) : toBE n (k * 256 ^ n + v) = toBE n v := by
  induction n generalizing k with
  | zero => rfl
  | succ n ih =>
      have shift : k * 256 ^ (n + 1) + v = k * 256 * 256 ^ n + v := by ring
      have head : (k * 256 * 256 ^ n + v) / 256 ^ n = k * 256 + v / 256 ^ n := by
        rw [Nat.add_comm, Nat.add_mul_div_right _ _ (Nat.pow_pos (by decide)), Nat.add_comm]
      have byte : UInt8.ofNat (k * 256 + v / 256 ^ n) = UInt8.ofNat (v / 256 ^ n) := by
        apply UInt8.toNat_inj.mp
        simp
      rw [shift, toBE, toBE, head, byte, ih]

/-- Every byte string is the encoding of the number it spells. -/
theorem toBE_ofBE (bs : List UInt8) : toBE bs.length (ofBE bs) = bs := by
  induction bs with
  | nil => rfl
  | cons b bs ih =>
      have head : (b.toNat * 256 ^ bs.length + ofBE bs) / 256 ^ bs.length = b.toNat := by
        rw [Nat.add_comm, Nat.add_mul_div_right _ _ (Nat.pow_pos (by decide)),
          Nat.div_eq_of_lt (ofBE_lt bs), Nat.zero_add]
      rw [List.length_cons, toBE, ofBE, head, toBE_add_mul, ih, UInt8.ofNat_toNat]

end BlazeBee.Lib.Bytes
