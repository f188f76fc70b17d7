import Mathlib.Tactic

/-!
# Fixed-width big-endian numbers

`toBytes width n` writes `n` on `width` bytes, most significant first, and
`ofBytes` reads such bytes back.  The two are inverse to each other between
the numbers below `256 ^ width` and the byte strings of that length.
-/

set_option autoImplicit false

namespace Middfs.BigEndian

def toBytes : Nat → Nat → List UInt8
  | 0, _ => []
  | width + 1, n => UInt8.ofNat (n / 256 ^ width) :: toBytes width n

def ofBytes : List UInt8 → Nat
  | [] => 0
  | b :: bs => b.toNat * 256 ^ bs.length + ofBytes bs

@[simp] theorem toBytes_length (width n : Nat) : (toBytes width n).length = width := by
  induction width with
  | zero => rfl
  | succ width ih => simp [toBytes, ih]

theorem ofBytes_lt (bs : List UInt8) : ofBytes bs < 256 ^ bs.length := by
  induction bs with
  | nil => simp [ofBytes]
  | cons b bs ih =>
      have byte : b.toNat + 1 ≤ 256 := b.toNat_lt
      have scaled := Nat.mul_le_mul_right (256 ^ bs.length) byte
      simp only [ofBytes, List.length_cons, pow_succ]
      rw [Nat.add_mul] at scaled
      omega

theorem ofBytes_toBytes (width n : Nat) : ofBytes (toBytes width n) = n % 256 ^ width := by
  induction width with
  | zero => simp [toBytes, ofBytes, Nat.mod_one]
  | succ width ih =>
      simp only [toBytes, ofBytes, toBytes_length, ih, UInt8.toNat_ofNat']
      rw [show (2 : Nat) ^ 8 = 256 from rfl, pow_succ, Nat.mod_mul, Nat.mul_comm]
      omega

theorem toBytes_mod (width n k : Nat) : toBytes width (n + 256 ^ width * k) = toBytes width n := by
  induction width generalizing k with
  | zero => rfl
  | succ width ih =>
      have positive : 0 < 256 ^ width := Nat.pow_pos (by decide)
      have regroup : 256 ^ (width + 1) * k = 256 ^ width * (256 * k) := by
        rw [pow_succ, Nat.mul_assoc]
      simp only [toBytes]
      rw [regroup, ih, Nat.add_mul_div_left _ _ positive]
      congr 1
      rw [← UInt8.toNat_inj]
      simp only [UInt8.toNat_ofNat']
      omega

theorem toBytes_ofBytes (bs : List UInt8) : toBytes bs.length (ofBytes bs) = bs := by
  induction bs with
  | nil => rfl
  | cons b bs ih =>
      have below := ofBytes_lt bs
      have positive : 0 < 256 ^ bs.length := Nat.pow_pos (by decide)
      simp only [ofBytes, List.length_cons, toBytes]
      rw [Nat.add_comm, Nat.mul_comm, toBytes_mod, ih, Nat.add_mul_div_left _ _ positive,
        Nat.div_eq_of_lt below]
      simp

theorem ofBytes_toBytes_of_lt {width n : Nat} (fits : n < 256 ^ width) :
    ofBytes (toBytes width n) = n := by
  rw [ofBytes_toBytes, Nat.mod_eq_of_lt fits]

end Middfs.BigEndian
