import Mathlib.Algebra.Ring.Int.Defs
import Mathlib.Algebra.Ring.Nat

/-!
# Signed words of few bits

A number of the `k` low bits of a word is neither negative nor `2 ^ k` or more. Masks,
shifts and disjunctions of such numbers are such numbers.
-/

namespace SmallWords

/-- Only the `k` low bits may be set. -/
def Fits (k : Nat) (v : Int32) : Prop := v.toBitVec.toNat < 2 ^ k

instance (k : Nat) (v : Int32) : Decidable (Fits k v) := inferInstanceAs (Decidable (_ < _))

variable {k n : Nat} {v w : Int32}

theorem Fits.mono (h : Fits k v) (hk : k ≤ n) : Fits n v :=
  Nat.lt_of_lt_of_le h (Nat.pow_le_pow_right (by decide) hk)

theorem Fits.or (hv : Fits k v) (hw : Fits k w) : Fits k (v ||| w) := by
  rw [Fits, Int32.toBitVec_or, BitVec.toNat_or]
  exact Nat.or_lt_two_pow hv hw

/-- A mask leaves no more bits than it has. -/
theorem fits_and (v : Int32) (hw : Fits k w) : Fits k (v &&& w) := by
  rw [Fits, Int32.toBitVec_and, BitVec.toNat_and]
  exact Nat.lt_of_le_of_lt Nat.and_le_right hw

theorem Fits.and (hv : Fits k v) (w : Int32) : Fits k (v &&& w) := by
  rw [Fits, Int32.toBitVec_and, BitVec.toNat_and]
  exact Nat.lt_of_le_of_lt Nat.and_le_left hv

theorem Fits.shiftLeft (hv : Fits k v) {s : Int32} (hs : s.toBitVec.smod 32 = BitVec.ofNat 32 n)
    (hn : n < 32) : Fits (k + n) (v <<< s) := by
  have hbits : (BitVec.ofNat 32 n).toNat = n := by
    rw [BitVec.toNat_ofNat]
    omega
  rw [Fits, Int32.toBitVec_shiftLeft, hs, BitVec.shiftLeft_eq', BitVec.toNat_shiftLeft, hbits,
    Nat.shiftLeft_eq, Nat.pow_add]
  apply Nat.lt_of_le_of_lt (Nat.mod_le _ _)
  exact Nat.mul_lt_mul_of_pos_right hv (Nat.two_pow_pos n)

/-- A number that is not negative is shifted to the right without a sign. -/
theorem Fits.shiftRight (hv : Fits k v) (hk : k ≤ 31) (s : Int32) : Fits k (v >>> s) := by
  have hsign : v.toBitVec.msb = false := by
    apply BitVec.msb_eq_false_iff_two_mul_lt.mpr
    have hlt : v.toBitVec.toNat < 2 ^ 31 := hv.mono hk
    omega
  rw [Fits, Int32.toBitVec_shiftRight, BitVec.toNat_sshiftRight'_of_msb_false hsign,
    Nat.shiftRight_eq_div_pow]
  exact Nat.lt_of_le_of_lt (Nat.div_le_self _ _) hv

theorem Fits.add (hv : Fits k v) (hw : Fits k w) : Fits (k + 1) (v + w) := by
  rw [Fits, Int32.toBitVec_add, BitVec.toNat_add, Nat.pow_succ]
  have hle := Nat.mod_le (v.toBitVec.toNat + w.toBitVec.toNat) (2 ^ 32)
  rw [Fits] at hv hw
  omega

theorem Fits.toInt_eq (hv : Fits k v) (hk : k ≤ 31) : v.toInt = v.toBitVec.toNat := by
  have hlt : v.toBitVec.toNat < 2 ^ 31 := hv.mono hk
  apply BitVec.toInt_eq_toNat_of_lt
  omega

/-- The number is neither negative nor larger than its bits allow. -/
theorem Fits.bounds (hv : Fits k v) (hk : k ≤ 31) : 0 ≤ v.toInt ∧ v.toInt < 2 ^ k := by
  have hlt : v.toBitVec.toNat < 2 ^ k := hv
  rw [hv.toInt_eq hk]
  exact ⟨Int.natCast_nonneg _, by exact_mod_cast hlt⟩

theorem Fits.ne_neg_one (hv : Fits k v) (hk : k ≤ 31) : v ≠ -1 := by
  rintro rfl
  have hlt : (-1 : Int32).toBitVec.toNat < 2 ^ 31 := hv.mono hk
  exact absurd hlt (by decide)

/-- A byte without its high bit. -/
theorem fits_lowByte {b : UInt8} (h : b &&& 0x80 = 0) : Fits 7 b.toUInt32.toInt32 := by
  have hbit : b.toNat &&& 128 = 0 := congrArg UInt8.toNat h
  have hlt := b.toNat_lt
  rw [Fits, UInt32.toBitVec_toInt32, UInt32.toNat_toBitVec, UInt8.toNat_toUInt32]
  by_contra hhigh
  have htest : b.toNat.testBit 7 = true := by
    rw [Nat.testBit_eq_decide_div_mod_eq, decide_eq_true_eq]
    omega
  have hand : (b.toNat &&& 128).testBit 7 = true := by
    rw [Nat.testBit_and, htest]
    decide
  rw [hbit] at hand
  exact absurd hand (by decide)

section Parts

theorem toNat_or (v w : Int32) :
    (v ||| w).toBitVec.toNat = v.toBitVec.toNat ||| w.toBitVec.toNat := by
  rw [Int32.toBitVec_or, BitVec.toNat_or]

/-- A multiple of a power of two and a number below that have no bit in common. -/
theorem or_eq_add {high low : Nat} (hhigh : 2 ^ k ∣ high) (hlow : low < 2 ^ k) :
    high ||| low = high + low := by
  obtain ⟨a, rfl⟩ := hhigh
  exact (Nat.two_pow_add_eq_or_of_lt hlow a).symm

/-- Three parts of a number, the highest first. -/
theorem or_or_eq_add {high middle low : Nat} (hhigh : 2 ^ k ∣ high) (hmiddle : 2 ^ n ∣ middle)
    (hlow : low < 2 ^ n) (hfit : middle + low < 2 ^ k) :
    high ||| middle ||| low = high + middle + low := by
  rw [Nat.or_assoc, or_eq_add hmiddle hlow, or_eq_add hhigh hfit, Nat.add_assoc]

/-- The same parts, the lowest first. -/
theorem or_or_eq_add' {high middle low : Nat} (hhigh : 2 ^ k ∣ high) (hmiddle : 2 ^ n ∣ middle)
    (hlow : low < 2 ^ n) (hfit : middle + low < 2 ^ k) :
    low ||| middle ||| high = high + middle + low := by
  rw [Nat.or_comm low, Nat.or_comm _ high, ← Nat.or_assoc,
    or_or_eq_add hhigh hmiddle hlow hfit]

theorem eq_ofNat {v : Int32} {a : Nat} (h : v.toBitVec.toNat = a) : v = Int32.ofNat a := by
  apply Int32.toBitVec_inj.mp
  apply BitVec.eq_of_toNat_eq
  rw [h, Int32.toBitVec_ofNat', BitVec.toNat_ofNat, Nat.mod_eq_of_lt]
  exact h ▸ v.toBitVec.isLt

/-- What holds of the 256 bytes, one by one. -/
theorem forall_byte {P : UInt8 → Prop} (h : ∀ a < 256, P (UInt8.ofNat a)) (b : UInt8) : P b := by
  have hbyte := h b.toNat b.toNat_lt
  rwa [UInt8.ofNat_toNat] at hbyte

end Parts

end SmallWords
