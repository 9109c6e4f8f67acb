import AndroidX86Tv.Lib.Memory
import AndroidX86Tv.Lib.OnesComplement

/-!
# Checksums (common/socket.cpp)

`addChecksum` reads its buffer as words of the host, which is little-endian, and
folds the carries back at the end of each buffer.
-/

namespace AndroidX86Tv.Dhcp

open ByteMemory OnesComplement

/-- The loop of `addChecksum` and the odd byte after it. -/
def addWords : List UInt8 → UInt32 → UInt32
  | [], checksum => checksum
  | [a], checksum => checksum + a.toUInt32
  | a :: b :: buffer, checksum => addWords buffer (checksum + UInt32.ofNat (hostWord a b))

theorem low_toNat (checksum : UInt32) :
    (checksum &&& (0xFFFF : UInt32)).toNat = checksum.toNat % 65536 := by
  rw [UInt32.toNat_and]
  exact Nat.and_two_pow_sub_one_eq_mod checksum.toNat 16

theorem high_toNat (checksum : UInt32) : (checksum >>> 16).toNat = checksum.toNat / 65536 := by
  rw [UInt32.toNat_shiftRight]
  exact Nat.shiftRight_eq_div_pow checksum.toNat 16

theorem high_eq_zero_iff (checksum : UInt32) : checksum >>> 16 = 0 ↔ checksum.toNat < 65536 := by
  rw [← UInt32.toNat_inj, high_toNat, UInt32.toNat_zero]
  omega

/-- The two halves added do not leave the word. -/
theorem fold_toNat (checksum : UInt32) :
    ((checksum &&& (0xFFFF : UInt32)) + (checksum >>> 16)).toNat =
      checksum.toNat % 65536 + checksum.toNat / 65536 := by
  have hlt := checksum.toNat_lt
  rw [UInt32.toNat_add, low_toNat, high_toNat, Nat.mod_eq_of_lt]
  omega

theorem foldCarries_decreases {checksum : UInt32} (h : checksum >>> 16 ≠ 0) :
    ((checksum &&& (0xFFFF : UInt32)) + (checksum >>> 16)).toNat < checksum.toNat := by
  rw [Ne, high_eq_zero_iff] at h
  rw [fold_toNat]
  omega

/-- The loop that adds the most significant half to the other one. -/
def foldCarries (checksum : UInt32) : UInt32 :=
  if checksum >>> 16 ≠ 0 then foldCarries ((checksum &&& (0xFFFF : UInt32)) + (checksum >>> 16))
  else checksum
termination_by checksum.toNat
decreasing_by exact foldCarries_decreases ‹_›

def addChecksum (buffer : List UInt8) (checksum : UInt32) : UInt32 :=
  foldCarries (addWords buffer checksum)

def finishChecksum (checksum : UInt32) : UInt32 := ~~~checksum &&& (0xFFFF : UInt32)

theorem addWord_toNat {a b : UInt8} {checksum : UInt32}
    (h : checksum.toNat + hostWord a b < 2 ^ 32) :
    (checksum + UInt32.ofNat (hostWord a b)).toNat = checksum.toNat + hostWord a b := by
  rw [UInt32.toNat_add, UInt32.toNat_ofNat', Nat.add_mod_mod, Nat.mod_eq_of_lt h]

/-- Without an overflow `addWords` adds the words of the host. -/
theorem addWords_toNat {buffer : List UInt8} {checksum : UInt32}
    (h : checksum.toNat + (words hostWord buffer).sum < 2 ^ 32) :
    (addWords buffer checksum).toNat = checksum.toNat + (words hostWord buffer).sum := by
  fun_induction addWords buffer checksum with
  | case1 checksum => rfl
  | case2 a checksum =>
      rw [words, List.sum_singleton, hostWord, UInt8.toNat_zero] at h ⊢
      rw [UInt32.toNat_add, UInt8.toNat_toUInt32, Nat.mod_eq_of_lt]
      · omega
      · omega
  | case3 a b buffer checksum ih =>
      rw [words, List.sum_cons] at h ⊢
      have hword := addWord_toNat (show checksum.toNat + hostWord a b < 2 ^ 32 by omega)
      rw [ih (by omega), hword, Nat.add_assoc]

/-- Folding ends in the lower half with the same residue. -/
theorem foldCarries_toNat (checksum : UInt32) :
    (foldCarries checksum).toNat < 65536 ∧
      (foldCarries checksum).toNat % 65535 = checksum.toNat % 65535 := by
  fun_induction foldCarries checksum with
  | case1 checksum hhigh ih =>
      rw [fold_toNat] at ih
      exact ⟨ih.1, by omega⟩
  | case2 checksum hhigh => exact ⟨(high_eq_zero_iff checksum).mp (not_not.mp hhigh), rfl⟩

/-- What `addChecksum` makes of a buffer that is not too long. -/
theorem addChecksum_toNat {buffer : List UInt8} {checksum : UInt32}
    (hlength : buffer.length ≤ 65535) (hchecksum : checksum.toNat < 65536) :
    (addChecksum buffer checksum).toNat < 65536 ∧
      (addChecksum buffer checksum).toNat % 65535 =
        (checksum.toNat + (words hostWord buffer).sum) % 65535 := by
  have hsum := words_sum_le hostWord_lt buffer
  have hroom : checksum.toNat + (words hostWord buffer).sum < 2 ^ 32 := by omega
  rw [← addWords_toNat hroom]
  exact foldCarries_toNat (addWords buffer checksum)

/-- `addChecksum` on one buffer after the other. -/
def addChecksums (buffers : List (List UInt8)) (checksum : UInt32) : UInt32 :=
  buffers.foldl (fun checksum buffer => addChecksum buffer checksum) checksum

theorem addChecksums_toNat {buffers : List (List UInt8)} {checksum : UInt32}
    (hlength : ∀ buffer ∈ buffers, buffer.length ≤ 65535) (hchecksum : checksum.toNat < 65536) :
    (addChecksums buffers checksum).toNat < 65536 ∧
      (addChecksums buffers checksum).toNat % 65535 =
        (checksum.toNat + (buffers.map fun buffer => (words hostWord buffer).sum).sum) % 65535 := by
  induction buffers generalizing checksum with
  | nil => exact ⟨hchecksum, rfl⟩
  | cons buffer buffers ih =>
      obtain ⟨hfirst, hrest⟩ := List.forall_mem_cons.mp hlength
      obtain ⟨hlt, hmod⟩ := addChecksum_toNat hfirst hchecksum
      obtain ⟨hltAll, hmodAll⟩ := ih hrest hlt
      refine ⟨hltAll, hmodAll.trans ?_⟩
      rw [List.map_cons, List.sum_cons]
      omega

theorem foldCarries_eq_zero_iff (checksum : UInt32) :
    (foldCarries checksum).toNat = 0 ↔ checksum.toNat = 0 := by
  fun_induction foldCarries checksum with
  | case1 checksum hhigh ih =>
      rw [ih, fold_toNat]
      omega
  | case2 checksum hhigh => exact Iff.rfl

/-- Nothing that is not zero adds up to zero. -/
theorem addChecksums_eq_zero_iff {buffers : List (List UInt8)} {checksum : UInt32}
    (hlength : ∀ buffer ∈ buffers, buffer.length ≤ 65535) (hchecksum : checksum.toNat < 65536) :
    (addChecksums buffers checksum).toNat = 0 ↔
      checksum.toNat + (buffers.map fun buffer => (words hostWord buffer).sum).sum = 0 := by
  induction buffers generalizing checksum with
  | nil => exact Iff.rfl
  | cons buffer buffers ih =>
      obtain ⟨hfirst, hrest⟩ := List.forall_mem_cons.mp hlength
      have hsum := words_sum_le hostWord_lt buffer
      have hroom : checksum.toNat + (words hostWord buffer).sum < 2 ^ 32 := by omega
      have hzero := foldCarries_eq_zero_iff (addWords buffer checksum)
      rw [addWords_toNat hroom] at hzero
      have hlater := ih hrest (addChecksum_toNat hfirst hchecksum).1
      rw [addChecksum] at hlater
      rw [addChecksums, List.foldl_cons, List.map_cons, List.sum_cons, ← Nat.add_assoc]
      exact hlater.trans (by omega)

theorem finishChecksum_toNat {checksum : UInt32} (h : checksum.toNat < 65536) :
    (finishChecksum checksum).toNat = 65535 - checksum.toNat := by
  have hsize : UInt32.size = 4294967296 := rfl
  rw [finishChecksum, low_toNat, UInt32.toNat_not]
  omega

/-- A finished checksum makes its sum vanish modulo 65535. -/
theorem finishChecksum_closes {checksum : UInt32} {total : Nat} (hlt : checksum.toNat < 65536)
    (hmod : checksum.toNat % 65535 = total % 65535) :
    (total + (finishChecksum checksum).toUInt16.toNat) % 65535 = 0 := by
  rw [UInt32.toNat_toUInt16, finishChecksum_toNat hlt]
  omega

end AndroidX86Tv.Dhcp
