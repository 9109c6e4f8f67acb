import AndroidX86Tv.Dhcp.Checksum
import AndroidX86Tv.Lib.History
import Mathlib.Logic.Function.Iterate

/-!
# Checksums of data in pieces (common/socket.cpp)

`addChecksum` folds the carries back behind each buffer. As long as no buffer but the
last has an odd length, the sum is that of all the data at once.
-/

namespace AndroidX86Tv.Dhcp

open EventHistory OnesComplement

/-- No addition of `addWords` leaves the 32 bits. -/
def AddsFit : List UInt8 → UInt32 → Prop
  | [], _ => True
  | [a], checksum => checksum.toNat + a.toNat < 2 ^ 32
  | a :: b :: buffer, checksum =>
      checksum.toNat + hostWord a b < 2 ^ 32 ∧
        AddsFit buffer (checksum + UInt32.ofNat (hostWord a b))

/-- A turn of the folding loop. -/
def foldOnce (checksum : UInt32) : UInt32 := (checksum &&& (0xFFFF : UInt32)) + (checksum >>> 16)

/-- The folding loop ends after so many turns. -/
structure FoldsIn (turns : Nat) (checksum : UInt32) : Prop where
  goesOn : ∀ k < turns, foldOnce^[k] checksum >>> 16 ≠ 0
  ends : foldOnce^[turns] checksum >>> 16 = 0
  result : foldCarries checksum = foldOnce^[turns] checksum

/-- What a call of `addChecksum` is to do. -/
structure CallFits (checksum : UInt32) (buffer : List UInt8) : Prop where
  adds : AddsFit buffer checksum
  folds : ∃ turns ≤ 2, FoldsIn turns (addWords buffer checksum)
  small : (addChecksum buffer checksum).toNat < 2 ^ 16

theorem addsFit_of_sum {buffer : List UInt8} {checksum : UInt32}
    (h : checksum.toNat + (words hostWord buffer).sum < 2 ^ 32) : AddsFit buffer checksum := by
  fun_induction AddsFit buffer checksum with
  | case1 checksum => trivial
  | case2 a checksum =>
      rw [words, List.sum_singleton, hostWord, UInt8.toNat_zero] at h
      omega
  | case3 a b buffer checksum ih =>
      rw [words, List.sum_cons] at h
      have hword := addWord_toNat (show checksum.toNat + hostWord a b < 2 ^ 32 by omega)
      exact ⟨by omega, ih (by omega)⟩

theorem foldsIn_zero {checksum : UInt32} (h : checksum.toNat < 65536) : FoldsIn 0 checksum := by
  have hhigh := (high_eq_zero_iff checksum).mpr h
  refine ⟨fun k hk => absurd hk (Nat.not_lt_zero k), hhigh, ?_⟩
  rw [foldCarries, if_neg (not_not_intro hhigh)]
  rfl

theorem FoldsIn.turn {turns : Nat} {checksum : UInt32} (h : FoldsIn turns (foldOnce checksum))
    (hhigh : checksum >>> 16 ≠ 0) : FoldsIn (turns + 1) checksum := by
  constructor
  · intro k hk
    cases k with
    | zero => exact hhigh
    | succ k => exact h.goesOn k (Nat.lt_of_succ_lt_succ hk)
  · exact h.ends
  · rw [foldCarries, if_pos hhigh]
    exact h.result

/-- The first turn leaves one carry at most, and the second none. -/
theorem exists_foldsIn (checksum : UInt32) : ∃ turns ≤ 2, FoldsIn turns checksum := by
  have hlt := checksum.toNat_lt
  have hfirst := fold_toNat checksum
  have hsecond := fold_toNat (foldOnce checksum)
  by_cases hhigh : checksum >>> 16 = 0
  · exact ⟨0, by decide, foldsIn_zero ((high_eq_zero_iff checksum).mp hhigh)⟩
  · by_cases hcarry : foldOnce checksum >>> 16 = 0
    · have hsmall := (high_eq_zero_iff _).mp hcarry
      exact ⟨1, by decide, (foldsIn_zero hsmall).turn hhigh⟩
    · have hsmall : (foldOnce (foldOnce checksum)).toNat < 65536 := by
        rw [foldOnce, hsecond, foldOnce, hfirst]
        omega
      exact ⟨2, by decide, ((foldsIn_zero hsmall).turn hcarry).turn hhigh⟩

theorem callFits (checksum : UInt32) (buffer : List UInt8) (hchecksum : checksum.toNat < 2 ^ 16)
    (hlength : buffer.length ≤ 65535) : CallFits checksum buffer := by
  have hsum := words_sum_le hostWord_lt buffer
  exact ⟨addsFit_of_sum (by omega), exists_foldsIn _, (addChecksum_toNat hlength hchecksum).1⟩

theorem length_le_of_flatten {buffers : List (List UInt8)} {n : Nat}
    (hlength : buffers.flatten.length ≤ n) : ∀ buffer ∈ buffers, buffer.length ≤ n :=
  fun _ hmem => Nat.le_trans (List.sublist_flatten_of_mem hmem).length_le hlength

/-- The value of the chain, by its residue and by whether it is zero. -/
theorem addChecksums_eq {buffers : List (List UInt8)} {checksum : UInt32}
    (hlength : buffers.flatten.length ≤ 65535)
    (heven : ∀ buffer ∈ buffers.dropLast, buffer.length % 2 = 0)
    (hchecksum : checksum.toNat < 2 ^ 16) :
    (addChecksums buffers checksum).toNat =
      endAround checksum.toNat (onesSum (words hostWord buffers.flatten)) := by
  have hshort := length_le_of_flatten hlength
  obtain ⟨hlt, hmod⟩ := addChecksums_toNat hshort hchecksum
  have hzero := addChecksums_eq_zero_iff hshort hchecksum
  obtain ⟨hltSpec, hmodSpec, hzeroSpec⟩ :=
    endAround_onesSum (words_lt hostWord_lt buffers.flatten) hchecksum
  rw [words_sum_flatten heven] at hmod hzero
  exact eq_of_residue hlt hltSpec (hmod.trans hmodSpec.symm) (hzero.trans hzeroSpec.symm)

/-- The calls on one buffer after the other do what they are to do, and come to the
sum of all the data, whichever way it is split. In the order of the network that is
the sum of its words. -/
theorem addChecksums_onesSum {buffers : List (List UInt8)} {checksum : UInt32}
    (hlength : buffers.flatten.length ≤ 65535)
    (heven : ∀ buffer ∈ buffers.dropLast, buffer.length % 2 = 0)
    (hchecksum : checksum.toNat < 2 ^ 16) :
    AllSteps (fun checksum buffer => addChecksum buffer checksum) CallFits checksum buffers ∧
      (addChecksums buffers checksum).toNat =
        endAround checksum.toNat (onesSum (words hostWord buffers.flatten)) ∧
      swapBytes (addChecksums buffers checksum).toNat =
        endAround (swapBytes checksum.toNat) (onesSum (words networkWord buffers.flatten)) ∧
      ∀ others : List (List UInt8), others.flatten = buffers.flatten →
        (∀ buffer ∈ others.dropLast, buffer.length % 2 = 0) →
          addChecksums others checksum = addChecksums buffers checksum := by
  have hvalue := addChecksums_eq hlength heven hchecksum
  refine ⟨?_, hvalue, ?_, fun others hsame hothers => ?_⟩
  · have hnext := fun checksum buffer hsmall hshort =>
      (callFits checksum buffer hsmall hshort).small
    exact allSteps_of_invariant callFits hnext hchecksum (length_le_of_flatten hlength)
  · rw [hvalue]
    exact swapBytes_endAround_onesSum buffers.flatten hchecksum
  · apply UInt32.toNat_inj.mp
    rw [hvalue, addChecksums_eq (hsame ▸ hlength) hothers hchecksum, hsame]

/-- Three buffers, the last of an odd length, behind a full sum. -/
theorem addChecksums_onesSum_odd :
    AllSteps (fun checksum buffer => addChecksum buffer checksum) CallFits 0xFFFF
      [[0xFF, 0xFF], [1, 2, 3, 4], [5, 6, 7]] :=
  (addChecksums_onesSum (by decide) (by decide) (by decide)).1

end AndroidX86Tv.Dhcp
