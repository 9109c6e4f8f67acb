import Mathlib.Algebra.Ring.Nat
import Mathlib.Data.List.Basic

/-!
# One's-complement sums of 16-bit words

Words are added with the carry brought around to the low end. Up to the two
spellings of zero this is addition modulo 65535, in which the two bytes of a word
may be exchanged throughout.
-/

namespace OnesComplement

/-- Most significant byte first. -/
def networkWord (a b : UInt8) : Nat := 256 * a.toNat + b.toNat

/-- Least significant byte first. -/
def hostWord (a b : UInt8) : Nat := a.toNat + 256 * b.toNat

/-- The words of the bytes; an odd last byte is followed by a zero byte. -/
def words (word : UInt8 → UInt8 → Nat) : List UInt8 → List Nat
  | [] => []
  | [a] => [word a 0]
  | a :: b :: bytes => word a b :: words word bytes

/-- Addition with an end-around carry. -/
def endAround (a b : Nat) : Nat := (a + b) % 65536 + (a + b) / 65536

/-- The one's-complement sum of words. -/
def onesSum (ws : List Nat) : Nat := ws.foldl endAround 0

theorem networkWord_lt (a b : UInt8) : networkWord a b < 65536 := by
  have ha := a.toNat_lt
  have hb := b.toNat_lt
  rw [networkWord]
  omega

theorem hostWord_lt (a b : UInt8) : hostWord a b < 65536 := by
  have ha := a.toNat_lt
  have hb := b.toNat_lt
  rw [hostWord]
  omega

theorem endAround_lt {a b : Nat} (ha : a < 65536) (hb : b < 65536) : endAround a b < 65536 := by
  rw [endAround]
  omega

theorem endAround_mod (a b : Nat) : endAround a b % 65535 = (a + b) % 65535 := by
  rw [endAround]
  omega

theorem endAround_eq_zero_iff (a b : Nat) : endAround a b = 0 ↔ a + b = 0 := by
  rw [endAround]
  omega

/-- What a sum with end-around carries is, and when it is zero. -/
theorem foldl_endAround {ws : List Nat} (hws : ∀ w ∈ ws, w < 65536) {acc : Nat}
    (hacc : acc < 65536) :
    ws.foldl endAround acc < 65536 ∧
      ws.foldl endAround acc % 65535 = (acc + ws.sum) % 65535 ∧
      (ws.foldl endAround acc = 0 ↔ acc + ws.sum = 0) := by
  induction ws generalizing acc with
  | nil => exact ⟨hacc, rfl, Iff.rfl⟩
  | cons w ws ih =>
      obtain ⟨hw, hrest⟩ := List.forall_mem_cons.mp hws
      obtain ⟨hlt, hmod, hzero⟩ := ih hrest (endAround_lt hacc hw)
      rw [List.foldl_cons, List.sum_cons]
      refine ⟨hlt, ?_, ?_⟩
      · have hstep := endAround_mod acc w
        omega
      · have hstep := endAround_eq_zero_iff acc w
        omega

/-- A word is known by its residue, but for the two spellings of zero. -/
theorem eq_of_residue {a b : Nat} (ha : a < 65536) (hb : b < 65536) (hmod : a % 65535 = b % 65535)
    (hzero : a = 0 ↔ b = 0) : a = b := by
  omega

theorem endAround_onesSum {ws : List Nat} (hws : ∀ w ∈ ws, w < 65536) {acc : Nat}
    (hacc : acc < 65536) :
    endAround acc (onesSum ws) < 65536 ∧
      endAround acc (onesSum ws) % 65535 = (acc + ws.sum) % 65535 ∧
      (endAround acc (onesSum ws) = 0 ↔ acc + ws.sum = 0) := by
  obtain ⟨hlt, hmod, hzero⟩ := foldl_endAround hws (show 0 < 65536 by decide)
  have hstep := endAround_mod acc (onesSum ws)
  have hnone := endAround_eq_zero_iff acc (onesSum ws)
  refine ⟨endAround_lt hacc hlt, ?_, ?_⟩
  · rw [onesSum] at hstep ⊢
    omega
  · rw [hnone, onesSum]
    omega

/-- The sum is all ones just if it is a multiple of 65535 other than zero. -/
theorem onesSum_eq_allOnes_iff {ws : List Nat} (hws : ∀ w ∈ ws, w < 65536) :
    onesSum ws = 65535 ↔ ws.sum % 65535 = 0 ∧ ws.sum ≠ 0 := by
  obtain ⟨hlt, hmod, hzero⟩ := foldl_endAround hws (show 0 < 65536 by decide)
  rw [Nat.zero_add] at hmod hzero
  rw [onesSum]
  omega

section Words

variable {word : UInt8 → UInt8 → Nat}

theorem words_lt (hword : ∀ a b, word a b < 65536) (bytes : List UInt8) :
    ∀ w ∈ words word bytes, w < 65536 := by
  fun_induction words word bytes with
  | case1 => exact List.forall_mem_nil _
  | case2 a => exact List.forall_mem_singleton.mpr (hword a 0)
  | case3 a b bytes ih => exact List.forall_mem_cons.mpr ⟨hword a b, ih⟩

/-- Behind an even number of bytes the words go on. -/
theorem words_append {xs : List UInt8} (heven : xs.length % 2 = 0) (ys : List UInt8) :
    words word (xs ++ ys) = words word xs ++ words word ys := by
  fun_induction words word xs with
  | case1 => rfl
  | case2 a => exact absurd heven (show ¬ 1 % 2 = 0 by decide)
  | case3 a b xs ih =>
      have hrest : xs.length % 2 = 0 := by
        rw [List.length_cons, List.length_cons] at heven
        omega
      calc words word (a :: b :: xs ++ ys)
          = word a b :: words word (xs ++ ys) := rfl
        _ = word a b :: (words word xs ++ words word ys) := by rw [ih hrest]

/-- So the sums of buffers add up if all but the last have an even length. -/
theorem words_sum_flatten {buffers : List (List UInt8)}
    (heven : ∀ buffer ∈ buffers.dropLast, buffer.length % 2 = 0) :
    (buffers.map fun buffer => (words word buffer).sum).sum = (words word buffers.flatten).sum := by
  induction buffers with
  | nil => rfl
  | cons buffer buffers ih =>
      cases buffers with
      | nil =>
          rw [List.map_singleton, List.sum_singleton, List.flatten_cons, List.flatten_nil,
            List.append_nil]
      | cons next buffers =>
          obtain ⟨hbuffer, hrest⟩ := List.forall_mem_cons.mp heven
          have hsplit : words word (buffer :: next :: buffers).flatten =
              words word buffer ++ words word (next :: buffers).flatten := words_append hbuffer _
          rw [List.map_cons, List.sum_cons, ih hrest, hsplit, List.sum_append]

/-- The words are as many as every other byte. -/
theorem words_sum_le (hword : ∀ a b, word a b < 65536) (bytes : List UInt8) :
    (words word bytes).sum ≤ 65535 * ((bytes.length + 1) / 2) := by
  fun_induction words word bytes with
  | case1 => exact Nat.zero_le _
  | case2 a =>
      have ha := hword a 0
      rw [List.sum_singleton, List.length_singleton]
      omega
  | case3 a b bytes ih =>
      have hab := hword a b
      rw [List.sum_cons, List.length_cons, List.length_cons]
      omega

end Words

/-- The order of the bytes is a factor of 256. -/
theorem networkWords_sum_mod (bytes : List UInt8) :
    (words networkWord bytes).sum % 65535 = 256 * (words hostWord bytes).sum % 65535 := by
  fun_induction words networkWord bytes with
  | case1 => rfl
  | case2 a =>
      rw [words, List.sum_singleton, List.sum_singleton, networkWord, hostWord]
      omega
  | case3 a b bytes ih =>
      rw [words, List.sum_cons, List.sum_cons, networkWord, hostWord]
      omega

theorem networkWords_sum_eq_zero_iff (bytes : List UInt8) :
    (words networkWord bytes).sum = 0 ↔ (words hostWord bytes).sum = 0 := by
  fun_induction words networkWord bytes with
  | case1 => rfl
  | case2 a =>
      rw [words, List.sum_singleton, List.sum_singleton, networkWord, hostWord]
      omega
  | case3 a b bytes ih =>
      rw [words, List.sum_cons, List.sum_cons, networkWord, hostWord]
      omega

/-- The two bytes of a word exchanged. -/
def swapBytes (w : Nat) : Nat := 256 * (w % 256) + w / 256

theorem swapBytes_residue {w : Nat} (hw : w < 65536) :
    swapBytes w < 65536 ∧ swapBytes w % 65535 = 256 * w % 65535 ∧ (swapBytes w = 0 ↔ w = 0) := by
  have hsplit : 256 * w = swapBytes w + 65535 * (w / 256) := by
    rw [swapBytes]
    omega
  refine ⟨?_, ?_, ?_⟩
  · rw [swapBytes]
    omega
  · rw [hsplit, Nat.add_mul_mod_self_left]
  · rw [swapBytes]
    omega

/-- The bytes may be exchanged before the sum or after it. -/
theorem swapBytes_endAround_onesSum (bytes : List UInt8) {acc : Nat} (hacc : acc < 65536) :
    swapBytes (endAround acc (onesSum (words hostWord bytes))) =
      endAround (swapBytes acc) (onesSum (words networkWord bytes)) := by
  obtain ⟨hlt, hmod, hzero⟩ := endAround_onesSum (words_lt hostWord_lt bytes) hacc
  obtain ⟨haccLt, haccMod, haccZero⟩ := swapBytes_residue hacc
  obtain ⟨hltNet, hmodNet, hzeroNet⟩ := endAround_onesSum (words_lt networkWord_lt bytes) haccLt
  obtain ⟨hltSwap, hmodSwap, hzeroSwap⟩ := swapBytes_residue hlt
  have hsum := networkWords_sum_mod bytes
  apply eq_of_residue hltSwap hltNet
  · calc
      swapBytes (endAround acc (onesSum (words hostWord bytes))) % 65535 =
          256 * endAround acc (onesSum (words hostWord bytes)) % 65535 := hmodSwap
      _ = 256 * (acc + (words hostWord bytes).sum) % 65535 := by
        rw [Nat.mul_mod, hmod, ← Nat.mul_mod]
      _ = (swapBytes acc + (words networkWord bytes).sum) % 65535 := by
        rw [Nat.mul_add, Nat.add_mod, ← haccMod, ← hsum, ← Nat.add_mod]
      _ = endAround (swapBytes acc) (onesSum (words networkWord bytes)) % 65535 := hmodNet.symm
  · rw [hzeroSwap, hzero, hzeroNet, Nat.add_eq_zero_iff, Nat.add_eq_zero_iff, haccZero,
      networkWords_sum_eq_zero_iff]

/-- A sum of host words that vanishes modulo 65535 is all ones on the network. -/
theorem onesSum_eq_allOnes {bytes : List UInt8}
    (hmod : (words hostWord bytes).sum % 65535 = 0) (hne : (words hostWord bytes).sum ≠ 0) :
    onesSum (words networkWord bytes) = 65535 := by
  apply (onesSum_eq_allOnes_iff (words_lt networkWord_lt bytes)).mpr
  constructor
  · rw [networkWords_sum_mod, Nat.mul_mod, hmod]
  · exact mt (networkWords_sum_eq_zero_iff bytes).mp hne

end OnesComplement
