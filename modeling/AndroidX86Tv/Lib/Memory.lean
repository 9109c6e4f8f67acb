import Mathlib.Data.List.Basic

/-!
# Byte memory with little-endian words

A memory gives a byte at every address. `Holds m p bytes` says that the bytes
stand at `p`, and splits along appends; what is stored can be read back, and a
store elsewhere does not disturb it.
-/

namespace ByteMemory

abbrev Memory := Nat → UInt8

/-- Write bytes at consecutive addresses from `p` on. -/
def store (m : Memory) (p : Nat) (bytes : List UInt8) : Memory := fun i =>
  if i < p then m i else (bytes[i - p]?).getD (m i)

/-- The bytes stand at consecutive addresses from `p` on. -/
def Holds (m : Memory) : Nat → List UInt8 → Prop
  | _, [] => True
  | p, b :: bytes => m p = b ∧ Holds m (p + 1) bytes

instance (m : Memory) : (p : Nat) → (bytes : List UInt8) → Decidable (Holds m p bytes)
  | _, [] => isTrue trivial
  | p, b :: bytes =>
      have : Decidable (Holds m (p + 1) bytes) := instDecidableHolds m (p + 1) bytes
      inferInstanceAs (Decidable (m p = b ∧ Holds m (p + 1) bytes))

@[simp] theorem holds_nil (m : Memory) (p : Nat) : Holds m p [] := trivial

@[simp] theorem holds_cons (m : Memory) (p : Nat) (b : UInt8) (bytes : List UInt8) :
    Holds m p (b :: bytes) ↔ m p = b ∧ Holds m (p + 1) bytes := Iff.rfl

theorem holds_append (m : Memory) (p : Nat) (xs ys : List UInt8) :
    Holds m p (xs ++ ys) ↔ Holds m p xs ∧ Holds m (p + xs.length) ys := by
  induction xs generalizing p with
  | nil => simp
  | cons b xs ih =>
      simp only [List.cons_append, holds_cons, ih, List.length_cons, and_assoc]
      rw [show p + 1 + xs.length = p + (xs.length + 1) by omega]

theorem holds_iff (m : Memory) (p : Nat) (bytes : List UInt8) :
    Holds m p bytes ↔ ∀ k < bytes.length, bytes[k]? = some (m (p + k)) := by
  induction bytes generalizing p with
  | nil => simp
  | cons b bytes ih =>
      simp only [holds_cons, ih, List.length_cons]
      constructor
      · rintro ⟨hb, htail⟩ k hk
        cases k with
        | zero => simp [hb]
        | succ k =>
            rw [List.getElem?_cons_succ, htail k (by omega),
              show p + 1 + k = p + (k + 1) by omega]
      · intro h
        refine ⟨by simpa [eq_comm] using h 0 (by omega), fun k hk => ?_⟩
        have hnext := h (k + 1) (by omega)
        rwa [List.getElem?_cons_succ, show p + (k + 1) = p + 1 + k by omega] at hnext

theorem store_apply_lt {m : Memory} {p i : Nat} (h : i < p) (bytes : List UInt8) :
    store m p bytes i = m i := by
  rw [store, if_pos h]

theorem store_apply_ge {m : Memory} {p i : Nat} {bytes : List UInt8} (h : p + bytes.length ≤ i) :
    store m p bytes i = m i := by
  rw [store, if_neg (by omega), List.getElem?_eq_none (by omega), Option.getD_none]

/-- What was stored stands there. -/
theorem holds_store (m : Memory) (p : Nat) (bytes : List UInt8) :
    Holds (store m p bytes) p bytes := by
  apply (holds_iff _ _ _).mpr
  intro k hk
  rw [store, if_neg (by omega), Nat.add_sub_cancel_left, List.getElem?_eq_getElem hk,
    Option.getD_some]

/-- A store elsewhere does not disturb what stands at `p`. -/
theorem Holds.store {m : Memory} {p : Nat} {bytes : List UInt8} (h : Holds m p bytes) {q : Nat}
    {new : List UInt8} (hsep : q + new.length ≤ p ∨ p + bytes.length ≤ q) :
    Holds (ByteMemory.store m q new) p bytes := by
  apply (holds_iff _ _ _).mpr
  intro k hk
  have hsame : ByteMemory.store m q new (p + k) = m (p + k) := by
    cases hsep with
    | inl hbelow => exact store_apply_ge (by omega)
    | inr habove => exact store_apply_lt (by omega) new
  rw [hsame]
  exact (holds_iff m p bytes).mp h k hk

/-- The four bytes of a word, least significant first. -/
def bytes32 (v : UInt32) : List UInt8 :=
  [UInt8.ofNat v.toNat, UInt8.ofNat (v.toNat / 256), UInt8.ofNat (v.toNat / 65536),
    UInt8.ofNat (v.toNat / 16777216)]

def bytes16 (v : UInt16) : List UInt8 :=
  [UInt8.ofNat v.toNat, UInt8.ofNat (v.toNat / 256)]

def load32 (m : Memory) (p : Nat) : UInt32 :=
  UInt32.ofNat ((m p).toNat + 256 * (m (p + 1)).toNat + 65536 * (m (p + 2)).toNat +
    16777216 * (m (p + 3)).toNat)

def load16 (m : Memory) (p : Nat) : UInt16 :=
  UInt16.ofNat ((m p).toNat + 256 * (m (p + 1)).toNat)

/-- Reversal of the bytes of a word, as `ntohl` does on a little-endian host. -/
def swap32 (v : UInt32) : UInt32 :=
  UInt32.ofNat (16777216 * (v.toNat % 256) + 65536 * (v.toNat / 256 % 256) +
    256 * (v.toNat / 65536 % 256) + v.toNat / 16777216)

def swap16 (v : UInt16) : UInt16 :=
  UInt16.ofNat (256 * (v.toNat % 256) + v.toNat / 256)

@[simp] theorem bytes32_length (v : UInt32) : (bytes32 v).length = 4 := rfl

@[simp] theorem bytes16_length (v : UInt16) : (bytes16 v).length = 2 := rfl

theorem load32_of_holds {m : Memory} {p : Nat} {v : UInt32} (h : Holds m p (bytes32 v)) :
    load32 m p = v := by
  obtain ⟨h0, h1, h2, h3, -⟩ := h
  have hlt := v.toNat_lt
  apply UInt32.toNat_inj.mp
  simp only [load32, h0, h1, h2, h3, UInt32.toNat_ofNat', UInt8.toNat_ofNat']
  omega

theorem load16_of_holds {m : Memory} {p : Nat} {v : UInt16} (h : Holds m p (bytes16 v)) :
    load16 m p = v := by
  obtain ⟨h0, h1, -⟩ := h
  have hlt := v.toNat_lt
  apply UInt16.toNat_inj.mp
  simp only [load16, h0, h1, UInt16.toNat_ofNat', UInt8.toNat_ofNat']
  omega

/-- A word read from equal bytes is the same word. -/
theorem load32_congr {m m' : Memory} {p p' : Nat} (h : ∀ k < 4, m (p + k) = m' (p' + k)) :
    load32 m p = load32 m' p' := by
  have h0 := h 0 (by omega)
  have h1 := h 1 (by omega)
  have h2 := h 2 (by omega)
  have h3 := h 3 (by omega)
  simp only [Nat.add_zero] at h0
  simp only [load32, h0, h1, h2, h3]

/-- Swapping a word given by its bytes. -/
theorem swap32_toNat {v : UInt32} {a b c d : Nat} (ha : a < 256) (hb : b < 256) (hc : c < 256)
    (hd : d < 256) (hv : v.toNat = a + 256 * b + 65536 * c + 16777216 * d) :
    (swap32 v).toNat = d + 256 * c + 65536 * b + 16777216 * a := by
  have h0 : v.toNat % 256 = a := by omega
  have h1 : v.toNat / 256 % 256 = b := by omega
  have h2 : v.toNat / 65536 % 256 = c := by omega
  have h3 : v.toNat / 16777216 = d := by omega
  rw [swap32, h0, h1, h2, h3, UInt32.toNat_ofNat']
  omega

theorem swap32_swap32 (v : UInt32) : swap32 (swap32 v) = v := by
  have hlt := v.toNat_lt
  have hv : v.toNat = v.toNat % 256 + 256 * (v.toNat / 256 % 256) +
      65536 * (v.toNat / 65536 % 256) + 16777216 * (v.toNat / 16777216) := by omega
  have hbyte : ∀ n, n % 256 < 256 := fun n => Nat.mod_lt n (by decide)
  have htop : v.toNat / 16777216 < 256 := by omega
  apply UInt32.toNat_inj.mp
  rw [swap32_toNat htop (hbyte _) (hbyte _) (hbyte _)
    (swap32_toNat (hbyte _) (hbyte _) (hbyte _) htop hv)]
  exact hv.symm

theorem load16_congr {m m' : Memory} {p p' : Nat} (h : ∀ k < 2, m (p + k) = m' (p' + k)) :
    load16 m p = load16 m' p' := by
  have h0 := h 0 (by omega)
  have h1 := h 1 (by omega)
  simp only [Nat.add_zero] at h0
  simp only [load16, h0, h1]

/-- The memory that starts with a list of bytes. -/
def ofBytes (bytes : List UInt8) : Memory := fun i => bytes.getD i 0

theorem Holds.eq_ofBytes {m : Memory} {p : Nat} {bytes : List UInt8} (h : Holds m p bytes)
    {k : Nat} (hk : k < bytes.length) : m (p + k) = ofBytes bytes k := by
  rw [ofBytes, List.getD_eq_getElem?_getD, (holds_iff m p bytes).mp h k hk, Option.getD_some]

theorem Holds.load32_eq {m : Memory} {p : Nat} {bytes : List UInt8} (h : Holds m p bytes)
    {k : Nat} (hk : k + 4 ≤ bytes.length) : load32 m (p + k) = load32 (ofBytes bytes) k := by
  refine load32_congr fun j hj => ?_
  rw [Nat.add_assoc]
  exact h.eq_ofBytes (by omega)

theorem Holds.load16_eq {m : Memory} {p : Nat} {bytes : List UInt8} (h : Holds m p bytes)
    {k : Nat} (hk : k + 2 ≤ bytes.length) : load16 m (p + k) = load16 (ofBytes bytes) k := by
  refine load16_congr fun j hj => ?_
  rw [Nat.add_assoc]
  exact h.eq_ofBytes (by omega)

theorem holds_ofBytes (bytes : List UInt8) : Holds (ofBytes bytes) 0 bytes := by
  apply (holds_iff _ _ _).mpr
  intro k hk
  rw [Nat.zero_add, ofBytes, List.getD_eq_getElem?_getD, List.getElem?_eq_getElem hk,
    Option.getD_some]

theorem load32_ofBytes (v : UInt32) : load32 (ofBytes (bytes32 v)) 0 = v :=
  load32_of_holds (holds_ofBytes _)

theorem length_words (vs : List UInt32) : (vs.flatMap bytes32).length = 4 * vs.length := by
  induction vs with
  | nil => rfl
  | cons v vs ih =>
      rw [List.flatMap_cons, List.length_append, bytes32_length, ih, List.length_cons]
      omega

/-- Reading one word of a sequence of words. -/
theorem Holds.load32_words {m : Memory} {p : Nat} {vs : List UInt32}
    (h : Holds m p (vs.flatMap bytes32)) {k : Nat} (hk : k < vs.length) :
    load32 m (p + 4 * k) = vs[k] := by
  induction vs generalizing p k with
  | nil => simp at hk
  | cons v vs ih =>
      rw [List.flatMap_cons, holds_append, bytes32_length] at h
      cases k with
      | zero => exact load32_of_holds h.1
      | succ k =>
          have hrest := ih h.2 (Nat.lt_of_succ_lt_succ hk)
          rwa [show p + 4 + 4 * k = p + 4 * (k + 1) by omega] at hrest

theorem swap32_injective {v w : UInt32} (h : swap32 v = swap32 w) : v = w := by
  rw [← swap32_swap32 v, h, swap32_swap32]

/-- The bytes that stand at consecutive addresses from `p` on. -/
def bytesAt (m : Memory) (p n : Nat) : List UInt8 := (List.range n).map fun k => m (p + k)

@[simp] theorem length_bytesAt (m : Memory) (p n : Nat) : (bytesAt m p n).length = n := by
  rw [bytesAt, List.length_map, List.length_range]

theorem Holds.bytesAt_eq {m : Memory} {p : Nat} {bytes : List UInt8} (h : Holds m p bytes) :
    bytesAt m p bytes.length = bytes := by
  apply List.ext_getElem (length_bytesAt _ _ _)
  intro k _ hk
  have hget := (holds_iff m p bytes).mp h k hk
  rw [List.getElem?_eq_getElem hk, Option.some.injEq] at hget
  simp [bytesAt, hget]

theorem Holds.take {m : Memory} {p : Nat} {bytes : List UInt8} (h : Holds m p bytes) (k : Nat) :
    Holds m p (bytes.take k) := by
  rw [← List.take_append_drop k bytes, holds_append] at h
  exact h.1

theorem Holds.drop {m : Memory} {p : Nat} {bytes : List UInt8} (h : Holds m p bytes) {k : Nat}
    (hk : k ≤ bytes.length) : Holds m (p + k) (bytes.drop k) := by
  rw [← List.take_append_drop k bytes, holds_append, List.length_take_of_le hk] at h
  exact h.2

end ByteMemory
