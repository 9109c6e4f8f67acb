import AndroidX86Tv.Lib.Memory

/-!
# Code/length/value fields in a byte memory

A field is a code and a value of at most 255 bytes. `encode` writes fields one
after the other as code, length and value; `holds_encode_cons` reads one back.
-/

namespace CodeFields

open ByteMemory

@[ext] structure Field where
  code : UInt8
  value : List UInt8
  short : value.length ≤ 255
  deriving DecidableEq

/-- Code, length and value. -/
def Field.bytes (f : Field) : List UInt8 :=
  f.code :: UInt8.ofNat f.value.length :: f.value

def encode (fs : List Field) : List UInt8 := fs.flatMap Field.bytes

/-- The value of the first field with the code. -/
def lookup (code : UInt8) (fs : List Field) : Option (List UInt8) :=
  (fs.find? (·.code = code)).map Field.value

@[simp] theorem encode_nil : encode [] = [] := rfl

@[simp] theorem encode_cons (f : Field) (fs : List Field) :
    encode (f :: fs) = f.bytes ++ encode fs := rfl

@[simp] theorem encode_append (fs gs : List Field) : encode (fs ++ gs) = encode fs ++ encode gs :=
  List.flatMap_append

@[simp] theorem Field.bytes_length (f : Field) : f.bytes.length = 2 + f.value.length := by
  simp [Field.bytes]
  omega

theorem Field.toNat_length (f : Field) :
    (UInt8.ofNat f.value.length).toNat = f.value.length := by
  have := f.short
  rw [UInt8.toNat_ofNat']
  omega

theorem Field.length_eq_iff (f : Field) (n : Nat) (hn : n < 256) :
    UInt8.ofNat f.value.length = UInt8.ofNat n ↔ f.value.length = n := by
  rw [← UInt8.toNat_inj, f.toNat_length, UInt8.toNat_ofNat', Nat.mod_eq_of_lt hn]

theorem Field.length_ge_iff (f : Field) (n : Nat) (hn : n < 256) :
    UInt8.ofNat f.value.length ≥ UInt8.ofNat n ↔ f.value.length ≥ n := by
  rw [ge_iff_le, UInt8.le_iff_toNat_le, f.toNat_length, UInt8.toNat_ofNat', Nat.mod_eq_of_lt hn]

theorem lookup_cons_self {f : Field} {code : UInt8} (h : f.code = code) (fs : List Field) :
    lookup code (f :: fs) = some f.value := by
  simp [lookup, h]

theorem lookup_cons_ne {f : Field} {code : UInt8} (h : f.code ≠ code) (fs : List Field) :
    lookup code (f :: fs) = lookup code fs := by
  simp [lookup, h]

theorem lookup_eq_none {code : UInt8} {fs : List Field} (h : ∀ f ∈ fs, f.code ≠ code) :
    lookup code fs = none := by
  simpa [lookup] using h

theorem lookup_append_of_none {code : UInt8} {fs : List Field} (h : lookup code fs = none)
    (gs : List Field) : lookup code (fs ++ gs) = lookup code gs := by
  rw [lookup, Option.map_eq_none_iff] at h
  rw [lookup, List.find?_append, h, Option.none_or, lookup]

/-- Folding steps that each write one cell leaves in the cell of a code what the
field with that code puts there. -/
theorem foldl_lookup {σ β : Type*} (step : σ → Field → σ) (cell : σ → β) (code : UInt8)
    (write : List UInt8 → β → β)
    (hstep : ∀ s f, cell (step s f) = if f.code = code then write f.value (cell s) else cell s)
    {fs : List Field} (hnodup : (fs.map Field.code).Nodup) (s : σ) :
    cell (fs.foldl step s) = match lookup code fs with
      | some v => write v (cell s)
      | none => cell s := by
  induction fs generalizing s with
  | nil => rfl
  | cons f fs ih =>
      rw [List.map_cons, List.nodup_cons] at hnodup
      rw [List.foldl_cons, ih hnodup.2, hstep]
      cases eq_or_ne f.code code with
      | inl heq =>
          have hrest : lookup code fs = none := lookup_eq_none fun g hg hcode =>
            hnodup.1 (List.mem_map.mpr ⟨g, hg, hcode.trans heq.symm⟩)
          rw [hrest, lookup_cons_self heq, if_pos heq]
      | inr hne => rw [lookup_cons_ne hne, if_neg hne]

/-- A field in memory is its code, its length and its value, and the rest follows. -/
theorem holds_encode_cons {m : Memory} {p : Nat} {f : Field} {rest : List UInt8}
    (h : Holds m p (f.bytes ++ rest)) :
    m p = f.code ∧ m (p + 1) = UInt8.ofNat f.value.length ∧ Holds m (p + 2) f.value ∧
      Holds m (p + 2 + f.value.length) rest := by
  obtain ⟨hcode, hlen, htail⟩ := h
  obtain ⟨hvalue, hrest⟩ := (holds_append m (p + 1 + 1) f.value rest).mp htail
  exact ⟨hcode, hlen, hvalue, hrest⟩

end CodeFields
