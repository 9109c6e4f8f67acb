import AndroidX86Tv.Dhcp.DhcpInfo

/-!
# The offsets that a walk over the options visits

The option loop of `configureDhcp` and the loop of `getOption` advance alike; they
differ in the bytes that must be left for another turn. What one of them does is a
function of the offsets it visits.
-/

namespace AndroidX86Tv.Dhcp

open ByteMemory CodeFields

namespace Message

def optLength (m : Message) (i : Nat) : Nat := (m.option (i + 1)).toNat

/-- The offsets of the options from the index on, where another turn needs a byte at
the distance `need`. -/
def offsetsFrom (m : Message) (need i : Nat) : List Nat :=
  if i + need < m.optionsSize then
    if m.option i = optEnd then []
    else i :: offsetsFrom m need (i + 2 + m.optLength i)
  else []
termination_by m.optionsSize - i

/-- The options that the loop of `configureDhcp` comes to. -/
def processed (m : Message) : List Nat := m.offsetsFrom 1 4

/-- The options that `getOption` can come to. -/
def searched (m : Message) : List Nat := m.offsetsFrom 2 4

/-- The option lies before the end of the message, with its value. -/
def Inside (m : Message) (i : Nat) : Prop := i + 2 + m.optLength i ≤ m.optionsSize

variable {m m' : Message} {need i j : Nat}

theorem offsetsFrom_stop (h : m.optionsSize ≤ i + need) : m.offsetsFrom need i = [] := by
  rw [offsetsFrom, if_neg (Nat.not_lt_of_le h)]

theorem offsetsFrom_end (h : m.option i = optEnd) : m.offsetsFrom need i = [] := by
  rw [offsetsFrom, if_pos h]
  apply ite_self

theorem offsetsFrom_turn (hroom : i + need < m.optionsSize) (hcode : m.option i ≠ optEnd) :
    m.offsetsFrom need i = i :: m.offsetsFrom need (i + 2 + m.optLength i) := by
  rw [offsetsFrom, if_pos hroom, if_neg hcode]

/-- Induction along the walk: it stops at the index or takes the option there. -/
theorem walk_induction {motive : Nat → Prop} (m : Message) (need : Nat)
    (stop : ∀ i, m.optionsSize ≤ i + need → motive i)
    (atEnd : ∀ i, i + need < m.optionsSize → m.option i = optEnd → motive i)
    (turn : ∀ i, i + need < m.optionsSize → m.option i ≠ optEnd →
      motive (i + 2 + m.optLength i) → motive i) (i : Nat) : motive i := by
  fun_induction offsetsFrom m need i with
  | case1 i hroom hcode => exact atEnd i hroom hcode
  | case2 i hroom hcode ih => exact turn i hroom hcode ih
  | case3 i hstop => exact stop i (Nat.le_of_not_lt hstop)

theorem mem_offsetsFrom (h : j ∈ m.offsetsFrom need i) :
    i ≤ j ∧ j + need < m.optionsSize ∧ m.option j ≠ optEnd := by
  induction i using walk_induction m need with
  | stop i hstop =>
      rw [offsetsFrom_stop hstop] at h
      exact absurd h List.not_mem_nil
  | atEnd i hroom hcode =>
      rw [offsetsFrom_end hcode] at h
      exact absurd h List.not_mem_nil
  | turn i hroom hcode ih =>
      rw [offsetsFrom_turn hroom hcode] at h
      cases List.mem_cons.mp h with
      | inl hfirst =>
          obtain rfl := hfirst
          exact ⟨Nat.le_refl j, hroom, hcode⟩
      | inr hlater =>
          obtain ⟨hle, hrest⟩ := ih hlater
          exact ⟨by omega, hrest⟩

/-- A later option starts behind the value of an earlier one. -/
theorem offsetsFrom_pairwise (m : Message) (need i : Nat) :
    (m.offsetsFrom need i).Pairwise fun j k => j + 2 + m.optLength j ≤ k := by
  induction i using walk_induction m need with
  | stop i hstop =>
      rw [offsetsFrom_stop hstop]
      exact List.Pairwise.nil
  | atEnd i hroom hcode =>
      rw [offsetsFrom_end hcode]
      exact List.Pairwise.nil
  | turn i hroom hcode ih =>
      rw [offsetsFrom_turn hroom hcode]
      exact List.pairwise_cons.mpr ⟨fun k hk => (mem_offsetsFrom hk).1, ih⟩

/-- Of two visited options one lies behind the other. -/
theorem offsetsFrom_apart {k : Nat} (hj : j ∈ m.offsetsFrom need i)
    (hk : k ∈ m.offsetsFrom need i) :
    j = k ∨ j + 2 + m.optLength j ≤ k ∨ k + 2 + m.optLength k ≤ j := by
  obtain ⟨a, ha, rfl⟩ := List.mem_iff_getElem.mp hj
  obtain ⟨b, hb, rfl⟩ := List.mem_iff_getElem.mp hk
  have hpairs := List.pairwise_iff_getElem.mp (offsetsFrom_pairwise m need i)
  rcases Nat.lt_trichotomy a b with hlt | heq | hgt
  · exact Or.inr (Or.inl (hpairs a b ha hb hlt))
  · obtain rfl := heq
    exact Or.inl rfl
  · exact Or.inr (Or.inr (hpairs b a hb ha hgt))

/-- A turn of the loop of `getOption`. -/
theorem getOptionFrom_turn (code : UInt8) (hroom : i + 2 < m.optionsSize)
    (hcode : m.option i ≠ optEnd) : m.getOptionFrom code i =
      if m.option i = code then some (i + 2, m.option (i + 1))
      else m.getOptionFrom code (i + 2 + m.optLength i) := by
  rw [getOptionFrom, if_pos hroom, if_neg hcode, optLength]

/-- `getOption` finds the first visited option with the code. -/
theorem getOptionFrom_eq (m : Message) (code : UInt8) (i : Nat) :
    m.getOptionFrom code i =
      ((m.offsetsFrom 2 i).find? fun j => m.option j = code).map
        fun j => (j + 2, m.option (j + 1)) := by
  induction i using walk_induction m 2 with
  | stop i hstop =>
      rw [getOptionFrom_short hstop, offsetsFrom_stop hstop]
      rfl
  | atEnd i hroom hcode =>
      rw [getOptionFrom_end hcode, offsetsFrom_end hcode]
      rfl
  | turn i hroom hcode ih =>
      rw [getOptionFrom_turn code hroom hcode, offsetsFrom_turn hroom hcode]
      by_cases hfound : m.option i = code
      · rw [if_pos hfound, List.find?_cons_of_pos (by simp [hfound])]
        rfl
      · rw [if_neg hfound, List.find?_cons_of_neg (by simp [hfound])]
        exact ih

/-- A turn of the option loop whose length check fails. -/
theorem optionLoop_rejects (info : DhcpInfo) (hroom : i + 1 < m.optionsSize)
    (hcode : m.option i ≠ optEnd) (hlength : m.optionsSize ≤ i + m.optLength i) :
    m.optionLoop info i = (false, info) := by
  have hsize : offsetOptions + (m.option (i + 1)).toNat + i ≥ m.mSize := by
    rw [optLength, optionsSize] at hlength
    rw [optionsSize] at hroom
    omega
  rw [optionLoop, if_pos hroom, if_neg hcode, if_pos hsize]

/-- A turn of the option loop that stores the option and goes on. -/
theorem optionLoop_turn (info : DhcpInfo) (hroom : i + 1 < m.optionsSize)
    (hcode : m.option i ≠ optEnd) (hlength : i + m.optLength i < m.optionsSize) :
    m.optionLoop info i = m.optionLoop
      (info.record (m.option i) (m.option (i + 1)) m.dhcpData (offsetOptions + i + 2))
      (i + 2 + m.optLength i) := by
  have hsize : ¬ offsetOptions + (m.option (i + 1)).toNat + i ≥ m.mSize := by
    rw [optLength, optionsSize] at hlength
    omega
  rw [optionLoop, if_pos hroom, if_neg hcode, if_neg hsize, optLength]

/-- The loop runs to its end just if the length check lets each option pass. -/
theorem optionLoop_passes_iff (m : Message) (info : DhcpInfo) (i : Nat) :
    (m.optionLoop info i).1 = true ↔
      ∀ j ∈ m.offsetsFrom 1 i, j + m.optLength j < m.optionsSize := by
  induction i using walk_induction m 1 generalizing info with
  | stop i hstop =>
      rw [optionLoop_short hstop, offsetsFrom_stop hstop]
      exact iff_of_true rfl fun j hj => absurd hj List.not_mem_nil
  | atEnd i hroom hcode =>
      rw [optionLoop_end hcode, offsetsFrom_end hcode]
      exact iff_of_true rfl fun j hj => absurd hj List.not_mem_nil
  | turn i hroom hcode ih =>
      rw [offsetsFrom_turn hroom hcode, List.forall_mem_cons]
      cases Nat.lt_or_ge (i + m.optLength i) m.optionsSize with
      | inl hlt =>
          rw [optionLoop_turn info hroom hcode hlt, ih]
          exact (and_iff_right hlt).symm
      | inr hge =>
          rw [optionLoop_rejects info hroom hcode hge]
          exact iff_of_false Bool.false_ne_true fun h => Nat.not_le_of_lt h.1 hge

end Message

end AndroidX86Tv.Dhcp
