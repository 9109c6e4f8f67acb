import AndroidX86Tv.Dhcp.OptionBounds

/-!
# The options that the two walks visit

`configureDhcp` and `getOption` walk over the options of a message in loops of
their own. What each visits is recorded with the walk; what it stores or finds is
a function of the record.
-/

namespace AndroidX86Tv.Dhcp

open ByteMemory CodeFields

namespace Message

/-- An option as a loop reads it. -/
structure Visit where
  offset : Nat
  code : UInt8
  length : UInt8
  deriving DecidableEq

def visitAt (m : Message) (i : Nat) : Visit := ⟨i, m.option i, m.option (i + 1)⟩

/-- The options that the loop of `configureDhcp` visits, entered with its index. -/
def optionLoopVisits (m : Message) (i : Nat) : List Visit :=
  if i + 1 < m.optionsSize then
    if m.option i = optEnd then []
    else if offsetOptions + (m.option (i + 1)).toNat + i ≥ m.mSize then [m.visitAt i]
    else m.visitAt i :: optionLoopVisits m (i + 2 + (m.option (i + 1)).toNat)
  else []
termination_by m.optionsSize - i

/-- The options that the loop of `getOption` visits, entered with its index. -/
def getOptionVisits (m : Message) (expectedOptCode : UInt8) (i : Nat) : List Visit :=
  if i + 2 < m.optionsSize then
    if m.option i = optEnd then []
    else if m.option i = expectedOptCode then [m.visitAt i]
    else m.visitAt i :: getOptionVisits m expectedOptCode (i + 2 + (m.option (i + 1)).toNat)
  else []
termination_by m.optionsSize - i

variable {m : Message} {i : Nat}

theorem visitAt_injective (m : Message) : Function.Injective m.visitAt :=
  fun _ _ h => congrArg Visit.offset h

theorem optionLoopVisits_stop (h : m.optionsSize ≤ i + 1) : m.optionLoopVisits i = [] := by
  rw [optionLoopVisits, if_neg (Nat.not_lt_of_le h)]

theorem optionLoopVisits_end (h : m.option i = optEnd) : m.optionLoopVisits i = [] := by
  rw [optionLoopVisits, if_pos h]
  apply ite_self

/-- A turn of the loop of `configureDhcp` that passes the length check. -/
theorem optionLoopVisits_turn (hroom : i + 1 < m.optionsSize) (hcode : m.option i ≠ optEnd)
    (hlength : i + m.optLength i < m.optionsSize) :
    m.optionLoopVisits i = m.visitAt i :: m.optionLoopVisits (i + 2 + m.optLength i) := by
  have hsize : ¬ offsetOptions + (m.option (i + 1)).toNat + i ≥ m.mSize := by
    rw [optLength, optionsSize] at hlength
    omega
  rw [optionLoopVisits, if_pos hroom, if_neg hcode, if_neg hsize, optLength]

theorem getOptionVisits_stop (h : m.optionsSize ≤ i + 2) (code : UInt8) :
    m.getOptionVisits code i = [] := by
  rw [getOptionVisits, if_neg (Nat.not_lt_of_le h)]

theorem getOptionVisits_end (h : m.option i = optEnd) (code : UInt8) :
    m.getOptionVisits code i = [] := by
  rw [getOptionVisits, if_pos h]
  apply ite_self

/-- A turn of the loop of `getOption`. -/
theorem getOptionVisits_turn (code : UInt8) (hroom : i + 2 < m.optionsSize)
    (hcode : m.option i ≠ optEnd) : m.getOptionVisits code i =
      if m.option i = code then [m.visitAt i]
      else m.visitAt i :: m.getOptionVisits code (i + 2 + m.optLength i) := by
  rw [getOptionVisits, if_pos hroom, if_neg hcode, optLength]

section Records

/-- The loop that runs to its end has stored what it visited. -/
theorem optionLoop_stores (info : DhcpInfo) (hends : (m.optionLoop info i).1 = true) :
    (m.optionLoop info i).2 = (m.optionLoopVisits i).foldl (fun info visit => info.record
      visit.code visit.length m.dhcpData (offsetOptions + visit.offset + 2)) info := by
  induction i using walk_induction m 1 generalizing info with
  | stop i hstop =>
      rw [optionLoop_short hstop, optionLoopVisits_stop hstop, List.foldl_nil]
  | atEnd i hroom hcode =>
      rw [optionLoop_end hcode, optionLoopVisits_end hcode, List.foldl_nil]
  | turn i hroom hcode ih =>
      rcases Nat.lt_or_ge (i + m.optLength i) m.optionsSize with hlength | hlength
      · rw [optionLoop_turn info hroom hcode hlength] at hends ⊢
        rw [ih _ hends, optionLoopVisits_turn hroom hcode hlength, List.foldl_cons]
        rfl
      · rw [optionLoop_rejects info hroom hcode hlength] at hends
        exact absurd hends Bool.false_ne_true

/-- The search finds the first option with the code that it visits. -/
theorem getOptionFrom_visits (m : Message) (code : UInt8) (i : Nat) :
    m.getOptionFrom code i = ((m.getOptionVisits code i).find? fun visit => visit.code = code).map
      fun visit => (visit.offset + 2, visit.length) := by
  induction i using walk_induction m 2 with
  | stop i hstop =>
      rw [getOptionFrom_short hstop, getOptionVisits_stop hstop]
      rfl
  | atEnd i hroom hcode =>
      rw [getOptionFrom_end hcode, getOptionVisits_end hcode]
      rfl
  | turn i hroom hcode ih =>
      rw [getOptionFrom_turn code hroom hcode, getOptionVisits_turn code hroom hcode]
      by_cases hfound : m.option i = code
      · rw [if_pos hfound, if_pos hfound, List.find?_cons_of_pos (by simp [visitAt, hfound])]
        rfl
      · rw [if_neg hfound, if_neg hfound, List.find?_cons_of_neg (by simp [visitAt, hfound])]
        exact ih

end Records

section Offsets

/-- The loop that runs to its end visits what it comes to. -/
theorem optionLoopVisits_eq (hlengths : ∀ j ∈ m.offsetsFrom 1 i,
    j + m.optLength j < m.optionsSize) :
    m.optionLoopVisits i = (m.offsetsFrom 1 i).map m.visitAt := by
  induction i using walk_induction m 1 with
  | stop i hstop =>
      rw [optionLoopVisits_stop hstop, offsetsFrom_stop hstop, List.map_nil]
  | atEnd i hroom hcode =>
      rw [optionLoopVisits_end hcode, offsetsFrom_end hcode, List.map_nil]
  | turn i hroom hcode ih =>
      rw [offsetsFrom_turn hroom hcode, List.forall_mem_cons] at hlengths
      rw [optionLoopVisits_turn hroom hcode hlengths.1, offsetsFrom_turn hroom hcode,
        List.map_cons, ih hlengths.2]

/-- A search in vain visits everything that it can come to. -/
theorem getOptionVisits_eq {code : UInt8} (habsent : m.getOptionFrom code i = none) :
    m.getOptionVisits code i = (m.offsetsFrom 2 i).map m.visitAt := by
  induction i using walk_induction m 2 with
  | stop i hstop =>
      rw [getOptionVisits_stop hstop, offsetsFrom_stop hstop, List.map_nil]
  | atEnd i hroom hcode =>
      rw [getOptionVisits_end hcode, offsetsFrom_end hcode, List.map_nil]
  | turn i hroom hcode ih =>
      rw [getOptionFrom_turn code hroom hcode] at habsent
      have hother : m.option i ≠ code := by
        intro hfound
        rw [if_pos hfound] at habsent
        exact absurd habsent nofun
      rw [if_neg hother] at habsent
      rw [getOptionVisits_turn code hroom hcode, if_neg hother, offsetsFrom_turn hroom hcode,
        List.map_cons, ih habsent]

/-- The two loops come to the same options unless one of them is but a header at
the very end: the search needs a third byte there. -/
theorem offsetsFrom_agree_iff (m : Message) (i : Nat) :
    m.offsetsFrom 1 i = m.offsetsFrom 2 i ↔ ∀ j ∈ m.offsetsFrom 1 i, j + 2 ≠ m.optionsSize := by
  induction i using walk_induction m 1 with
  | stop i hstop =>
      rw [offsetsFrom_stop hstop, offsetsFrom_stop (by omega)]
      exact iff_of_true rfl fun j hj => absurd hj List.not_mem_nil
  | atEnd i hroom hcode =>
      rw [offsetsFrom_end hcode, offsetsFrom_end hcode]
      exact iff_of_true rfl fun j hj => absurd hj List.not_mem_nil
  | turn i hroom hcode ih =>
      rw [offsetsFrom_turn hroom hcode, List.forall_mem_cons]
      rcases Nat.lt_or_ge (i + 2) m.optionsSize with hmore | hlast
      · rw [offsetsFrom_turn hmore hcode, List.cons_eq_cons, ih]
        exact and_congr (iff_of_true rfl (by omega)) Iff.rfl
      · rw [offsetsFrom_stop hlast]
        exact iff_of_false (List.cons_ne_nil _ _) fun h => h.1 (by omega)

end Offsets

theorem readOptions_ends {old : Option DhcpInfo} (h : (m.readOptions old).1 = true) :
    (m.optionLoop DhcpInfo.zero 4).1 = true := by
  rw [readOptions] at h
  split at h
  · exact absurd h Bool.false_ne_true
  · cases hloop : m.optionLoop DhcpInfo.zero 4 with
    | mk ends info =>
        cases ends with
        | true => rfl
        | false =>
            rw [hloop] at h
            exact absurd h Bool.false_ne_true

/-- On a message that passes the option loop a search for an absent code visits the
same options exactly if the loop comes to none whose header ends the message. -/
theorem visits_agree_iff (m : Message) {old : Option DhcpInfo} {code : UInt8}
    (hpasses : (m.readOptions old).1 = true) (habsent : m.getOption code = none) :
    m.optionLoopVisits 4 = m.getOptionVisits code 4 ↔
      ∀ i ∈ m.processed, i + 2 ≠ m.optionsSize := by
  have hlengths := (optionLoop_passes_iff m DhcpInfo.zero 4).mp (readOptions_ends hpasses)
  rw [optionLoopVisits_eq hlengths, getOptionVisits_eq habsent,
    (List.map_injective_iff.mpr (visitAt_injective m)).eq_iff]
  exact offsetsFrom_agree_iff m 4

theorem truncatedLease_visits_agree_iff :
    truncatedLease.optionLoopVisits 4 = truncatedLease.getOptionVisits optServerId 4 ↔
      ∀ i ∈ truncatedLease.processed, i + 2 ≠ truncatedLease.optionsSize :=
  have hpasses : (truncatedLease.readOptions none).1 = true := by decide +kernel
  visits_agree_iff truncatedLease hpasses (by decide +kernel)

/-- An ACK whose last option is empty and is not followed by `OPT_END`. -/
def emptyLastOption : Message := ofOptions (cookie ++ [optMessageType, 1, dhcpAck, 80, 0])

/-- The loop visits the empty option and the search stops in front of it. -/
theorem emptyLastOption_visits : ¬ ∀ (m : Message) (old : Option DhcpInfo) (code : UInt8),
    (m.readOptions old).1 = true → m.getOption code = none →
      m.optionLoopVisits 4 = m.getOptionVisits code 4 := by
  intro h
  have hagree := h emptyLastOption none optServerId (by decide +kernel) (by decide +kernel)
  have hloop : (emptyLastOption.optionLoopVisits 4).length = 2 := by decide +kernel
  have hsearch : (emptyLastOption.getOptionVisits optServerId 4).length = 1 := by decide +kernel
  rw [hagree, hsearch] at hloop
  exact absurd hloop (by decide)

end Message

end AndroidX86Tv.Dhcp
