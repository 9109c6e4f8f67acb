import AndroidX86Tv.Dhcp.OptionWalk

/-!
# Options cut off by the end of the message

A message may end inside its last option. The length check of `configureDhcp` lets
such an option pass if a single byte of it is missing; `getOption` makes no check.
What lies behind the end is whatever the memory held before.
-/

namespace AndroidX86Tv.Dhcp

open ByteMemory CodeFields

namespace Message

variable {m m' : Message} {need i : Nat}

theorem Agrees.optionsSize_eq (h : m.Agrees m') : m'.optionsSize = m.optionsSize := by
  rw [optionsSize, optionsSize, h.size]

theorem Agrees.option_eq (h : m.Agrees m') (hi : i < m.optionsSize) : m'.option i = m.option i := by
  apply h.data
  rw [optionsSize] at hi
  omega

theorem Agrees.optLength_eq (h : m.Agrees m') (hi : i + 1 < m.optionsSize) :
    m'.optLength i = m.optLength i := by
  rw [optLength, h.option_eq hi, optLength]

theorem Agrees.load32_eq (h : m.Agrees m') {p : Nat} (hp : p + 4 ≤ m.mSize) :
    load32 m'.dhcpData p = load32 m.dhcpData p :=
  load32_congr fun k hk => h.data (p + k) (by omega)

theorem Agrees.load16_eq (h : m.Agrees m') {p : Nat} (hp : p + 2 ≤ m.mSize) :
    load16 m'.dhcpData p = load16 m.dhcpData p :=
  load16_congr fun k hk => h.data (p + k) (by omega)

section ConfigureDhcp

/-- The option is short of one byte and not of more. -/
def LacksOneByte (m : Message) (i : Nat) : Prop := i + 1 + m.optLength i = m.optionsSize

/-- The option loop passes the messages whose options are complete, and what it
stores is in the message. -/
structure LoopChecksLengths (m : Message) : Prop where
  passes_iff : (m.optionLoop DhcpInfo.zero 4).1 = true ↔ ∀ i ∈ m.processed, m.Inside i
  stored : ∀ m' old, m.Agrees m' → m'.readOptions old = m.readOptions old

/-- What is stored from a complete option is in the message. -/
theorem Agrees.record_eq (h : m.Agrees m') (hroom : i + 1 < m.optionsSize) (hinside : m.Inside i)
    (info : DhcpInfo) :
    info.record (m'.option i) (m'.option (i + 1)) m'.dhcpData (offsetOptions + i + 2) =
      info.record (m.option i) (m.option (i + 1)) m.dhcpData (offsetOptions + i + 2) := by
  rw [Inside, optLength, optionsSize] at hinside
  rw [h.option_eq hroom, h.option_eq (Nat.lt_of_succ_lt hroom)]
  apply DhcpInfo.record_congr
  · intro htwo
    rw [htwo] at hinside
    have hlength : (2 : UInt8).toNat = 2 := rfl
    exact h.load16_eq (by omega)
  · exact fun k hk => h.load32_eq (by omega)

theorem Agrees.optionLoop_eq (h : m.Agrees m') (info : DhcpInfo) (i : Nat)
    (hwhole : ∀ j ∈ m.offsetsFrom 1 i, ¬ m.LacksOneByte j) :
    m'.optionLoop info i = m.optionLoop info i := by
  have hsize := h.optionsSize_eq
  induction i using walk_induction m 1 generalizing info with
  | stop i hstop => rw [optionLoop_short hstop, optionLoop_short (by rwa [hsize])]
  | atEnd i hroom hcode =>
      have hcode' : m'.option i = optEnd := (h.option_eq (by omega)).trans hcode
      rw [optionLoop_end hcode, optionLoop_end hcode']
  | turn i hroom hcode ih =>
      have hcode' : m'.option i ≠ optEnd := by rwa [h.option_eq (by omega)]
      have hlength := h.optLength_eq hroom
      rw [offsetsFrom_turn hroom hcode, List.forall_mem_cons, LacksOneByte] at hwhole
      cases Nat.lt_or_ge (i + m.optLength i) m.optionsSize with
      | inl hlt =>
          have hinside : m.Inside i := by
            rw [Inside]
            omega
          rw [optionLoop_turn info hroom hcode hlt,
            optionLoop_turn info (by rwa [hsize]) hcode' (by rwa [hsize, hlength]),
            h.record_eq hroom hinside, hlength, ih _ hwhole.2]
      | inr hge =>
          rw [optionLoop_rejects info hroom hcode hge,
            optionLoop_rejects info (by rwa [hsize]) hcode' (by rwa [hsize, hlength])]

theorem Agrees.readOptions_eq (h : m.Agrees m') (hwhole : ∀ j ∈ m.processed, ¬ m.LacksOneByte j)
    (old : Option DhcpInfo) : m'.readOptions old = m.readOptions old := by
  by_cases hshort : m.optionsSize < 4
  · rw [readOptions, readOptions, if_pos hshort, if_pos (by rwa [h.optionsSize_eq])]
  · have hyiaddr : m'.yiaddr = m.yiaddr := by
      apply h.load32_eq
      rw [optionsSize, offsetOptions_eq] at hshort
      omega
    rw [readOptions, readOptions, if_neg hshort, if_neg (by rwa [h.optionsSize_eq]),
      h.optionLoop_eq _ 4 hwhole, hyiaddr]

/-- An option that lacks one byte passes the check, and so do all before it. -/
theorem passes_of_lacksOneByte (hi : i ∈ m.processed) (hlacks : m.LacksOneByte i) :
    (m.optionLoop DhcpInfo.zero 4).1 = true := by
  apply (optionLoop_passes_iff m DhcpInfo.zero 4).mpr
  intro j hj
  have hroom := (mem_offsetsFrom hi).2.1
  have hroom' := (mem_offsetsFrom hj).2.1
  rw [LacksOneByte] at hlacks
  rcases offsetsFrom_apart hj hi with heq | hbefore | hbehind
  · rw [heq]
    omega
  · omega
  · omega

/-- The length check does its work on exactly the messages in which no option that
the loop comes to lacks one byte. -/
theorem loopChecksLengths_iff (m : Message) :
    m.LoopChecksLengths ↔ ∀ i ∈ m.processed, ¬ m.LacksOneByte i := by
  constructor
  · intro h i hi hlacks
    have hinside := h.passes_iff.mp (passes_of_lacksOneByte hi hlacks) i hi
    rw [Inside] at hinside
    rw [LacksOneByte] at hlacks
    omega
  · intro hwhole
    constructor
    · rw [optionLoop_passes_iff]
      refine forall₂_congr fun i hi => ?_
      have hne := hwhole i hi
      rw [LacksOneByte] at hne
      rw [Inside]
      omega
    · exact fun m' old hagrees => hagrees.readOptions_eq hwhole old

/-- A message that ends with the given bytes of its options. -/
def ofOptions (options : List UInt8) : Message :=
  ⟨ofBytes (List.replicate offsetOptions 0 ++ options), offsetOptions + options.length⟩

/-- An ACK whose lease time is cut off behind three of its four bytes. -/
def truncatedLease : Message := ofOptions (cookie ++ [optLeaseTime, 4, 0, 0, 1])

theorem truncatedLease_passes : ¬ ∀ m : Message, m.LoopChecksLengths := by
  intro h
  have hpasses : (truncatedLease.optionLoop DhcpInfo.zero 4).1 = true := by decide +kernel
  have hprocessed : 4 ∈ truncatedLease.processed := by decide +kernel
  have hinside : 4 + 2 + truncatedLease.optLength 4 ≤ truncatedLease.optionsSize :=
    (h truncatedLease).passes_iff.mp hpasses 4 hprocessed
  exact absurd hinside (by decide +kernel)

end ConfigureDhcp

section GetOption

/-- What `getOption` returns lies in the message, so that what is read from it
depends on the message only and is in the options array. -/
structure SearchesInside (m : Message) : Prop where
  inside : ∀ code opt length, m.getOption code = some (opt, length) →
    opt + length.toNat ≤ m.optionsSize
  same : ∀ m', m.Agrees m' →
    m'.type = m.type ∧ m'.serverId = m.serverId ∧ m'.requestedIp = m.requestedIp
  inArray : ∀ code opt length, m.getOption code = some (opt, length) →
    offsetOptions + opt + length.toNat ≤ capacity

variable {code : UInt8}

theorem getOption_eq (m : Message) (code : UInt8) :
    m.getOption code = (m.searched.find? fun j => m.option j = code).map
      fun j => (j + 2, m.option (j + 1)) :=
  getOptionFrom_eq m code 4

/-- In an increasing list `find?` finds the least number. -/
theorem find?_eq_some_iff_of_increasing {xs : List Nat} (h : xs.Pairwise (· < ·)) {p : Nat → Bool}
    {i : Nat} : xs.find? p = some i ↔ i ∈ xs ∧ p i = true ∧ ∀ j ∈ xs, j < i → p j = false := by
  rw [List.find?_eq_some_iff_append]
  constructor
  · rintro ⟨hi, before, after, rfl, hbefore⟩
    obtain ⟨-, hafter, -⟩ := List.pairwise_append.mp h
    refine ⟨List.mem_append_right before List.mem_cons_self, hi, fun j hj hlt => ?_⟩
    rcases List.mem_append.mp hj with hmem | hmem
    · simpa using hbefore j hmem
    · rcases List.mem_cons.mp hmem with rfl | hlater
      · exact absurd hlt (Nat.lt_irrefl j)
      · exact absurd hlt (Nat.lt_asymm ((List.pairwise_cons.mp hafter).1 j hlater))
  · rintro ⟨hmem, hi, hleast⟩
    obtain ⟨before, after, rfl⟩ := List.append_of_mem hmem
    obtain ⟨-, -, hless⟩ := List.pairwise_append.mp h
    refine ⟨hi, before, after, rfl, fun j hj => ?_⟩
    simp [hleast j (List.mem_append_left _ hj) (hless j hj i List.mem_cons_self)]

theorem searched_increasing (m : Message) : m.searched.Pairwise (· < ·) :=
  (offsetsFrom_pairwise m 2 4).imp fun hle => by omega

/-- `getOption` answers from the first option with the code. -/
theorem getOption_eq_some_iff {opt : Nat} {length : UInt8} :
    m.getOption code = some (opt, length) ↔
      ∃ i, (i ∈ m.searched ∧ m.option i = code ∧ ∀ j ∈ m.searched, j < i → m.option j ≠ code) ∧
        i + 2 = opt ∧ m.option (i + 1) = length := by
  rw [getOption_eq, Option.map_eq_some_iff]
  refine exists_congr fun i => ?_
  rw [find?_eq_some_iff_of_increasing m.searched_increasing, Prod.mk.injEq]
  simp only [decide_eq_true_eq, decide_eq_false_iff_not]

/-- Each option that is cut off repeats the code of an earlier one. -/
def CutOffRepeats (m : Message) : Prop :=
  ∀ i ∈ m.searched, ¬ m.Inside i → ∃ j ∈ m.searched, j < i ∧ m.option j = m.option i

/-- What `getOption` returns lies in the message just if no option that is cut off
is the first of its code. -/
theorem getOption_inside_iff (m : Message) :
    (∀ code opt length, m.getOption code = some (opt, length) →
      opt + length.toNat ≤ m.optionsSize) ↔ m.CutOffRepeats := by
  constructor
  · intro h i hi hcut
    by_contra hfirst
    refine hcut (h (m.option i) (i + 2) (m.option (i + 1)) (getOption_eq_some_iff.mpr ?_))
    exact ⟨i, ⟨hi, rfl, fun j hj hlt hcode => hfirst ⟨j, hj, hlt, hcode⟩⟩, rfl, rfl⟩
  · intro h code opt length hfound
    obtain ⟨i, ⟨hi, rfl, hbefore⟩, rfl, rfl⟩ := getOption_eq_some_iff.mp hfound
    by_contra hcut
    obtain ⟨j, hj, hlt, hcode⟩ := h i hi hcut
    exact hbefore j hj hlt hcode

theorem Agrees.getOptionFrom_eq (h : m.Agrees m') (code : UInt8) (i : Nat) :
    m'.getOptionFrom code i = m.getOptionFrom code i := by
  have hsize := h.optionsSize_eq
  induction i using walk_induction m 2 with
  | stop i hstop => rw [getOptionFrom_short hstop, getOptionFrom_short (by rwa [hsize])]
  | atEnd i hroom hcode =>
      have hcode' : m'.option i = optEnd := (h.option_eq (by omega)).trans hcode
      rw [getOptionFrom_end hcode, getOptionFrom_end hcode']
  | turn i hroom hcode ih =>
      have hcode' : m'.option i ≠ optEnd := by rwa [h.option_eq (by omega)]
      rw [getOptionFrom_turn code hroom hcode, getOptionFrom_turn code (by rwa [hsize]) hcode',
        h.optLength_eq (by omega), h.option_eq (by omega), h.option_eq (by omega), ih]

theorem Agrees.getOption_eq (h : m.Agrees m') (code : UInt8) :
    m'.getOption code = m.getOption code :=
  h.getOptionFrom_eq code 4

/-- Where what is found lies in the message, its byte is the same. -/
theorem Agrees.type_eq (h : m.Agrees m') (hinside : ∀ code opt length,
    m.getOption code = some (opt, length) → opt + length.toNat ≤ m.optionsSize) :
    m'.type = m.type := by
  rw [type, type, h.getOption_eq]
  rcases hfound : m.getOption optMessageType with _ | ⟨opt, length⟩
  · rfl
  · refine ite_congr rfl (fun hone => h.option_eq ?_) fun _ => rfl
    have hend := hinside _ _ _ hfound
    rw [hone, show (1 : UInt8).toNat = 1 from rfl] at hend
    exact hend

/-- Where what is found lies in the message, its address is the same. -/
theorem Agrees.addressOption_eq (h : m.Agrees m') (hinside : ∀ code opt length,
    m.getOption code = some (opt, length) → opt + length.toNat ≤ m.optionsSize) (code : UInt8) :
    m'.addressOption code = m.addressOption code := by
  rw [addressOption, addressOption, h.getOption_eq]
  rcases hfound : m.getOption code with _ | ⟨opt, length⟩
  · rfl
  · refine ite_congr rfl (fun hfour => h.load32_eq ?_) fun _ => rfl
    have hend := hinside _ _ _ hfound
    rw [hfour, show (4 : UInt8).toNat = 4 from rfl, optionsSize] at hend
    omega

/-- `getOption` stays inside exactly the messages in which an option that is cut off
repeats the code of an earlier one. -/
theorem searchesInside_iff (hsize : m.mSize ≤ capacity) : m.SearchesInside ↔ m.CutOffRepeats := by
  rw [← getOption_inside_iff]
  constructor
  · exact fun h => h.inside
  · intro hinside
    constructor
    · exact hinside
    · exact fun m' hagrees => ⟨hagrees.type_eq hinside, hagrees.addressOption_eq hinside _,
        hagrees.addressOption_eq hinside _⟩
    · intro code opt length hfound
      have hend := hinside code opt length hfound
      obtain ⟨i, -, rfl, -⟩ := getOption_eq_some_iff.mp hfound
      rw [optionsSize] at hend
      omega

/-- A server identifier of four bytes of which one has been received. -/
def truncatedServerId : Message := ofOptions (cookie ++ [optServerId, 4, 10])

theorem truncatedServerId_small : truncatedServerId.mSize ≤ capacity := by decide +kernel

theorem truncatedServerId_searchesInside_iff :
    truncatedServerId.SearchesInside ↔ truncatedServerId.CutOffRepeats :=
  searchesInside_iff truncatedServerId_small

theorem truncatedServerId_found : ¬ ∀ m : Message, m.mSize ≤ capacity → m.SearchesInside := by
  intro h
  have hfound : truncatedServerId.getOption optServerId = some (6, 4) := by decide +kernel
  have hend := (h truncatedServerId truncatedServerId_small).inside optServerId 6 4 hfound
  exact absurd hend (by decide +kernel)

end GetOption

end Message

end AndroidX86Tv.Dhcp
