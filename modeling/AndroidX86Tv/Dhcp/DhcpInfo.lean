import AndroidX86Tv.Dhcp.Carries

/-!
# The option loop of `DhcpClient::configureDhcp`

The loop walks the options of an ACK once and stores the ones it knows in
`mDhcpInfo`. It gives up on the message at a length that runs past its end.
-/

namespace AndroidX86Tv.Dhcp

open ByteMemory CodeFields

/-- `DhcpClient::DhcpInfo`. -/
@[ext]
structure DhcpInfo where
  t1 : UInt32
  t2 : UInt32
  leaseTime : UInt32
  mtu : UInt16
  dns : Fin 4 → InAddr
  gateway : InAddr
  subnetMask : InAddr
  serverId : InAddr
  offeredAddress : InAddr

namespace DhcpInfo

/-- The effect of `memset(&mDhcpInfo, 0, sizeof(mDhcpInfo))`. -/
def zero : DhcpInfo := ⟨0, 0, 0, 0, fun _ => 0, 0, 0, 0, 0⟩

/-- The `switch` of the loop: an option with this code and length, whose value
stands at `opt`, is stored where the length is the expected one. -/
def record (info : DhcpInfo) (optCode optLength : UInt8) (m : Memory) (opt : Nat) : DhcpInfo :=
  if optCode = optLeaseTime then
    if optLength = 4 then { info with leaseTime := swap32 (load32 m opt) } else info
  else if optCode = optT1 then
    if optLength = 4 then { info with t1 := swap32 (load32 m opt) } else info
  else if optCode = optT2 then
    if optLength = 4 then { info with t2 := swap32 (load32 m opt) } else info
  else if optCode = optSubnetMask then
    if optLength = 4 then { info with subnetMask := load32 m opt } else info
  else if optCode = optGateway then
    if optLength ≥ 4 then { info with gateway := load32 m opt } else info
  else if optCode = optMtu then
    if optLength = 2 then { info with mtu := swap16 (load16 m opt) } else info
  else if optCode = optDns then
    { info with dns := fun k =>
        if optLength.toNat ≥ 4 * (k + 1) then load32 m (opt + 4 * k) else info.dns k }
  else if optCode = optServerId then
    if optLength = 4 then { info with serverId := load32 m opt } else info
  else info

end DhcpInfo

namespace Message

/-- The option loop, entered with its index and what it has stored so far. The
flag tells whether it ran to its end. -/
def optionLoop (m : Message) (info : DhcpInfo) (i : Nat) : Bool × DhcpInfo :=
  if i + 1 < m.optionsSize then
    if m.option i = optEnd then (true, info)
    else if offsetOptions + (m.option (i + 1)).toNat + i ≥ m.mSize then (false, info)
    else
      optionLoop m
        (info.record (m.option i) (m.option (i + 1)) m.dhcpData (offsetOptions + i + 2))
        (i + 2 + (m.option (i + 1)).toNat)
  else (true, info)
termination_by m.optionsSize - i

/-- The part of `configureDhcp` that reads the message: whether it goes on to the
lease, and `mDhcpInfo` as it leaves it. -/
def readOptions (m : Message) (mDhcpInfo : Option DhcpInfo) : Bool × Option DhcpInfo :=
  if m.optionsSize < 4 then (false, mDhcpInfo)
  else
    match m.optionLoop DhcpInfo.zero 4 with
    | (true, info) => (true, some { info with offeredAddress := m.yiaddr })
    | (false, info) => (false, some info)

/-- The message and the old record decide what is read. -/
theorem readOptions_unique {m : Message} {old : Option DhcpInfo} {ok ok' : Bool}
    {info info' : DhcpInfo} (h : m.readOptions old = (ok, some info))
    (h' : m.readOptions old = (ok', some info')) : ok = ok' ∧ info = info' := by
  have hpair := Prod.ext_iff.mp (h.symm.trans h')
  exact ⟨hpair.1, Option.some.inj hpair.2⟩

/-- One turn of the loop over a field that lies inside the message. -/
theorem optionLoop_field {m : Message} {i : Nat} {f : Field} {rest : List UInt8}
    (hbytes : Holds m.dhcpData (offsetOptions + i) (f.bytes ++ rest))
    (hsize : m.mSize = offsetOptions + i + (f.bytes ++ rest).length) (hcode : f.code ≠ optEnd)
    (info : DhcpInfo) :
    m.optionLoop info i = m.optionLoop
      (info.record f.code (UInt8.ofNat f.value.length) m.dhcpData (offsetOptions + i + 2))
      (i + 2 + f.value.length) := by
  obtain ⟨hc, hl, -, -⟩ := holds_encode_cons hbytes
  have hopt : m.option i = f.code := by rw [option, hc]
  have hlen : m.option (i + 1) = UInt8.ofNat f.value.length := by
    rw [option, ← Nat.add_assoc, hl]
  rw [List.length_append, Field.bytes_length] at hsize
  have hroom : i + 1 < m.optionsSize := by
    rw [optionsSize]
    omega
  have hinside : ¬ offsetOptions + f.value.length + i ≥ m.mSize := by omega
  rw [optionLoop, if_pos hroom, hopt, hlen, if_neg hcode, f.toNat_length, if_neg hinside]

theorem optionLoop_short {m : Message} {i : Nat} (h : m.optionsSize ≤ i + 1) (info : DhcpInfo) :
    m.optionLoop info i = (true, info) := by
  rw [optionLoop, if_neg (by omega)]

theorem optionLoop_end {m : Message} {i : Nat} (h : m.option i = optEnd) (info : DhcpInfo) :
    m.optionLoop info i = (true, info) := by
  rw [optionLoop, if_pos h]
  apply ite_self

end Message

/-- The part of the fields that one member of `DhcpInfo` takes: the value with
the code, if its length is an expected one. -/
def stored {β : Type*} (fs : List Field) (code : UInt8) (expected : Nat → Bool)
    (read : Memory → β) (unset : β) : β :=
  match lookup code fs with
  | some v => if expected v.length then read (ofBytes v) else unset
  | none => unset

/-- What the fields say about the lease, whatever their order. -/
def DhcpInfo.ofFields (fs : List Field) : DhcpInfo where
  t1 := stored fs optT1 (· = 4) (fun v => swap32 (load32 v 0)) 0
  t2 := stored fs optT2 (· = 4) (fun v => swap32 (load32 v 0)) 0
  leaseTime := stored fs optLeaseTime (· = 4) (fun v => swap32 (load32 v 0)) 0
  mtu := stored fs optMtu (· = 2) (fun v => swap16 (load16 v 0)) 0
  dns k := stored fs optDns (· ≥ 4 * (k + 1)) (fun v => load32 v (4 * k)) 0
  gateway := stored fs optGateway (· ≥ 4) (fun v => load32 v 0) 0
  subnetMask := stored fs optSubnetMask (· = 4) (fun v => load32 v 0) 0
  serverId := stored fs optServerId (· = 4) (fun v => load32 v 0) 0
  offeredAddress := 0

/-- `record` for a field whose value is given. -/
def DhcpInfo.recordField (info : DhcpInfo) (f : Field) : DhcpInfo :=
  info.record f.code (UInt8.ofNat f.value.length) (ofBytes f.value) 0

/-- `record` reads the words that the length covers and nothing else. -/
theorem DhcpInfo.record_congr (info : DhcpInfo) (optCode optLength : UInt8) {m m' : Memory}
    {opt opt' : Nat} (hhalf : optLength = 2 → load16 m opt = load16 m' opt')
    (hword : ∀ k, optLength.toNat ≥ 4 * (k + 1) →
      load32 m (opt + 4 * k) = load32 m' (opt' + 4 * k)) :
    info.record optCode optLength m opt = info.record optCode optLength m' opt' := by
  have hfirst : optLength ≥ 4 → load32 m opt = load32 m' opt' := fun h =>
    hword 0 (UInt8.le_iff_toNat_le.mp h)
  have hfour : optLength = 4 → load32 m opt = load32 m' opt' := fun h =>
    hfirst (h ▸ UInt8.le_refl 4)
  rw [record, record]
  refine ite_congr rfl (fun _ => ite_congr rfl (fun h => ?_) fun _ => rfl) fun _ => ?_
  · rw [hfour h]
  refine ite_congr rfl (fun _ => ite_congr rfl (fun h => ?_) fun _ => rfl) fun _ => ?_
  · rw [hfour h]
  refine ite_congr rfl (fun _ => ite_congr rfl (fun h => ?_) fun _ => rfl) fun _ => ?_
  · rw [hfour h]
  refine ite_congr rfl (fun _ => ite_congr rfl (fun h => ?_) fun _ => rfl) fun _ => ?_
  · rw [hfour h]
  refine ite_congr rfl (fun _ => ite_congr rfl (fun h => ?_) fun _ => rfl) fun _ => ?_
  · rw [hfirst h]
  refine ite_congr rfl (fun _ => ite_congr rfl (fun h => ?_) fun _ => rfl) fun _ => ?_
  · rw [hhalf h]
  refine ite_congr rfl (fun _ => ?_) fun _ => ?_
  · congr 1
    funext k
    exact ite_congr rfl (fun h => hword k h) fun _ => rfl
  refine ite_congr rfl (fun _ => ite_congr rfl (fun h => ?_) fun _ => rfl) fun _ => rfl
  rw [hfour h]

theorem DhcpInfo.record_of_holds {m : Memory} {p : Nat} {f : Field} (h : Holds m p f.value)
    (info : DhcpInfo) :
    info.record f.code (UInt8.ofNat f.value.length) m p = info.recordField f := by
  apply record_congr
  · intro hl
    exact h.load16_eq (k := 0) (Nat.le_of_eq ((f.length_eq_iff 2 (by decide)).mp hl).symm)
  · intro k hk
    rw [f.toNat_length] at hk
    rw [Nat.zero_add]
    exact h.load32_eq (by omega)

/-- The part of one field that one member takes. -/
def took {β : Type*} (f : Field) (code : UInt8) (expected : Nat → Bool) (read : Memory → β)
    (old : β) : β :=
  if f.code = code then
    if expected f.value.length then read (ofBytes f.value) else old
  else old

/-- The eight codes, written out for comparisons. -/
theorem codes : optLeaseTime = 51 ∧ optT1 = 58 ∧ optT2 = 59 ∧ optSubnetMask = 1 ∧
    optGateway = 3 ∧ optMtu = 26 ∧ optDns = 6 ∧ optServerId = 54 :=
  ⟨rfl, rfl, rfl, rfl, rfl, rfl, rfl, rfl⟩

/-- `record` member by member. -/
theorem DhcpInfo.recordField_eq (info : DhcpInfo) (f : Field) :
    info.recordField f =
      { t1 := took f optT1 (· = 4) (fun v => swap32 (load32 v 0)) info.t1
        t2 := took f optT2 (· = 4) (fun v => swap32 (load32 v 0)) info.t2
        leaseTime := took f optLeaseTime (· = 4) (fun v => swap32 (load32 v 0)) info.leaseTime
        mtu := took f optMtu (· = 2) (fun v => swap16 (load16 v 0)) info.mtu
        dns := fun k => took f optDns (· ≥ 4 * (k + 1)) (fun v => load32 v (4 * k)) (info.dns k)
        gateway := took f optGateway (· ≥ 4) (fun v => load32 v 0) info.gateway
        subnetMask := took f optSubnetMask (· = 4) (fun v => load32 v 0) info.subnetMask
        serverId := took f optServerId (· = 4) (fun v => load32 v 0) info.serverId
        offeredAddress := info.offeredAddress } := by
  have hfour : UInt8.ofNat f.value.length = 4 ↔ f.value.length = 4 :=
    f.length_eq_iff 4 (by decide)
  have htwo : UInt8.ofNat f.value.length = 2 ↔ f.value.length = 2 :=
    f.length_eq_iff 2 (by decide)
  have hatLeast : UInt8.ofNat f.value.length ≥ 4 ↔ f.value.length ≥ 4 :=
    f.length_ge_iff 4 (by decide)
  simp only [recordField, record, hfour, htwo, hatLeast, f.toNat_length, Nat.zero_add, took,
    decide_eq_true_eq]
  -- the code is one of the eight known ones, or no member changes
  by_cases hlease : f.code = optLeaseTime
  · by_cases hl : f.value.length = 4 <;> simp [hlease, hl, codes]
  by_cases ht1 : f.code = optT1
  · by_cases hl : f.value.length = 4 <;> simp [ht1, hl, codes]
  by_cases ht2 : f.code = optT2
  · by_cases hl : f.value.length = 4 <;> simp [ht2, hl, codes]
  by_cases hmask : f.code = optSubnetMask
  · by_cases hl : f.value.length = 4 <;> simp [hmask, hl, codes]
  by_cases hgateway : f.code = optGateway
  · by_cases hl : f.value.length ≥ 4 <;> simp [hgateway, hl, codes]
  by_cases hmtu : f.code = optMtu
  · by_cases hl : f.value.length = 2 <;> simp [hmtu, hl, codes]
  by_cases hdns : f.code = optDns
  · simp [hdns, codes]
  by_cases hserver : f.code = optServerId
  · by_cases hl : f.value.length = 4 <;> simp [hserver, hl, codes]
  simp only [if_neg hlease, if_neg ht1, if_neg ht2, if_neg hmask, if_neg hgateway, if_neg hmtu,
    if_neg hdns, if_neg hserver]

theorem foldl_took {β : Type*} (cell : DhcpInfo → β) (code : UInt8) (expected : Nat → Bool)
    (read : Memory → β)
    (hcell : ∀ info f, cell (info.recordField f) = took f code expected read (cell info))
    {fs : List Field} (hnodup : (fs.map Field.code).Nodup) (info : DhcpInfo) :
    cell (fs.foldl DhcpInfo.recordField info) = stored fs code expected read (cell info) := by
  have hfold := foldl_lookup DhcpInfo.recordField cell code
    (fun v old => if expected v.length then read (ofBytes v) else old) hcell hnodup info
  refine hfold.trans ?_
  unfold stored
  cases lookup code fs with
  | none => rfl
  | some v => rfl

/-- Recording all fields of an options field without repeated codes. -/
theorem DhcpInfo.foldl_recordField {fs : List Field} (hnodup : (fs.map Field.code).Nodup) :
    fs.foldl DhcpInfo.recordField zero = ofFields fs := by
  have hoffered : ∀ info, (fs.foldl DhcpInfo.recordField info).offeredAddress =
      info.offeredAddress := by
    clear hnodup
    induction fs with
    | nil => exact fun _ => rfl
    | cons f fs ih =>
        intro info
        rw [List.foldl_cons, ih, recordField_eq]
  apply DhcpInfo.ext
  · exact foldl_took DhcpInfo.t1 _ _ _ (fun _ _ => by rw [recordField_eq]) hnodup zero
  · exact foldl_took DhcpInfo.t2 _ _ _ (fun _ _ => by rw [recordField_eq]) hnodup zero
  · exact foldl_took DhcpInfo.leaseTime _ _ _ (fun _ _ => by rw [recordField_eq]) hnodup zero
  · exact foldl_took DhcpInfo.mtu _ _ _ (fun _ _ => by rw [recordField_eq]) hnodup zero
  · funext k
    exact foldl_took (fun info => info.dns k) _ _ _ (fun _ _ => by rw [recordField_eq]) hnodup zero
  · exact foldl_took DhcpInfo.gateway _ _ _ (fun _ _ => by rw [recordField_eq]) hnodup zero
  · exact foldl_took DhcpInfo.subnetMask _ _ _ (fun _ _ => by rw [recordField_eq]) hnodup zero
  · exact foldl_took DhcpInfo.serverId _ _ _ (fun _ _ => by rw [recordField_eq]) hnodup zero
  · exact hoffered zero

namespace Message

/-- The loop over encoded fields records them one after the other. -/
theorem optionLoop_fields {m : Message} {fs : List Field} {tail : List UInt8} {i : Nat}
    (hbytes : Holds m.dhcpData (offsetOptions + i) (encode fs ++ tail))
    (hsize : m.mSize = offsetOptions + i + (encode fs).length + tail.length)
    (hcodes : ∀ f ∈ fs, f.code ≠ optEnd) (info : DhcpInfo) :
    m.optionLoop info i =
      m.optionLoop (fs.foldl DhcpInfo.recordField info) (i + (encode fs).length) := by
  induction fs generalizing i info with
  | nil => rfl
  | cons f fs ih =>
      rw [encode_cons, List.append_assoc] at hbytes
      obtain ⟨-, -, hvalue, hrest⟩ := holds_encode_cons hbytes
      rw [encode_cons, List.length_append] at hsize
      have hfield := optionLoop_field hbytes
        (by simp only [List.length_append]; omega) (hcodes f (by simp)) info
      rw [Field.bytes_length] at hsize
      rw [hfield, DhcpInfo.record_of_holds hvalue, List.foldl_cons, ih]
      · congr 1
        rw [encode_cons, List.length_append, Field.bytes_length]
        omega
      · rwa [Nat.add_assoc (offsetOptions + i), Nat.add_assoc offsetOptions, ← Nat.add_assoc i]
          at hrest
      · omega
      · exact fun g hg => hcodes g (by simp [hg])

/-- `mDhcpInfo` after a message with the fields, each code once, if the loop stops
behind them. -/
theorem readOptions_fields {m : Message} {fs : List Field} {tail : List UInt8}
    (h : Carries m fs tail) (hcodes : ∀ f ∈ fs, f.code ≠ optEnd)
    (hnodup : (fs.map Field.code).Nodup) {going : Bool}
    (hstop : m.optionLoop (DhcpInfo.ofFields fs) (4 + (encode fs).length) =
      (going, DhcpInfo.ofFields fs)) (old : Option DhcpInfo) :
    m.readOptions old = (going, some { DhcpInfo.ofFields fs with
      offeredAddress := if going then m.yiaddr else 0 }) := by
  have hsize := h.optionsSize
  have hloop : m.optionLoop DhcpInfo.zero 4 = (going, DhcpInfo.ofFields fs) := by
    rw [optionLoop_fields h.holds_fields _ hcodes, DhcpInfo.foldl_recordField hnodup, hstop]
    have hle := h.le_size
    rw [optionsSize] at hsize
    omega
  rw [readOptions, if_neg (by omega), hloop]
  cases going <;> rfl

theorem readOptions_end {m : Message} {fs : List Field} {trailing : List UInt8}
    (h : Carries m fs (optEnd :: trailing)) (hcodes : ∀ f ∈ fs, f.code ≠ optEnd)
    (hnodup : (fs.map Field.code).Nodup) (old : Option DhcpInfo) :
    m.readOptions old =
      (true, some { DhcpInfo.ofFields fs with offeredAddress := m.yiaddr }) :=
  readOptions_fields h hcodes hnodup (optionLoop_end h.option_tail _) old

end Message

end AndroidX86Tv.Dhcp
