import AndroidX86Tv.Dhcp.Renewal

/-!
# The offsets of T1 and T2

`configureDhcp` takes T1 and T2 from the ACK as they are and estimates what the
ACK does not give. The estimate of T2 multiplies the lease time by seven in 32
bits.
-/

namespace AndroidX86Tv.Dhcp

open ByteMemory EventHistory

/-- T1 comes before T2 and T2 before the end of the lease, and an estimate is the
exact fraction of the lease. -/
structure DhcpInfo.InOrder (info : DhcpInfo) : Prop where
  t1_le_t2 : Client.t1Seconds info ≤ Client.t2Seconds info
  t2_le_lease : Client.t2Seconds info ≤ info.leaseTime
  t1_estimate : info.t1 = 0 → (Client.t1Seconds info).toNat = info.leaseTime.toNat / 2
  t2_estimate : info.t2 = 0 → (Client.t2Seconds info).toNat = 7 * info.leaseTime.toNat / 8

/-- The server gives a T2 within the lease, not before T1; or it gives none, seven
times the lease fits 32 bits, and a T1 that it gives is within seven eighths. -/
def DhcpInfo.TimersFit (info : DhcpInfo) : Prop :=
  if info.t2 = 0 then
    7 * info.leaseTime.toNat < 2 ^ 32 ∧
      (info.t1 ≠ 0 → info.t1.toNat ≤ 7 * info.leaseTime.toNat / 8)
  else
    info.t2 ≤ info.leaseTime ∧
      if info.t1 = 0 then info.leaseTime.toNat / 2 ≤ info.t2.toNat else info.t1 ≤ info.t2

namespace Client

theorem t1Seconds_given {info : DhcpInfo} (h : info.t1 ≠ 0) : t1Seconds info = info.t1 :=
  if_pos (UInt32.pos_iff_ne_zero.mpr h)

theorem t2Seconds_given {info : DhcpInfo} (h : info.t2 ≠ 0) : t2Seconds info = info.t2 :=
  if_pos (UInt32.pos_iff_ne_zero.mpr h)

theorem t1Seconds_estimate {info : DhcpInfo} (h : info.t1 = 0) :
    (t1Seconds info).toNat = info.leaseTime.toNat / 2 := by
  rw [t1Seconds, if_neg (by simp [h]), UInt32.toNat_div]
  rfl

theorem t2Seconds_estimate {info : DhcpInfo} (h : info.t2 = 0) :
    (t2Seconds info).toNat = 7 * info.leaseTime.toNat % 2 ^ 32 / 8 := by
  rw [t2Seconds, if_neg (by simp [h]), UInt32.toNat_div, UInt32.toNat_mul, Nat.mul_comm]
  rfl

/-- The estimate of T2 is exact just where the product does not wrap. -/
theorem t2Seconds_exact_iff {info : DhcpInfo} (h : info.t2 = 0) :
    (t2Seconds info).toNat = 7 * info.leaseTime.toNat / 8 ↔ 7 * info.leaseTime.toNat < 2 ^ 32 := by
  rw [t2Seconds_estimate h]
  constructor
  · intro hexact
    by_contra hwraps
    omega
  · intro hfits
    rw [Nat.mod_eq_of_lt hfits]

/-- Without a T2 of the server. -/
theorem inOrder_iff_of_estimate {info : DhcpInfo} (h : info.t2 = 0) :
    info.InOrder ↔ 7 * info.leaseTime.toNat < 2 ^ 32 ∧
      (info.t1 ≠ 0 → info.t1.toNat ≤ 7 * info.leaseTime.toNat / 8) := by
  constructor
  · rintro ⟨hle, -, -, hestimate⟩
    refine ⟨(t2Seconds_exact_iff h).mp (hestimate h), fun hgiven => ?_⟩
    rw [t1Seconds_given hgiven] at hle
    rw [← hestimate h]
    exact UInt32.le_iff_toNat_le.mp hle
  · rintro ⟨hfits, hgiven⟩
    have ht2 := (t2Seconds_exact_iff h).mpr hfits
    have hle : (t1Seconds info).toNat ≤ 7 * info.leaseTime.toNat / 8 := by
      by_cases ht1 : info.t1 = 0
      · rw [t1Seconds_estimate ht1]
        omega
      · rw [t1Seconds_given ht1]
        exact hgiven ht1
    constructor
    · rwa [UInt32.le_iff_toNat_le, ht2]
    · rw [UInt32.le_iff_toNat_le, ht2]
      omega
    · exact t1Seconds_estimate
    · exact fun _ => ht2

/-- With a T2 of the server. -/
theorem inOrder_iff_of_given {info : DhcpInfo} (h : info.t2 ≠ 0) :
    info.InOrder ↔ info.t2 ≤ info.leaseTime ∧
      if info.t1 = 0 then info.leaseTime.toNat / 2 ≤ info.t2.toNat else info.t1 ≤ info.t2 := by
  have hfirst : t1Seconds info ≤ info.t2 ↔
      if info.t1 = 0 then info.leaseTime.toNat / 2 ≤ info.t2.toNat else info.t1 ≤ info.t2 := by
    by_cases ht1 : info.t1 = 0
    · rw [if_pos ht1, UInt32.le_iff_toNat_le, t1Seconds_estimate ht1]
    · rw [if_neg ht1, t1Seconds_given ht1]
  rw [← hfirst]
  constructor
  · rintro ⟨hle, hlease, -, -⟩
    rw [t2Seconds_given h] at hle hlease
    exact ⟨hlease, hle⟩
  · rintro ⟨hlease, hle⟩
    constructor
    · rwa [t2Seconds_given h]
    · rwa [t2Seconds_given h]
    · exact t1Seconds_estimate
    · exact fun hnone => absurd hnone h

theorem inOrder_iff (info : DhcpInfo) : info.InOrder ↔ info.TimersFit := by
  rw [DhcpInfo.TimersFit]
  by_cases h : info.t2 = 0
  · rw [if_pos h]
    exact inOrder_iff_of_estimate h
  · rw [if_neg h]
    exact inOrder_iff_of_given h

/-- The timers after an accepted ACK are those of a lease with its offsets in order. -/
def ArmsInOrder (c : Client) (a : Answers) : Prop :=
  ∃ info ∈ c.mDhcpInfo, c.mT1 = Timer.expireSeconds a.nowT1 (t1Seconds info).toNat ∧
    c.mT2 = Timer.expireSeconds a.nowT2 (t2Seconds info).toNat ∧ info.InOrder

/-- Whenever an ACK is accepted, the offsets armed are in order just when the times in
the ACK fit. -/
theorem configureDhcp_armsInOrder_iff {c : Client} {ack : Message} {a : Answers}
    (haccepted : (c.configureDhcp ack a).1 = true) :
    (c.configureDhcp ack a).2.ArmsInOrder a ↔
      ∀ info, ack.readOptions c.mDhcpInfo = (true, some info) → info.TimersFit := by
  have hpair : c.configureDhcp ack a = (true, (c.configureDhcp ack a).2) := Prod.ext haccepted rfl
  obtain ⟨info, host, hread, -, -, hafter⟩ := configureDhcp_true hpair
  rw [hafter]
  constructor
  · rintro ⟨info', hmem, -, -, horder⟩ info'' hread'
    obtain rfl : info = info' := Option.some.inj hmem
    obtain ⟨-, rfl⟩ := Message.readOptions_unique hread hread'
    exact (inOrder_iff info).mp horder
  · intro hfits
    exact ⟨info, rfl, rfl, rfl, (inOrder_iff info).mpr (hfits info hread)⟩

/-- The ACK of a server that names a lease time and nothing else. -/
def bareAck (lease : UInt32) : Message :=
  let message := Message.create opBootReply deviceMac dhcpAck 1
  (message.addOptionOf optLeaseTime (bytes32 (swap32 lease))).endOptions

theorem bareAck_armsInOrder_iff :
    ((fresh 0 deviceMac bareHost).configureDhcp (bareAck 600) (.quiet 0)).2.ArmsInOrder (.quiet 0) ↔
      ∀ info, (bareAck 600).readOptions none = (true, some info) → info.TimersFit :=
  configureDhcp_armsInOrder_iff (by decide +kernel)

/-- An infinite lease gets a T1 of half of it and a T2 of an eighth of 2^32. -/
theorem infiniteLease_armed_backwards : ¬ ∀ (c : Client) (ack : Message) (a : Answers),
    (c.configureDhcp ack a).1 = true → (c.configureDhcp ack a).2.ArmsInOrder a := by
  intro h
  obtain ⟨info, hmem, -, -, horder⟩ :=
    h (fresh 0 deviceMac bareHost) (bareAck 0xFFFFFFFF) (.quiet 0) (by decide +kernel)
  have hbackwards : ∀ info ∈ ((fresh 0 deviceMac bareHost).configureDhcp (bareAck 0xFFFFFFFF)
      (.quiet 0)).2.mDhcpInfo, ¬ t1Seconds info ≤ t2Seconds info := by
    decide +kernel
  exact hbackwards info hmem horder.t1_le_t2

end Client

end AndroidX86Tv.Dhcp
