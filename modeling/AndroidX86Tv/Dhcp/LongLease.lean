import Mathlib.Order.Monotone.Basic
import AndroidX86Tv.Dhcp.Backoff
import AndroidX86Tv.Dhcp.Pace

/-!
# Leases that outlast their retries (client/dhcpclient.cpp, client/timer.cpp)

A wait of `Renewing` begins before T2, and `Rebinding` sends five REQUESTs with waits that
double. So whatever the server does, a lease that goes on for long enough behind T1 and T2
is renewed, denied or given up before it is over.
-/

namespace AndroidX86Tv.Dhcp

open EventHistory

/-- The longest wait for an answer, 65 seconds. -/
def longestWait : Nat := kMaxTimeout + kTimeoutSpan.toNat

/-- The time from the first of the given number of transmissions to the end of the wait for
the last one, where each is late and each wait as long as it can be. -/
def retryTime (late : Nat) : Nat → Nat
  | 0 => 0
  | k + 1 => retryTime late k + (late + (backoff (k + 1) + kTimeoutSpan.toNat))

theorem retryTime_all (late : Nat) : retryTime late 5 = 129000 + 5 * late := by
  change 0 + (late + (4000 + 1000)) + (late + (8000 + 1000)) + (late + (16000 + 1000)) +
    (late + (32000 + 1000)) + (late + (64000 + 1000)) = 129000 + 5 * late
  omega

theorem retryTime_le (late : Nat) {k : Nat} (h : k ≤ 5) : retryTime late k ≤ retryTime late 5 :=
  monotone_nat_of_le_succ (fun _ => Nat.le_add_right _ _) h

/-- The later of T1 and T2, in milliseconds from the ACK on. -/
def latestTimer (info : DhcpInfo) : Nat :=
  max (Client.t1Seconds info).toNat (Client.t2Seconds info).toNat * 1000

/-- The lease goes on for more than a wait of `Renewing` and the retries of `Rebinding`
behind its timers, each of which may be late. -/
def Outlasts (late : Nat) (info : DhcpInfo) : Prop :=
  latestTimer info + 194000 + 7 * late < info.leaseTime.toNat * 1000

instance (late : Nat) (info : DhcpInfo) : Decidable (Outlasts late info) :=
  inferInstanceAs (Decidable (_ < _))

/-- The time, from the ACK on, by which the last wait of a state is due. -/
def dueBy (late : Nat) (info : DhcpInfo) (c : Client) : Nat :=
  match c.mState with
  | .bound => (Client.t1Seconds info).toNat * 1000
  | .renewing => latestTimer info + late + longestWait
  | _ => latestTimer info + late + longestWait + retryTime late (visitTransmissions c.history)

theorem t1_le_latestTimer (info : DhcpInfo) :
    (Client.t1Seconds info).toNat * 1000 ≤ latestTimer info :=
  Nat.mul_le_mul_right 1000 (Nat.le_max_left _ _)

theorem t2_le_latestTimer (info : DhcpInfo) :
    (Client.t2Seconds info).toNat * 1000 ≤ latestTimer info :=
  Nat.mul_le_mul_right 1000 (Nat.le_max_right _ _)

namespace Client

variable {c : Client} {a : Answers}

/-- A REQUEST of a client that backs off is waited for at most so long. -/
theorem request_waits {destination : Option InAddr} (hexchanges : Exchanges c)
    (hbacksOff : BacksOff c) (hplace : c.place = .evaluate) (hasks : Asks c a destination) :
    ∃ message timeout, c.sendDhcpRequest destination = c.sendMessage message ∧
      ((c.sendMessage message).increaseTimeout.beginWait a).place = .poll timeout ∧
      timeout ≤ backoff (visitTransmissions c.history + 1) + kTimeoutSpan.toNat := by
  obtain ⟨offer, server, -, -, -, -, -, hsend⟩ := hexchanges.sends_request hasks
  have hmove : Moves c a ((c.sendDhcpRequest destination).increaseTimeout.beginWait a) :=
    .requests hplace hasks
  have hbase := (hbacksOff.move hexchanges hmove).base
  have hfuzzes := (hbacksOff.fuzzes hexchanges hmove).within
  rw [hsend] at hbase hfuzzes
  obtain ⟨timeout, hpolls⟩ := (c.sendMessage _).beginWait_polls a
  refine ⟨_, timeout, hsend, hpolls, ?_⟩
  have hretransmits := hasks.state.retransmits
  have hwithin := (hfuzzes timeout hplace hpolls hretransmits).2
  have hspan : kTimeoutSpan = (kTimeoutSpan.toNat : Int) := rfl
  rw [hbase hretransmits] at hwithin
  change (timeout : Int) ≤ (backoff (visitTransmissions c.history + 1) : Nat) + kTimeoutSpan
    at hwithin
  omega

end Client

namespace Paced

/-- Every lease outlasts its retries, the timers are those of the lease, and the client is
not behind the time by which the wait is due. -/
structure Patient (p : Paced) (late : Nat) : Prop where
  outlasts : ∀ lease ∈ leaseOf p.client.history, Outlasts late lease.1
  t1 : ∀ lease ∈ leaseOf p.client.history,
    p.client.mT1.mExpires ≤ lease.2 + (Client.t1Seconds lease.1).toNat * 1000
  t2 : ∀ lease ∈ leaseOf p.client.history,
    p.client.mT2.mExpires ≤ lease.2 + late + (Client.t2Seconds lease.1).toNat * 1000
  due : ∀ lease ∈ leaseOf p.client.history, p.due ≤ lease.2 + dueBy late lease.1 p.client

section

variable {late : Nat} {p : Paced} {a : Answers} {c' : Client} {timeout : Nat}

theorem patient_of_none {due : Nat} (h : leaseOf c'.history = none) : Patient ⟨c', due⟩ late where
  outlasts lease hmem := absurd (h ▸ hmem) (Option.not_mem_none lease)
  t1 lease hmem := absurd (h ▸ hmem) (Option.not_mem_none lease)
  t2 lease hmem := absurd (h ▸ hmem) (Option.not_mem_none lease)
  due lease hmem := absurd (h ▸ hmem) (Option.not_mem_none lease)

/-- A step that leaves the lease and its timers. -/
theorem Patient.keeps {due : Nat} (h : p.Patient late) (ht1 : c'.mT1 = p.client.mT1)
    (ht2 : c'.mT2 = p.client.mT2) (hlease : leaseOf c'.history = leaseOf p.client.history)
    (hdue : ∀ lease ∈ leaseOf p.client.history, due ≤ lease.2 + dueBy late lease.1 c') :
    Patient ⟨c', due⟩ late := by
  constructor
  · rw [hlease]
    exact h.outlasts
  · rw [hlease, ht1]
    exact h.t1
  · rw [hlease, ht2]
    exact h.t2
  · rw [hlease]
    exact hdue

/-- A pass that leaves the state, the lease and its timers. -/
theorem Patient.pass (h : p.Patient late) (hplace : p.client.place = .poll timeout)
    (hstate : c'.mState = p.client.mState) (ht1 : c'.mT1 = p.client.mT1)
    (ht2 : c'.mT2 = p.client.mT2) (hlease : leaseOf c'.history = leaseOf p.client.history)
    (hsent : visitTransmissions c'.history = visitTransmissions p.client.history) :
    Patient ⟨c', p.dueAfter a c'⟩ late := by
  apply h.keeps ht1 ht2 hlease
  intro lease hmem
  have hby : dueBy late lease.1 c' = dueBy late lease.1 p.client := by
    rw [dueBy, dueBy, hstate, hsent]
  have hstays : p.client.mState = .bound ∨ c'.mState ≠ .bound := by
    rw [hstate]
    exact Classical.em _
  rw [dueAfter_polls hplace hstays, hby]
  exact h.due lease hmem

/-- An evaluation that enters another state. -/
theorem Patient.leaves {new : State} (h : p.Patient late) (hontime : p.OnTime late)
    (hplace : p.client.place = .evaluate) (hleaves : Client.Leaves p.client a new) :
    Patient ⟨{ p.client.setNextState new with place := .evaluate },
      p.dueAfter a { p.client.setNextState new with place := .evaluate }⟩ late := by
  rw [dueAfter_evaluates hplace rfl]
  cases hnew : new.online with
  | false => exact patient_of_none (hontime.none_of_leaves hleaves hnew)
  | true =>
      refine h.keeps ?_ ?_ (leaseOf_online p.client.mState hnew _) fun lease hmem => ?_
      · rfl
      · rfl
      have hdue := h.due lease hmem
      have ht1 := t1_le_latestTimer lease.1
      cases hleaves with
      | start => exact absurd hnew (by decide)
      | requestingEnds => exact absurd hnew (by decide)
      | renews hstate =>
          simp only [dueBy, hstate] at hdue
          simp only [dueBy, Client.setNextState]
          omega
      | rebinds hstate =>
          simp only [dueBy, hstate] at hdue
          simp only [dueBy, Client.setNextState, visitTransmissions, retryTime]
          omega
      | rebindingEnds => exact absurd hnew (by decide)

/-- In `Renewing` a REQUEST is sent before T2, in `Rebinding` right after the wait before. -/
theorem Patient.requests {destination : Option InAddr} (h : p.Patient late)
    (hontime : p.OnTime late) (hexchanges : p.client.Exchanges) (hbacksOff : p.client.BacksOff)
    (htimely : p.Timely late a) (hplace : p.client.place = .evaluate)
    (hasks : Client.Asks p.client a destination) :
    Patient ⟨(p.client.sendDhcpRequest destination).increaseTimeout.beginWait a,
      p.dueAfter a ((p.client.sendDhcpRequest destination).increaseTimeout.beginWait a)⟩ late := by
  obtain ⟨message, timeout, hsend, hpolls, hwait⟩ :=
    Client.request_waits (a := a) hexchanges hbacksOff hplace hasks
  rw [hsend, dueAfter_begins hplace hpolls, if_neg hasks.state.ne_bound]
  refine h.keeps ?_ ?_ ?_ fun lease hmem => ?_
  · rfl
  · rfl
  · rfl
  have honline : p.client.mState.online = true := hontime.online fun hnone =>
    Option.not_mem_none lease (hnone ▸ hmem)
  cases hasks with
  | requesting hstate =>
      rw [hstate] at honline
      exact absurd honline Bool.false_ne_true
  | renewing hstate hearly =>
      have hbefore : a.now < p.client.mT2.mExpires := Nat.lt_of_not_le (of_decide_eq_false hearly)
      have ht2 := h.t2 lease hmem
      have hlatest := t2_le_latestTimer lease.1
      have hmax := backoff_le_kMaxTimeout (visitTransmissions p.client.history + 1)
      have hby : dueBy late lease.1
          ((p.client.sendMessage message).increaseTimeout.beginWait a) =
            latestTimer lease.1 + late + longestWait := by
        have hrenewing : ((p.client.sendMessage message).increaseTimeout.beginWait a).mState =
          .renewing := hstate
        rw [dueBy, hrenewing]
      rw [hby, longestWait]
      omega
  | rebinding hstate hlimit =>
      have hnow := htimely hplace honline
      have hdue := h.due lease hmem
      have hby : dueBy late lease.1
          ((p.client.sendMessage message).increaseTimeout.beginWait a) =
            dueBy late lease.1 p.client + (late +
              (backoff (visitTransmissions p.client.history + 1) + kTimeoutSpan.toNat)) := by
        have hrebinding : ((p.client.sendMessage message).increaseTimeout.beginWait a).mState =
          .rebinding := hstate
        have hsent : visitTransmissions
            ((p.client.sendMessage message).increaseTimeout.beginWait a).history =
              visitTransmissions p.client.history + 1 := rfl
        rw [dueBy, dueBy, hrebinding, hstate]
        simp only [hsent, retryTime, Nat.add_assoc]
      rw [hby]
      omega

/-- In `Bound` the client waits for T1. -/
theorem Patient.rests (h : p.Patient late) (hplace : p.client.place = .evaluate)
    (hstate : p.client.mState = .bound) :
    Patient ⟨(p.client.awaitT1 a.nowRemaining).beginWait a,
      p.dueAfter a ((p.client.awaitT1 a.nowRemaining).beginWait a)⟩ late := by
  refine h.keeps ?_ ?_ ?_ fun lease hmem => ?_
  · rfl
  · rfl
  · rfl
  have hlater := dueAfter_rests (a := a) hplace hstate
  have hby : ∀ c : Client, c.mState = .bound →
      dueBy late lease.1 c = (Client.t1Seconds lease.1).toNat * 1000 := by
    intro c hbound
    rw [dueBy, hbound]
  have hdue := h.due lease hmem
  have ht1 := h.t1 lease hmem
  rw [hby p.client hstate] at hdue
  rw [hby ((p.client.awaitT1 a.nowRemaining).beginWait a) hstate]
  omega

/-- An ACK that is configured brings a lease that outlasts its retries. -/
theorem Patient.binds {ack : Message} (hplace : p.client.place = .poll timeout)
    {packet : Option Message} (hpoll : a.poll = .readable packet)
    (hreceived : p.client.receiveDhcpMessage packet = some ack)
    (hstate : State.Requests p.client.mState) (htype : ack.type = dhcpAck)
    (hconfigure : (p.client.reads packet).configureDhcp ack a = (true, c'))
    (hclock : a.nowT2 ≤ a.nowT1 + late)
    (hlong : ∀ info ∈ p.client.acknowledged a, Outlasts late info) :
    Patient ⟨{ c'.setNextState .bound with place := .evaluate },
      p.dueAfter a { c'.setNextState .bound with place := .evaluate }⟩ late := by
  obtain ⟨info, host, hgranted, rfl⟩ :=
    Client.acknowledged_configured hplace hpoll hreceived hstate htype hconfigure
  have hends : leaseOf (.entered p.client.mState .bound :: .configured ack info a.nowT1 ::
      (p.client.reads packet).history) = some (info, a.nowT1) := leaseOf_online _ rfl _
  rw [dueAfter_binds hplace hstate.ne_bound rfl]
  constructor
  · intro lease hmem
    obtain rfl := Option.some.inj (hends.symm.trans hmem)
    exact hlong info hgranted
  · intro lease hmem
    obtain rfl := Option.some.inj (hends.symm.trans hmem)
    exact expireSeconds_le a.nowT1 (Client.t1Seconds info).toNat
  · intro lease hmem
    obtain rfl := Option.some.inj (hends.symm.trans hmem)
    exact Nat.le_trans (expireSeconds_le a.nowT2 (Client.t2Seconds info).toNat)
      (Nat.add_le_add_right hclock _)
  · intro lease hmem
    obtain rfl := Option.some.inj (hends.symm.trans hmem)
    exact Nat.le_add_right _ _

/-- An ACK that is not configured leaves the timers, where every route can be sent. -/
theorem Patient.misconfigured {ack : Message} (h : p.Patient late)
    (hworks : a.calls.InterfaceWorks) (hroutes : p.client.Routes a)
    (hplace : p.client.place = .poll timeout) {packet : Option Message}
    (hconfigure : (p.client.reads packet).configureDhcp ack a = (false, c')) :
    Patient ⟨c'.pollAgain timeout a, p.dueAfter a (c'.pollAgain timeout a)⟩ late := by
  have hconfigures := Client.configureDhcp_configures (p.client.reads packet) ack a
  have hgrants := hconfigures.routes_iff hworks
  rw [hconfigure] at hconfigures hgrants
  cases hconfigures with
  | rejected => exact h.pass hplace rfl rfl rfl rfl rfl
  | noLease => exact h.pass hplace rfl rfl rfl rfl rfl
  | stopped hread hlease =>
      have hgranted := (Client.granted_iff (p.client.reads packet).mDhcpInfo).mpr ⟨hread, hlease⟩
      exact absurd (hgrants.mpr ⟨⟨_, hgranted⟩, hroutes⟩) Bool.false_ne_true

/-- The steps of a client that gets long leases, is not late and can send its routes. -/
structure Unhurried (p : Paced) (late : Nat) (a : Answers) : Prop where
  timely : p.Timely late a
  clock : a.nowT2 ≤ a.nowT1 + late
  routes : p.client.Routes a
  long : ∀ info ∈ p.client.acknowledged a, Outlasts late info

instance (p : Paced) (late : Nat) (a : Answers) : Decidable (p.Unhurried late a) :=
  decidable_of_iff (_ ∧ _ ∧ _ ∧ _)
    ⟨fun h => ⟨h.1, h.2.1, h.2.2.1, h.2.2.2⟩, fun h => ⟨h.timely, h.clock, h.routes, h.long⟩⟩

theorem Patient.move (h : p.Patient late) (hontime : p.OnTime late)
    (hexchanges : p.client.Exchanges) (hbacksOff : p.client.BacksOff)
    (hunhurried : p.Unhurried late a) (hworks : a.calls.InterfaceWorks)
    (hmove : Client.Moves p.client a c') : Patient ⟨c', p.dueAfter a c'⟩ late := by
  have hoffline : p.client.mState.online = false → leaseOf p.client.history = none :=
    hontime.none_of_offline
  cases hmove with
  | leaves hplace hleaves => exact h.leaves hontime hplace hleaves
  | discovers hplace hstate => exact patient_of_none (hoffline (by rw [hstate]; rfl))
  | requests hplace hasks =>
      exact h.requests hontime hexchanges hbacksOff hunhurried.timely hplace hasks
  | rests hplace hstate => exact h.rests hplace hstate
  | timesOut hplace => exact h.pass hplace rfl rfl rfl rfl rfl
  | pollFails hplace => exact h.pass hplace rfl rfl rfl rfl rfl
  | ignores hplace => exact h.pass hplace rfl rfl rfl rfl rfl
  | offered _ _ _ hstate =>
      have hnone := hoffline (by rw [hstate]; rfl)
      exact patient_of_none ((leaseOf_entered_ne (Or.inr (by decide)) _).trans hnone)
  | bound hplace hpoll hreceived hstate htype hconfigure =>
      exact Patient.binds hplace hpoll hreceived hstate htype hconfigure hunhurried.clock
        hunhurried.long
  | misconfigured hplace _ _ _ _ hconfigure =>
      exact h.misconfigured hworks hunhurried.routes hplace hconfigure
  | denied =>
      refine patient_of_none ((leaseOf_entered _ _ _).trans ?_)
      split_ifs
      · rfl
      · rfl

/-- A patient client takes each step in time. -/
theorem Patient.inTime (h : p.Patient late) (hontime : p.OnTime late)
    (hbacksOff : p.client.BacksOff)
    (hlong : ∀ info ∈ p.client.acknowledged a, Outlasts late info) : p.InTime late a := by
  constructor
  · intro _ info hmem
    have houtlasts := hlong info hmem
    have ht1 := t1_le_latestTimer info
    rw [Outlasts] at houtlasts
    omega
  · rintro ⟨hrequests, -⟩ lease hmem
    have honline : p.client.mState.online = true := hontime.online fun hnone =>
      Option.not_mem_none lease (hnone ▸ hmem)
    have houtlasts := h.outlasts lease hmem
    have hdue := h.due lease hmem
    have hretries := retryTime_all late
    have hwait : longestWait = 65000 := rfl
    rw [Outlasts] at houtlasts
    rw [leaseEnd]
    rcases hrequests with hstate | hstate | hstate
    · rw [hstate] at honline
      exact absurd honline Bool.false_ne_true
    · simp only [dueBy, hstate] at hdue
      omega
    · have hfew := retryTime_le late (hbacksOff.limited (Or.inr hstate))
      simp only [dueBy, hstate] at hdue
      omega

end

end Paced

namespace Client

/-- Whatever the server does, a lease that outlasts its retries is not over when `mState` is
evaluated. -/
theorem leases_outlast (options : UInt32) (macAddress : Mac) (host : Host)
    {answers : List Answers} (late : Nat) (hworks : ∀ a ∈ answers, a.calls.InterfaceWorks)
    (h : AllSteps Paced.step (·.Unhurried late ·) ⟨fresh options macAddress host, 0⟩ answers) :
    AllSteps step (fun c a => c.place = .evaluate → ∀ lease ∈ leaseOf c.history,
      a.now < leaseEnd lease) (fresh options macAddress host) answers := by
  have hstep : ∀ (p : Paced) a, (p.step a).client = step p.client a := fun _ _ => rfl
  rw [← allSteps_map Paced.client hstep ⟨fresh options macAddress host, 0⟩]
  have hlives : ∀ (p : Paced) a,
      (p.Patient late ∧ p.OnTime late) ∧ p.client.Exchanges ∧ p.client.BacksOff →
        p.Unhurried late a ∧ a.calls.InterfaceWorks →
          (p.client.place = .evaluate → ∀ lease ∈ leaseOf p.client.history,
            a.now < leaseEnd lease) :=
    fun p a hp ha hplace lease hmem => hp.1.2.lives ha.1.timely hplace hmem
  have hkeep : ∀ (p : Paced) a,
      (p.Patient late ∧ p.OnTime late) ∧ p.client.Exchanges ∧ p.client.BacksOff →
        p.Unhurried late a ∧ a.calls.InterfaceWorks →
          ((p.step a).Patient late ∧ (p.step a).OnTime late) ∧
            (p.step a).client.Exchanges ∧ (p.step a).client.BacksOff := by
    rintro p a ⟨⟨hpatient, hontime⟩, hexchanges, hbacksOff⟩ ⟨hunhurried, hcalls⟩
    have hmove := step_moves p.client a
    have htime := hpatient.inTime hontime hbacksOff hunhurried.long
    exact ⟨⟨hpatient.move hontime hexchanges hbacksOff hunhurried hcalls hmove,
      hontime.move htime hcalls hmove⟩, hexchanges.move hmove, hbacksOff.move hexchanges hmove⟩
  exact AllSteps.of_inv hlives hkeep ⟨⟨Paced.patient_of_none rfl, Paced.onTime_of_none rfl⟩,
    fresh_exchanges options macAddress host, fresh_backsOff options macAddress host⟩
    (h.and_inputs hworks)

/-- The device gets a lease of 700 seconds with T1 and T2 at 300 and 450, and its server falls
silent until the client gives up. -/
def patientRun : List Answers :=
  let request := Message.request deviceMac deviceAddress routerAddress 2
  [.quiet 0, .quiet 0,
      .receives 1 (leaseReply dhcpOffer aDiscover routerAddress deviceAddress 700 300 450),
      .quiet 1, .receives 1 (leaseReply dhcpAck request routerAddress deviceAddress 700 300 450),
      .quiet 1, .quiet 300001, .quiet 300001, .quiet 300001] ++
    [304001, 312001, 328001, 360001, 424001].flatMap (fun time => [.quiet time, .quiet time]) ++
    [.quiet 488001, .quiet 488001, .quiet 488001] ++
    [492001, 500001, 516001, 548001, 612001].flatMap fun time => [.quiet time, .quiet time]

/-- It does so before the lease is over. -/
theorem leases_outlast_silent :
    (run step (fresh 0 deviceMac bareHost) patientRun).mState = .init ∧
      AllSteps step (fun c a => c.place = .evaluate → ∀ lease ∈ leaseOf c.history,
        a.now < leaseEnd lease) (fresh 0 deviceMac bareHost) patientRun :=
  ⟨by decide +kernel, leases_outlast 0 deviceMac bareHost 500
    (by simp [patientRun, Answers.quiet_works, Answers.receives_works]) (by decide +kernel)⟩

end Client

end AndroidX86Tv.Dhcp
