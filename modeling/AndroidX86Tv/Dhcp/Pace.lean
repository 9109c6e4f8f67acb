import AndroidX86Tv.Dhcp.BoundWait
import AndroidX86Tv.Dhcp.InterfaceUp

/-!
# The pace of a lease (client/dhcpclient.cpp, client/timer.cpp)

The end of a lease is no timer of its own. Whether the client looks at its state before a
lease is over depends on T1 and on the waits of `Renewing` and `Rebinding`, which back off
without regard to the lease. A client in pace has a T1 before the end of its lease and no
wait that runs out behind it.
-/

namespace AndroidX86Tv.Dhcp

open EventHistory

/-- The lease of the ACK configured last, until a NAK or the end of `Rebinding`
takes it away. -/
def leaseOf : List Event → Option (DhcpInfo × Nat)
  | [] => none
  | .configured _ info time :: _ => some (info, time)
  | .halted :: _ => none
  | .entered .rebinding .init :: _ => none
  | _ :: past => leaseOf past

theorem leaseOf_entered (old new : State) (past : List Event) :
    leaseOf (.entered old new :: past) =
      if old = .rebinding ∧ new = .init then none else leaseOf past := by
  cases old <;> cases new <;> rfl

theorem leaseOf_entered_ne {old new : State} (h : old ≠ .rebinding ∨ new ≠ .init)
    (past : List Event) : leaseOf (.entered old new :: past) = leaseOf past := by
  rw [leaseOf_entered, if_neg (not_and_or.mpr h)]

/-- A state of the lease is entered with it. -/
theorem leaseOf_online (old : State) {new : State} (hnew : new.online = true)
    (past : List Event) : leaseOf (.entered old new :: past) = leaseOf past := by
  apply leaseOf_entered_ne
  right
  rintro rfl
  exact Bool.false_ne_true hnew

/-- The time at which a lease runs out, given the time of its ACK. -/
def leaseEnd (lease : DhcpInfo × Nat) : Nat := lease.2 + lease.1.leaseTime.toNat * 1000

/-- What an ACK grants: what is read from it, if that is in order and has a lease time. -/
def granted (ack : Message) : Option DhcpInfo :=
  match ack.readOptions none with
  | (true, some info) => if info.leaseTime = 0 then none else some info
  | _ => none

namespace Client

theorem granted_iff {ack : Message} (old : Option DhcpInfo) {info : DhcpInfo} :
    granted ack = some info ↔ ack.readOptions old = (true, some info) ∧ info.leaseTime ≠ 0 := by
  rw [granted, Message.readOptions, Message.readOptions]
  by_cases hshort : ack.optionsSize < 4
  · simp [if_pos hshort]
  · rw [if_neg hshort, if_neg hshort]
    rcases ack.optionLoop DhcpInfo.zero 4 with ⟨_ | _, read⟩
    · simp
    · by_cases hlease : read.leaseTime = 0
      · simp only [hlease, if_true]
        refine iff_of_false (Option.some_ne_none info).symm ?_
        rintro ⟨hread, hne⟩
        obtain rfl := Option.some.inj (Prod.mk.inj hread).2
        exact hne rfl
      · simp only [if_neg hlease, Option.some.injEq, Prod.mk.injEq, true_and]
        refine ⟨fun hread => ⟨hread, ?_⟩, fun hread => hread.1⟩
        rw [← hread]
        exact hlease

/-- What the ACK that a step takes grants. -/
def acknowledged (c : Client) (a : Answers) : Option DhcpInfo :=
  match c.place, a.poll with
  | .poll _, .readable packet =>
      if State.Requests c.mState then
        ((c.receiveDhcpMessage packet).filter fun msg => msg.type = dhcpAck).bind granted
      else none
  | _, _ => none

/-- The request for the default route is sent, if there is to be one. -/
def Routes (c : Client) (a : Answers) : Prop :=
  c.mOptions &&& noGateway ≠ 0 ∨ a.calls.sendRoute = true

/-- The wait for an answer comes to its end without an ACK that is configured or a NAK. -/
def RunsOut (c : Client) (a : Answers) : Prop :=
  State.Requests c.mState ∧ ∃ timeout, c.place = .poll timeout ∧
    (a.poll = .timeout ∨
      (a.startedAt + timeout) % 2 ^ 64 ≤ a.currentTime ∧ ¬ c.TakesNak a ∧
        ¬ (c.acknowledged a ≠ none ∧ c.Routes a))

section Decidable

variable (c : Client) (a : Answers)

instance : Decidable (c.TakesNak a) :=
  match hplace : c.place, hpoll : a.poll with
  | .poll timeout, .readable packet =>
      decidable_of_iff (∃ nak ∈ c.receiveDhcpMessage packet,
          State.Requests c.mState ∧ nak.type = dhcpNak)
        ⟨fun ⟨nak, hnak⟩ => ⟨timeout, packet, nak, hplace, hpoll, hnak⟩,
          fun ⟨_, _, nak, _, hpoll', hnak⟩ => ⟨nak, packet_unique hpoll hpoll' ▸ hnak⟩⟩
  | .evaluate, _ => isFalse fun ⟨_, _, _, hplace', _⟩ => polls_not_evaluate hplace' hplace
  | .poll _, .timeout => isFalse fun ⟨_, _, _, _, hpoll', _⟩ =>
      Poll.noConfusion (hpoll.symm.trans hpoll')
  | .poll _, .error => isFalse fun ⟨_, _, _, _, hpoll', _⟩ =>
      Poll.noConfusion (hpoll.symm.trans hpoll')

instance : Decidable (c.Routes a) := inferInstanceAs (Decidable (_ ∨ _))

instance : Decidable (a.poll = .timeout) :=
  match a.poll with
  | .timeout => isTrue rfl
  | .error => isFalse Poll.noConfusion
  | .readable _ => isFalse Poll.noConfusion

instance : Decidable (c.RunsOut a) :=
  match hplace : c.place with
  | .evaluate => isFalse fun ⟨_, _, hplace', _⟩ => polls_not_evaluate hplace' hplace
  | .poll timeout =>
      decidable_of_iff (State.Requests c.mState ∧ (a.poll = .timeout ∨
          (a.startedAt + timeout) % 2 ^ 64 ≤ a.currentTime ∧ ¬ c.TakesNak a ∧
            ¬ (c.acknowledged a ≠ none ∧ c.Routes a)))
        ⟨fun h => ⟨h.1, timeout, hplace, h.2⟩, fun ⟨hstate, _, hplace', h⟩ =>
          ⟨hstate, Place.poll.inj (hplace'.symm.trans hplace) ▸ h⟩⟩

end Decidable

end Client

/-- A client, and the time at which the wait that it began last is to be over. -/
structure Paced where
  client : Client
  due : Nat

namespace Paced

/-- A wait that begins when `mState` is evaluated is due after its timeout; the next
evaluation after an ACK is due at once. -/
def dueAfter (p : Paced) (a : Answers) (c' : Client) : Nat :=
  match p.client.place, c'.place with
  | .evaluate, .poll timeout =>
      (if p.client.mState = .bound then a.nowRemaining else a.now) + timeout
  | .evaluate, .evaluate => p.due
  | .poll _, _ =>
      if p.client.mState ≠ .bound ∧ c'.mState = .bound then a.nowT1 else p.due

def step (p : Paced) (a : Answers) : Paced where
  client := p.client.step a
  due := p.dueAfter a (p.client.step a)

/-- `mState` is evaluated at most so much later than it is due. -/
def Timely (p : Paced) (late : Nat) (a : Answers) : Prop :=
  p.client.place = .evaluate → p.client.mState.online = true → a.now ≤ p.due + late

/-- T1 of an ACK that is configured comes so much before the end of its lease, and so does
the end of a wait that runs out in `Renewing` or `Rebinding`. -/
structure InTime (p : Paced) (late : Nat) (a : Answers) : Prop where
  t1 : p.client.Routes a → ∀ info ∈ p.client.acknowledged a,
    (Client.t1Seconds info).toNat * 1000 + late < info.leaseTime.toNat * 1000
  waits : p.client.RunsOut a → ∀ lease ∈ leaseOf p.client.history, p.due + late < leaseEnd lease

instance (p : Paced) (late : Nat) (a : Answers) : Decidable (p.Timely late a) :=
  inferInstanceAs (Decidable (_ → _ → _))

instance (p : Paced) (late : Nat) (a : Answers) : Decidable (p.InTime late a) :=
  decidable_of_iff (_ ∧ _) ⟨fun h => ⟨h.1, h.2⟩, fun h => ⟨h.t1, h.waits⟩⟩

end Paced

namespace Client

variable {c c' : Client} {a : Answers} {timeout : Nat} {packet : Option Message}

theorem acknowledged_received {ack : Message} (hplace : c.place = .poll timeout)
    (hpoll : a.poll = .readable packet) (hreceived : c.receiveDhcpMessage packet = some ack)
    (hstate : State.Requests c.mState) (htype : ack.type = dhcpAck) :
    c.acknowledged a = granted ack := by
  simp only [acknowledged, hplace, hpoll, hstate, if_true, hreceived]
  rw [Option.filter_some, if_pos (decide_eq_true htype)]
  rfl

/-- The client once an ACK is configured. -/
theorem acknowledged_configured {ack : Message} (hplace : c.place = .poll timeout)
    (hpoll : a.poll = .readable packet) (hreceived : c.receiveDhcpMessage packet = some ack)
    (hstate : State.Requests c.mState) (htype : ack.type = dhcpAck)
    (hconfigure : (c.reads packet).configureDhcp ack a = (true, c')) :
    ∃ info host, c.acknowledged a = some info ∧
      c' = { (c.reads packet).arm info a with
        host := host
        history := .configured ack info a.nowT1 :: (c.reads packet).history } := by
  obtain ⟨info, host, hread, hlease, -, hc'⟩ := configureDhcp_true hconfigure
  refine ⟨info, host, ?_, hc'⟩
  rw [acknowledged_received hplace hpoll hreceived hstate htype]
  exact (granted_iff (c.reads packet).mDhcpInfo).mpr ⟨hread, hlease⟩

/-- Nothing that the client awaits is read. -/
def ReadsNothing (c : Client) (a : Answers) : Prop :=
  ∀ packet, a.poll = .readable packet →
    ∀ msg, c.receiveDhcpMessage packet = some msg → ¬ c.Awaits msg

theorem ReadsNothing.not_takesNak (h : c.ReadsNothing a) : ¬ c.TakesNak a := by
  rintro ⟨timeout, packet, nak, -, hpoll, hreceived, hstate, htype⟩
  exact h packet hpoll nak hreceived (Or.inr ⟨hstate, Or.inr htype⟩)

theorem ReadsNothing.acknowledged (h : c.ReadsNothing a) : c.acknowledged a = none := by
  rw [Client.acknowledged]
  split
  · next packet _ hpoll =>
      split_ifs with hstate
      · cases hreceived : c.receiveDhcpMessage packet with
        | none => rfl
        | some msg =>
            have hack : msg.type ≠ dhcpAck := fun htype =>
              h packet hpoll msg hreceived (Or.inr ⟨hstate, Or.inl htype⟩)
            simp [hack]
      · rfl
  · rfl

/-- A NAK is no ACK. -/
theorem TakesNak.acknowledged (h : c.TakesNak a) : c.acknowledged a = none := by
  obtain ⟨timeout, packet, nak, hplace, hpoll, hreceived, hstate, htype⟩ := h
  have hack : nak.type ≠ dhcpAck := fun heq => dhcpNak_ne_dhcpAck (htype.symm.trans heq)
  simp [Client.acknowledged, hplace, hpoll, hreceived, hack]

/-- An ACK is no NAK. -/
theorem not_takesNak_of_ack {ack : Message} (hpoll : a.poll = .readable packet)
    (hreceived : c.receiveDhcpMessage packet = some ack) (htype : ack.type = dhcpAck) :
    ¬ c.TakesNak a := by
  rintro ⟨timeout, packet', nak, -, hpoll', hreceived', -, hnak⟩
  obtain rfl := packet_unique hpoll hpoll'
  obtain rfl := Option.some.inj (hreceived.symm.trans hreceived')
  exact dhcpNak_ne_dhcpAck (hnak.symm.trans htype)

/-- A pass that ends the wait without an answer lets it run out. -/
theorem runsOut_of_nothing (hstate : State.Requests c.mState) (hplace : c.place = .poll timeout)
    (h : c.ReadsNothing a) (hend : a.poll = .timeout ∨
      (a.startedAt + timeout) % 2 ^ 64 ≤ a.currentTime) : c.RunsOut a :=
  ⟨hstate, timeout, hplace, hend.imp id fun hpast =>
    ⟨hpast, h.not_takesNak, fun hack => hack.1 h.acknowledged⟩⟩

theorem pollAgain_evaluates (h : (c.pollAgain timeout a).place = .evaluate) :
    (a.startedAt + timeout) % 2 ^ 64 ≤ a.currentTime := by
  simp only [pollAgain] at h
  split_ifs at h with hpast
  exact hpast

/-- An ACK is configured exactly if its route can be sent, where the interface works. -/
theorem Configures.routes_iff {ack : Message} {result : Bool × Client}
    (h : Configures c ack a result) (hworks : a.calls.InterfaceWorks) :
    result.1 = true ↔ (∃ info, granted ack = some info) ∧ c.Routes a := by
  cases h with
  | rejected hread =>
      refine iff_of_false Bool.false_ne_true ?_
      rintro ⟨⟨info, hgranted⟩, -⟩
      have hread' := ((granted_iff c.mDhcpInfo).mp hgranted).1
      rw [hread] at hread'
      exact absurd (congrArg Prod.fst hread') Bool.false_ne_true
  | noLease hread hlease =>
      refine iff_of_false Bool.false_ne_true ?_
      rintro ⟨⟨info, hgranted⟩, -⟩
      obtain ⟨hread', hne⟩ := (granted_iff c.mDhcpInfo).mp hgranted
      obtain ⟨-, rfl⟩ := Message.readOptions_unique hread hread'
      exact hne hlease
  | stopped hread hlease hhost hexit =>
      refine iff_of_false Bool.false_ne_true ?_
      rintro ⟨-, hroutes⟩
      have hgateway := (Host.configure_works hworks hhost).1.resolve_left hexit
      obtain ⟨hoption, hsend⟩ := (Host.configure_noGateway_iff hworks hhost).mp hgateway
      rcases hroutes with hflag | hsent
      · exact of_decide_eq_false hoption hflag
      · exact Bool.false_ne_true (hsend.symm.trans hsent)
  | @configured info host hread hlease hhost =>
      refine iff_of_true rfl ⟨⟨info, (granted_iff c.mDhcpInfo).mpr ⟨hread, hlease⟩⟩, ?_⟩
      by_contra hno
      obtain ⟨hflag, hsent⟩ := not_or.mp hno
      have hgateway := (Host.configure_noGateway_iff hworks hhost).mpr
        ⟨decide_eq_false hflag, Bool.eq_false_iff.mpr hsent⟩
      exact absurd hgateway (by decide)

end Client

namespace Paced

/-- There is a lease only in the states that use one. In `Bound` T1, and whenever an
evaluation follows the time at which it is due, comes before its end. -/
structure OnTime (p : Paced) (late : Nat) : Prop where
  online : leaseOf p.client.history ≠ none → p.client.mState.online = true
  t1 : p.client.mState = .bound →
    ∀ lease ∈ leaseOf p.client.history, p.client.mT1.mExpires + late < leaseEnd lease
  due : p.client.mState = .bound ∨ p.client.place = .evaluate →
    ∀ lease ∈ leaseOf p.client.history, p.due + late < leaseEnd lease

section

variable {late : Nat} {p : Paced} {a : Answers} {c' : Client} {timeout : Nat}

theorem dueAfter_evaluates (hplace : p.client.place = .evaluate) (hplace' : c'.place = .evaluate) :
    p.dueAfter a c' = p.due := by
  rw [dueAfter, hplace, hplace']

theorem dueAfter_begins (hplace : p.client.place = .evaluate) (hplace' : c'.place = .poll timeout) :
    p.dueAfter a c' = (if p.client.mState = .bound then a.nowRemaining else a.now) + timeout := by
  rw [dueAfter, hplace, hplace']

theorem dueAfter_polls (hplace : p.client.place = .poll timeout)
    (h : p.client.mState = .bound ∨ c'.mState ≠ .bound) : p.dueAfter a c' = p.due := by
  have hno : ¬ (p.client.mState ≠ .bound ∧ c'.mState = .bound) := by
    rintro ⟨hother, hbound⟩
    exact h.elim hother fun hne => hne hbound
  rw [dueAfter, hplace]
  exact if_neg hno

theorem dueAfter_binds (hplace : p.client.place = .poll timeout)
    (hother : p.client.mState ≠ .bound) (hbound : c'.mState = .bound) :
    p.dueAfter a c' = a.nowT1 := by
  rw [dueAfter, hplace]
  exact if_pos ⟨hother, hbound⟩

/-- Without a lease there is nothing to be on time for. -/
theorem onTime_of_none {due : Nat} (h : leaseOf c'.history = none) : OnTime ⟨c', due⟩ late where
  online hlease := absurd h hlease
  t1 _ lease hmem := absurd (h ▸ hmem) (Option.not_mem_none lease)
  due _ lease hmem := absurd (h ▸ hmem) (Option.not_mem_none lease)

theorem OnTime.none_of_offline (h : p.OnTime late) (hstate : p.client.mState.online = false) :
    leaseOf p.client.history = none := by
  by_contra hlease
  exact Bool.false_ne_true (hstate.symm.trans (h.online hlease))

/-- A client that starts anew has no lease. -/
theorem OnTime.none_of_leaves {new : State} (h : p.OnTime late)
    (hleaves : Client.Leaves p.client a new) (hnew : new.online = false) :
    leaseOf (.entered p.client.mState new :: p.client.history) = none := by
  rw [leaseOf_entered]
  split_ifs with hgone
  · rfl
  · cases hleaves with
    | start hstate => exact h.none_of_offline (by rw [hstate]; rfl)
    | requestingEnds hstate => exact h.none_of_offline (by rw [hstate]; rfl)
    | renews => exact absurd hnew (by decide)
    | rebinds => exact absurd hnew (by decide)
    | rebindingEnds hstate => exact absurd ⟨hstate, rfl⟩ hgone

/-- A pass that leaves the state and the lease. -/
theorem OnTime.pass (h : p.OnTime late) (htime : p.InTime late a)
    (hplace : p.client.place = .poll timeout) (hstate : c'.mState = p.client.mState)
    (ht1 : p.client.mState = .bound → c'.mT1 = p.client.mT1)
    (hlease : leaseOf c'.history = leaseOf p.client.history)
    (hends : State.Requests p.client.mState → c'.place = .evaluate → p.client.RunsOut a) :
    OnTime ⟨c', p.dueAfter a c'⟩ late := by
  have hdue : p.dueAfter a c' = p.due := by
    apply dueAfter_polls hplace
    rw [hstate]
    exact Classical.em _
  constructor
  · intro hsome
    rw [hlease] at hsome
    rw [hstate]
    exact h.online hsome
  · intro hbound lease hmem
    rw [hstate] at hbound
    rw [hlease] at hmem
    rw [ht1 hbound]
    exact h.t1 hbound lease hmem
  · intro hwhen lease hmem
    rw [hlease] at hmem
    rw [hdue]
    by_cases hbound : p.client.mState = .bound
    · exact h.due (Or.inl hbound) lease hmem
    · -- outside `Bound` a lease is asked for, so the wait ran out
      have honline : p.client.mState.online = true := h.online fun hnone =>
        Option.not_mem_none lease (hnone ▸ hmem)
      have hrequests : State.Requests p.client.mState := by
        cases hold : p.client.mState with
        | renewing => exact Or.inr (Or.inl rfl)
        | rebinding => exact Or.inr (Or.inr rfl)
        | bound => exact absurd hold hbound
        | _ => rw [hold] at honline; exact absurd honline Bool.false_ne_true
      have hevaluates : c'.place = .evaluate :=
        hwhen.resolve_left fun hnew => hbound (hstate.symm.trans hnew)
      exact htime.waits (hends hrequests hevaluates) lease hmem

/-- An evaluation that enters another state. -/
theorem OnTime.leaves {new : State} (h : p.OnTime late) (hplace : p.client.place = .evaluate)
    (hleaves : Client.Leaves p.client a new) :
    OnTime ⟨{ p.client.setNextState new with place := .evaluate },
      p.dueAfter a { p.client.setNextState new with place := .evaluate }⟩ late := by
  rw [dueAfter_evaluates hplace rfl]
  cases hnew : new.online with
  | false => exact onTime_of_none (h.none_of_leaves hleaves hnew)
  | true =>
      have hbound : new ≠ .bound := by
        rintro rfl
        cases hleaves
      have hsame := leaseOf_online p.client.mState hnew p.client.history
      constructor
      · exact fun _ => hnew
      · exact fun hentered => absurd hentered hbound
      · intro _ lease hmem
        exact h.due (Or.inr hplace) lease (hsame.symm.trans hmem)

/-- In `Bound` a wait is due at T1 at the latest. -/
theorem dueAfter_rests (hplace : p.client.place = .evaluate) (hstate : p.client.mState = .bound) :
    p.dueAfter a ((p.client.awaitT1 a.nowRemaining).beginWait a) ≤
      max p.due p.client.mT1.mExpires := by
  cases hwait : ((p.client.awaitT1 a.nowRemaining).beginWait a).place with
  | evaluate =>
      rw [dueAfter_evaluates hplace hwait]
      exact Nat.le_max_left _ _
  | poll timeout =>
      obtain ⟨htimeout, hpolls⟩ := Client.awaitT1_armed hwait
      rw [dueAfter_begins hplace hwait, if_pos hstate]
      rw [Timer.remainingMillis] at htimeout
      split_ifs at htimeout
      · exact absurd htimeout hpolls
      · have hle := Nat.mod_le (p.client.mT1.mExpires - a.nowRemaining) (2 ^ 32)
        omega

theorem OnTime.rests (h : p.OnTime late) (hplace : p.client.place = .evaluate)
    (hstate : p.client.mState = .bound) :
    OnTime ⟨(p.client.awaitT1 a.nowRemaining).beginWait a,
      p.dueAfter a ((p.client.awaitT1 a.nowRemaining).beginWait a)⟩ late := by
  have hlater := dueAfter_rests (a := a) hplace hstate
  constructor
  · exact h.online
  · exact fun _ => h.t1 hstate
  · intro _ lease hmem
    have hdue := h.due (Or.inl hstate) lease hmem
    have ht1 := h.t1 hstate lease hmem
    calc p.dueAfter a ((p.client.awaitT1 a.nowRemaining).beginWait a) + late
        ≤ max p.due p.client.mT1.mExpires + late := Nat.add_le_add_right hlater late
      _ < leaseEnd lease := by omega

/-- A REQUEST begins a wait of its own. -/
theorem OnTime.requests {destination : Option InAddr} (h : p.OnTime late)
    (hasks : Client.Asks p.client a destination) :
    OnTime ⟨(p.client.sendDhcpRequest destination).increaseTimeout.beginWait a,
      p.dueAfter a ((p.client.sendDhcpRequest destination).increaseTimeout.beginWait a)⟩ late := by
  have hsent : ((p.client.sendDhcpRequest destination).increaseTimeout.beginWait a).mState =
        p.client.mState ∧
      leaseOf ((p.client.sendDhcpRequest destination).increaseTimeout.beginWait a).history =
        leaseOf p.client.history := by
    rcases Client.sendDhcpRequest_cases p.client destination with ⟨address, server, hsend⟩ | hnone
    · rw [hsend]
      exact ⟨rfl, rfl⟩
    · rw [hnone]
      exact ⟨rfl, rfl⟩
  obtain ⟨timeout, hpolls⟩ := (p.client.sendDhcpRequest destination).beginWait_polls a
  have hother : p.client.mState ≠ .bound := hasks.state.ne_bound
  constructor
  · rw [hsent.1, hsent.2]
    exact h.online
  · rw [hsent.1]
    exact fun hbound => absurd hbound hother
  · rw [hsent.1]
    rintro (hbound | hevaluates)
    · exact absurd hbound hother
    · exact absurd hevaluates (Client.polls_not_evaluate hpolls)

theorem expireSeconds_le (now seconds : Nat) :
    (Timer.expireSeconds now seconds).mExpires ≤ now + seconds * 1000 :=
  Nat.mod_le _ _

/-- An ACK that is configured begins a lease. -/
theorem OnTime.binds {ack : Message} (htime : p.InTime late a) (hworks : a.calls.InterfaceWorks)
    (hplace : p.client.place = .poll timeout) {packet : Option Message}
    (hpoll : a.poll = .readable packet)
    (hreceived : p.client.receiveDhcpMessage packet = some ack)
    (hstate : State.Requests p.client.mState) (htype : ack.type = dhcpAck)
    (hconfigure : (p.client.reads packet).configureDhcp ack a = (true, c')) :
    OnTime ⟨{ c'.setNextState .bound with place := .evaluate },
      p.dueAfter a { c'.setNextState .bound with place := .evaluate }⟩ late := by
  have hconfigures := Client.configureDhcp_configures (p.client.reads packet) ack a
  rw [hconfigure] at hconfigures
  obtain ⟨-, hroutes⟩ := (hconfigures.routes_iff hworks).mp rfl
  obtain ⟨info, host, hgranted, rfl⟩ :=
    Client.acknowledged_configured hplace hpoll hreceived hstate htype hconfigure
  have hearly := htime.t1 hroutes info hgranted
  have hends : leaseOf (.entered p.client.mState .bound :: .configured ack info a.nowT1 ::
      (p.client.reads packet).history) = some (info, a.nowT1) := leaseOf_online _ rfl _
  have hexpires := expireSeconds_le a.nowT1 (Client.t1Seconds info).toNat
  rw [dueAfter_binds hplace hstate.ne_bound rfl]
  constructor
  · exact fun _ => rfl
  · intro _ lease hmem
    obtain rfl := Option.some.inj (hends.symm.trans hmem)
    change (Timer.expireSeconds a.nowT1 (Client.t1Seconds info).toNat).mExpires + late <
      a.nowT1 + info.leaseTime.toNat * 1000
    omega
  · intro _ lease hmem
    obtain rfl := Option.some.inj (hends.symm.trans hmem)
    change a.nowT1 + late < a.nowT1 + info.leaseTime.toNat * 1000
    omega

/-- Steps that are in time keep the client on time. -/
theorem OnTime.move (h : p.OnTime late) (htime : p.InTime late a) (hworks : a.calls.InterfaceWorks)
    (hmove : Client.Moves p.client a c') : OnTime ⟨c', p.dueAfter a c'⟩ late := by
  cases hmove with
  | leaves hplace hleaves => exact h.leaves hplace hleaves
  | discovers hplace hstate => exact onTime_of_none (h.none_of_offline (by rw [hstate]; rfl))
  | requests hplace hasks => exact h.requests hasks
  | rests hplace hstate => exact h.rests hplace hstate
  | timesOut hplace hpoll =>
      refine h.pass htime hplace rfl (fun _ => rfl) rfl fun hstate _ => ?_
      exact Client.runsOut_of_nothing hstate hplace (fun packet hread => by simp [hpoll] at hread)
        (Or.inl hpoll)
  | pollFails hplace hpoll =>
      refine h.pass htime hplace rfl (fun _ => rfl) rfl fun hstate hends => ?_
      exact Client.runsOut_of_nothing hstate hplace (fun packet hread => by simp [hpoll] at hread)
        (Or.inr (Client.pollAgain_evaluates hends))
  | ignores hplace hpoll hignored =>
      refine h.pass htime hplace rfl (fun _ => rfl) rfl fun hstate hends => ?_
      refine Client.runsOut_of_nothing hstate hplace (fun packet hread => ?_)
        (Or.inr (Client.pollAgain_evaluates hends))
      obtain rfl := Client.packet_unique hpoll hread
      exact hignored
  | offered _ _ _ hstate =>
      have hnone : leaseOf p.client.history = none := h.none_of_offline (by rw [hstate]; rfl)
      exact onTime_of_none ((leaseOf_entered_ne (Or.inr (by decide)) _).trans hnone)
  | bound hplace hpoll hreceived hstate htype hconfigure =>
      exact OnTime.binds htime hworks hplace hpoll hreceived hstate htype hconfigure
  | @misconfigured timeout packet ack c' hplace hpoll hreceived hstate htype hconfigure =>
      have hconfigures := Client.configureDhcp_configures (p.client.reads packet) ack a
      rw [hconfigure] at hconfigures
      have hfails := (hconfigures.routes_iff hworks).not.mp Bool.false_ne_true
      obtain ⟨info, t1, t2, host, rfl, -⟩ := Client.configureDhcp_false hconfigure
      refine h.pass htime hplace rfl (fun hbound => absurd hbound hstate.ne_bound) rfl
        fun _ hends => ⟨hstate, timeout, hplace, Or.inr ⟨Client.pollAgain_evaluates hends,
          Client.not_takesNak_of_ack hpoll hreceived htype, ?_⟩⟩
      rintro ⟨hsome, hroutes⟩
      rw [Client.acknowledged_received hplace hpoll hreceived hstate htype] at hsome
      exact hfails ⟨Option.ne_none_iff_exists'.mp hsome, hroutes⟩
  | denied _ _ _ hstate =>
      refine onTime_of_none ((leaseOf_entered _ _ _).trans ?_)
      split_ifs
      · rfl
      · rfl

/-- On time, the lease is not over when `mState` is evaluated. -/
theorem OnTime.lives (h : p.OnTime late) (htimely : p.Timely late a)
    (hplace : p.client.place = .evaluate) {lease : DhcpInfo × Nat}
    (hmem : lease ∈ leaseOf p.client.history) : a.now < leaseEnd lease := by
  have honline : p.client.mState.online = true := h.online fun hnone =>
    Option.not_mem_none lease (hnone ▸ hmem)
  have hnow := htimely hplace honline
  have hdue := h.due (Or.inr hplace) lease hmem
  omega

end

end Paced

end AndroidX86Tv.Dhcp
