import AndroidX86Tv.Dhcp.Pace

/-!
# The end of a lease

A lease ends when it runs out, with a NAK, when `Rebinding` gives up, or when an ACK
replaces it. The client never takes its address from the interface; it only asks for
another one, or for 0.0.0.0 on a NAK, and the kernel decides what becomes of the old one.
-/

namespace AndroidX86Tv.Dhcp

open EventHistory

/-- The addresses obtained by DHCP, those of the ACKs to REQUESTs that grant a lease. -/
def obtained : List Event → List InAddr
  | [] => []
  | .read state _ (some msg) :: past =>
      if State.Requests state ∧ msg.type = dhcpAck ∧ granted msg ≠ none ∧ msg.yiaddr ≠ 0 then
        msg.yiaddr :: obtained past
      else obtained past
  | _ :: past => obtained past

theorem obtained_ne_zero {past : List Event} {address : InAddr} (h : address ∈ obtained past) :
    address ≠ 0 := by
  induction past with
  | nil => exact absurd h List.not_mem_nil
  | cons e past ih =>
      cases e with
      | read state last received =>
          cases received with
          | none => exact ih h
          | some msg =>
              rw [obtained] at h
              split_ifs at h with hgrants
              · rcases List.mem_cons.mp h with rfl | h
                · exact hgrants.2.2.2
                · exact ih h
              · exact ih h
      | entered => exact ih h
      | sent => exact ih h
      | configured => exact ih h
      | halted => exact ih h
      | uninitialised => exact ih h

/-- The interface has the address. -/
def Host.Carries (host : Host) (address : InAddr) : Prop :=
  ∃ got ∈ host.addresses, got.address = address

instance (host : Host) (address : InAddr) : Decidable (host.Carries address) :=
  inferInstanceAs (Decidable (∃ _ ∈ _, _))

namespace Client

/-- Of the addresses obtained by DHCP the interface has that of the lease only. -/
def OnlyLeased (c : Client) : Prop :=
  ∀ got ∈ c.host.addresses, got.address ∈ obtained c.history →
    ∃ lease ∈ leaseOf c.history, lease.1.offeredAddress = got.address

/-- After the step the interface has an address obtained by DHCP only under a lease, and
not where `mState` was evaluated at or after its end. -/
def KeepsToLease (c : Client) (a : Answers) (c' : Client) : Prop :=
  c'.OnlyLeased ∧
    (c.place = .evaluate → ∀ lease ∈ leaseOf c'.history, leaseEnd lease ≤ a.now →
      lease.1.offeredAddress ≠ 0 → ¬ c'.host.Carries lease.1.offeredAddress)

instance (c : Client) : Decidable c.OnlyLeased :=
  inferInstanceAs (Decidable (∀ _ ∈ _, _ → _))

instance (c : Client) (a : Answers) (c' : Client) : Decidable (KeepsToLease c a c') :=
  inferInstanceAs (Decidable (_ ∧ (_ → ∀ _ ∈ _, _ → _ → _)))

/-- `Rebinding` has come to the end of its retries, with the leased address in place. -/
def GivesUp (c : Client) : Prop :=
  c.place = .evaluate ∧ c.mState = .rebinding ∧ c.mNextTimeout ≥ kMaxTimeout ∧
    ∃ lease ∈ leaseOf c.history, lease.1.offeredAddress ≠ 0 ∧
      c.host.Carries lease.1.offeredAddress

/-- What the kernel makes of the request for an address has the leased one, too. -/
def LeavesLeased (c : Client) (address subnetMask : InAddr) : Prop :=
  ∃ lease ∈ leaseOf c.history, lease.1.offeredAddress ≠ 0 ∧ lease.1.offeredAddress ≠ address ∧
    (c.host.withAddress address subnetMask).Carries lease.1.offeredAddress

/-- A NAK is read, and 0.0.0.0 does not take the place of the leased address. -/
def Denied (c : Client) (a : Answers) : Prop := c.TakesNak a ∧ c.LeavesLeased 0 0

/-- An ACK is configured, and its address does not take the place of the leased one. -/
def Replaced (c : Client) (a : Answers) : Prop :=
  c.Routes a ∧ ∃ info ∈ c.acknowledged a, c.LeavesLeased info.offeredAddress info.subnetMask

/-- An ACK for another address than the leased one comes as far as the gateway, whose
route cannot be sent. -/
def Unrouted (c : Client) (a : Answers) : Prop :=
  ¬ c.Routes a ∧ ∃ info ∈ c.acknowledged a, info.offeredAddress ≠ 0 ∧
    ∀ lease ∈ leaseOf c.history, lease.1.offeredAddress ≠ info.offeredAddress

/-- The steps that leave an address on the interface without a lease. -/
def Overstays (c : Client) (a : Answers) : Prop :=
  c.GivesUp ∨ c.Denied a ∨ c.Replaced a ∨ c.Unrouted a

section

variable {c c' : Client} {a : Answers} {timeout : Nat} {packet : Option Message}

theorem not_givesUp_of_poll (hplace : c.place = .poll timeout) : ¬ c.GivesUp := fun h =>
  polls_not_evaluate hplace h.1

/-- Where neither a NAK nor an ACK that grants a lease is read, only the retries count. -/
theorem overstays_of_nothing (hnak : ¬ c.TakesNak a) (hnone : c.acknowledged a = none) :
    c.Overstays a ↔ c.GivesUp := by
  apply or_iff_left
  rintro (hdenied | ⟨-, info, hmem, -⟩ | ⟨-, info, hmem, -⟩)
  · exact hnak hdenied.1
  · exact Option.not_mem_none info (hnone ▸ hmem)
  · exact Option.not_mem_none info (hnone ▸ hmem)

theorem not_overstays_of_nothing (hplace : c.place = .poll timeout) (hnak : ¬ c.TakesNak a)
    (hnone : c.acknowledged a = none) : ¬ c.Overstays a := by
  rw [overstays_of_nothing hnak hnone]
  exact not_givesUp_of_poll hplace

theorem overstays_evaluate (hplace : c.place = .evaluate) : c.Overstays a ↔ c.GivesUp := by
  apply overstays_of_nothing
  · rintro ⟨timeout, packet, nak, hpoll, -⟩
    exact polls_not_evaluate hpoll hplace
  · rw [acknowledged, hplace]

theorem not_overstays_elsewhere (hplace : c.place = .evaluate) (hstate : c.mState ≠ .rebinding) :
    ¬ c.Overstays a := by
  rw [overstays_evaluate hplace]
  exact fun hgivesUp => hstate hgivesUp.2.1

/-- Where a NAK is read, 0.0.0.0 has to take the place of the leased address. -/
theorem overstays_of_nak (hplace : c.place = .poll timeout) (hnak : c.TakesNak a) :
    c.Overstays a ↔ c.LeavesLeased 0 0 := by
  have hnone := hnak.acknowledged
  constructor
  · rintro (hgivesUp | hdenied | ⟨-, info, hmem, -⟩ | ⟨-, info, hmem, -⟩)
    · exact absurd hgivesUp (not_givesUp_of_poll hplace)
    · exact hdenied.2
    · exact absurd (hnone ▸ hmem) (Option.not_mem_none info)
    · exact absurd (hnone ▸ hmem) (Option.not_mem_none info)
  · exact fun hleaves => Or.inr (Or.inl ⟨hnak, hleaves⟩)

section Acknowledged

variable {info : DhcpInfo} (hplace : c.place = .poll timeout)
  (hacknowledged : c.acknowledged a = some info)

theorem not_takesNak_of_acknowledged (h : c.acknowledged a = some info) : ¬ c.TakesNak a :=
  fun hnak => Option.some_ne_none info (h.symm.trans hnak.acknowledged)

include hplace hacknowledged

/-- Where an ACK is configured, its address has to take the place of the leased one. -/
theorem overstays_of_routed (hroutes : c.Routes a) :
    c.Overstays a ↔ c.LeavesLeased info.offeredAddress info.subnetMask := by
  constructor
  · rintro (hgivesUp | hdenied | ⟨-, info', hmem, hleaves⟩ | hunrouted)
    · exact absurd hgivesUp (not_givesUp_of_poll hplace)
    · exact absurd hdenied.1 (not_takesNak_of_acknowledged hacknowledged)
    · obtain rfl := Option.some.inj (hacknowledged.symm.trans hmem)
      exact hleaves
    · exact absurd hroutes hunrouted.1
  · exact fun hleaves => Or.inr (Or.inr (Or.inl ⟨hroutes, info, hacknowledged, hleaves⟩))

/-- Where the route of an ACK cannot be sent, its address has to be the leased one. -/
theorem overstays_of_unrouted (hroutes : ¬ c.Routes a) :
    c.Overstays a ↔ info.offeredAddress ≠ 0 ∧
      ∀ lease ∈ leaseOf c.history, lease.1.offeredAddress ≠ info.offeredAddress := by
  constructor
  · rintro (hgivesUp | hdenied | hreplaced | ⟨-, info', hmem, hother⟩)
    · exact absurd hgivesUp (not_givesUp_of_poll hplace)
    · exact absurd hdenied.1 (not_takesNak_of_acknowledged hacknowledged)
    · exact absurd hreplaced.1 hroutes
    · obtain rfl := Option.some.inj (hacknowledged.symm.trans hmem)
      exact hother
  · exact fun hother => Or.inr (Or.inr (Or.inr ⟨hroutes, info, hacknowledged, hother⟩))

end Acknowledged

theorem ReadsNothing.not_overstays (h : c.ReadsNothing a) (hplace : c.place = .poll timeout) :
    ¬ c.Overstays a :=
  not_overstays_of_nothing hplace h.not_takesNak h.acknowledged

theorem readsNothing_of_poll (hpoll : ∀ packet, a.poll ≠ .readable packet) : c.ReadsNothing a :=
  fun packet hread => absurd hread (hpoll packet)

/-- What is read and is no ACK that grants a lease adds no address. -/
theorem obtained_reads (h : ∀ msg, c.receiveDhcpMessage packet = some msg →
    ¬ (State.Requests c.mState ∧ msg.type = dhcpAck ∧ granted msg ≠ none)) :
    obtained (c.reads packet).history = obtained c.history := by
  change obtained (.read c.mState c.mLastMsg (c.receiveDhcpMessage packet) :: c.history) = _
  cases hreceived : c.receiveDhcpMessage packet with
  | none => rfl
  | some msg =>
      rw [obtained, if_neg]
      exact fun hgrants => h msg hreceived ⟨hgrants.1, hgrants.2.1, hgrants.2.2.1⟩

theorem obtained_reads_ack {ack : Message} {info : DhcpInfo}
    (hreceived : c.receiveDhcpMessage packet = some ack) (hstate : State.Requests c.mState)
    (htype : ack.type = dhcpAck) (hgranted : granted ack = some info) (address : InAddr) :
    address ∈ obtained (c.reads packet).history ↔
      address = ack.yiaddr ∧ address ≠ 0 ∨ address ∈ obtained c.history := by
  change address ∈ obtained (.read c.mState c.mLastMsg (c.receiveDhcpMessage packet) ::
    c.history) ↔ _
  rw [hreceived, obtained]
  by_cases hzero : ack.yiaddr = 0
  · rw [if_neg fun h => h.2.2.2 hzero]
    refine (or_iff_right ?_).symm
    rintro ⟨rfl, hne⟩
    exact hne hzero
  · rw [if_pos ⟨hstate, htype, hgranted ▸ Option.some_ne_none info, hzero⟩, List.mem_cons]
    refine or_congr_left (and_iff_left_of_imp ?_).symm
    rintro rfl
    exact hzero

/-- What holds of the client between its steps. -/
structure Housed (c : Client) : Prop where
  kernel : c.host.kernel.Documented
  onlyLeased : c.OnlyLeased
  fromAck : ∀ lease ∈ leaseOf c.history, lease.1.offeredAddress ≠ 0 →
    lease.1.offeredAddress ∈ obtained c.history

theorem Housed.leased (h : Housed c) {got : IfAddress} (hgot : got ∈ c.host.addresses)
    (hobtained : got.address ∈ obtained c.history) :
    ∃ lease ∈ leaseOf c.history, lease.1.offeredAddress = got.address :=
  h.onlyLeased got hgot hobtained

/-- A step that leaves the addresses and the lease. -/
theorem Housed.onlyLeased_of_same (h : Housed c) (haddresses : c'.host.addresses = c.host.addresses)
    (hlease : leaseOf c'.history = leaseOf c.history)
    (hobtained : obtained c'.history = obtained c.history) : c'.OnlyLeased := by
  rw [OnlyLeased, haddresses, hlease, hobtained]
  exact h.onlyLeased

/-- When `Rebinding` gives up the addresses stay, and the lease is gone. -/
theorem Housed.onlyLeased_of_givesUp (h : Housed c) (hplace : c.place = .evaluate)
    (hstate : c.mState = .rebinding) (hlimit : c.mNextTimeout ≥ kMaxTimeout)
    (haddresses : c'.host.addresses = c.host.addresses) (hlease : leaseOf c'.history = none)
    (hobtained : obtained c'.history = obtained c.history) :
    c'.OnlyLeased ↔ ¬ c.Overstays a := by
  rw [overstays_evaluate hplace, OnlyLeased, haddresses, hlease, hobtained]
  constructor
  · rintro hnone ⟨-, -, -, lease, hmem, hne, got, hgot, hsame⟩
    obtain ⟨other, hother, -⟩ := hnone got hgot (hsame.symm ▸ h.fromAck lease hmem hne)
    exact absurd hother (Option.not_mem_none other)
  · intro hstays got hgot hheld
    obtain ⟨lease, hmem, hsame⟩ := h.leased hgot hheld
    refine absurd ⟨hplace, hstate, hlimit, lease, hmem, ?_, got, hgot, hsame.symm⟩ hstays
    rw [hsame]
    exact obtained_ne_zero hheld

theorem Housed.leaves_iff {new : State} (h : Housed c) (hplace : c.place = .evaluate)
    (hleaves : Leaves c a new) :
    OnlyLeased { c.setNextState new with place := .evaluate } ↔ ¬ c.Overstays a := by
  have hother : ∀ {state}, c.mState = state → state ≠ .rebinding →
      (OnlyLeased { c.setNextState new with place := .evaluate } ↔ ¬ c.Overstays a) := by
    intro state hstate hne
    have hstays : c.mState ≠ .rebinding := hstate.symm ▸ hne
    refine iff_of_true (h.onlyLeased_of_same rfl ?_ rfl) (not_overstays_elsewhere hplace hstays)
    exact leaseOf_entered_ne (Or.inl hstays) _
  cases hleaves with
  | start hstate => exact hother hstate (by decide)
  | requestingEnds hstate => exact hother hstate (by decide)
  | renews hstate => exact hother hstate (by decide)
  | rebinds hstate => exact hother hstate (by decide)
  | rebindingEnds hstate hlimit =>
      refine h.onlyLeased_of_givesUp hplace hstate hlimit rfl ?_ rfl
      exact (leaseOf_entered _ _ _).trans (if_pos ⟨hstate, rfl⟩)

/-- Where an ACK is configured the interface has the addresses that the kernel leaves. -/
theorem Housed.bound_iff {info : DhcpInfo} {ack : Message} (h : Housed c)
    (hplace : c.place = .poll timeout) (hroutes : c.Routes a)
    (hacknowledged : c.acknowledged a = some info) (hyiaddr : info.offeredAddress = ack.yiaddr)
    (haddresses : c'.host.addresses =
      (c.host.withAddress info.offeredAddress info.subnetMask).addresses)
    (hlease : leaseOf c'.history = some (info, a.nowT1))
    (hobtained : ∀ address, address ∈ obtained c'.history ↔
      address = ack.yiaddr ∧ address ≠ 0 ∨ address ∈ obtained c.history) :
    c'.OnlyLeased ↔ ¬ c.Overstays a := by
  rw [overstays_of_routed hplace hacknowledged hroutes, OnlyLeased, haddresses, hlease]
  constructor
  · rintro honly ⟨lease, hmem, hne, hother, got, hgot, hsame⟩
    have hheld : got.address ∈ obtained c'.history :=
      (hobtained got.address).mpr (Or.inr (hsame.symm ▸ h.fromAck lease hmem hne))
    obtain ⟨lease', hlease', hleased⟩ := honly got hgot hheld
    obtain rfl := Option.some.inj hlease'
    exact hother (hsame.symm.trans hleased.symm)
  · intro hstays got hgot hheld
    refine ⟨(info, a.nowT1), rfl, ?_⟩
    by_contra hother
    have hold : got.address ∈ obtained c.history :=
      ((hobtained got.address).mp hheld).resolve_left fun hnew =>
        hother (hyiaddr.trans hnew.1.symm)
    rcases h.kernel.only _ _ got hgot with hkept | hasked
    · obtain ⟨lease, hmem, hsame⟩ := h.leased hkept hold
      refine hstays ⟨lease, hmem, ?_, ?_, got, hgot, hsame.symm⟩
      · rw [hsame]
        exact obtained_ne_zero hheld
      · rw [hsame]
        exact fun heq => hother heq.symm
    · exact hother (congrArg IfAddress.address hasked).symm

/-- Where the route of an ACK cannot be sent its address is on the interface all the same. -/
theorem Housed.unrouted_iff {info : DhcpInfo} {ack : Message} (h : Housed c)
    (hplace : c.place = .poll timeout) (hroutes : ¬ c.Routes a)
    (hacknowledged : c.acknowledged a = some info) (hyiaddr : info.offeredAddress = ack.yiaddr)
    (haddresses : c'.host.addresses =
      (c.host.withAddress info.offeredAddress info.subnetMask).addresses)
    (hlease : leaseOf c'.history = leaseOf c.history)
    (hobtained : ∀ address, address ∈ obtained c'.history ↔
      address = ack.yiaddr ∧ address ≠ 0 ∨ address ∈ obtained c.history) :
    c'.OnlyLeased ↔ ¬ c.Overstays a := by
  rw [overstays_of_unrouted hplace hacknowledged hroutes, OnlyLeased, haddresses, hlease]
  constructor
  · rintro honly ⟨hne, hother⟩
    obtain ⟨got, hgot, hsame, -⟩ := h.kernel.adds c.host.addresses
      (Host.asked info.offeredAddress info.subnetMask) hne
    have hheld : got.address ∈ obtained c'.history :=
      (hobtained got.address).mpr (Or.inl ⟨hsame.trans hyiaddr, hsame.symm ▸ hne⟩)
    obtain ⟨lease, hlease', hleased⟩ := honly got hgot hheld
    exact hother lease hlease' (hleased.trans hsame)
  · intro hstays got hgot hheld
    by_cases hnew : got.address = info.offeredAddress
    · by_contra hnone
      refine hstays ⟨?_, ?_⟩
      · rw [← hnew]
        exact obtained_ne_zero hheld
      · exact fun lease hmem hsame => hnone ⟨lease, hmem, hsame.trans hnew.symm⟩
    · have hold : got.address ∈ obtained c.history :=
        ((hobtained got.address).mp hheld).resolve_left fun hack =>
          hnew (hack.1.trans hyiaddr.symm)
      rcases h.kernel.only _ _ got hgot with hkept | hasked
      · exact h.leased hkept hold
      · exact absurd (congrArg IfAddress.address hasked) hnew

/-- On a NAK the lease is gone, and the addresses are those that the kernel leaves. -/
theorem Housed.denied_iff (h : Housed c) (hplace : c.place = .poll timeout)
    (hnak : c.TakesNak a) (haddresses : c'.host.addresses = (c.host.withAddress 0 0).addresses)
    (hlease : leaseOf c'.history = none) (hobtained : obtained c'.history = obtained c.history) :
    c'.OnlyLeased ↔ ¬ c.Overstays a := by
  rw [overstays_of_nak hplace hnak, OnlyLeased, haddresses, hlease, hobtained]
  constructor
  · rintro honly ⟨lease, hmem, hne, -, got, hgot, hsame⟩
    obtain ⟨other, hother, -⟩ := honly got hgot (hsame.symm ▸ h.fromAck lease hmem hne)
    exact absurd hother (Option.not_mem_none other)
  · intro hstays got hgot hheld
    have hne := obtained_ne_zero hheld
    rcases h.kernel.only _ _ got hgot with hkept | hasked
    · obtain ⟨lease, hmem, hsame⟩ := h.leased hkept hheld
      rw [← hsame] at hne
      exact absurd ⟨lease, hmem, hne, hne, got, hgot, hsame.symm⟩ hstays
    · exact absurd (congrArg IfAddress.address hasked) hne

/-- A REQUEST is neither a lease nor an address. -/
theorem Housed.requests_iff {destination : Option InAddr} (h : Housed c)
    (hplace : c.place = .evaluate) (hasks : Asks c a destination) :
    OnlyLeased ((c.sendDhcpRequest destination).increaseTimeout.beginWait a) ↔
      ¬ c.Overstays a := by
  have hgoes : ¬ c.GivesUp := by
    rintro ⟨-, hstate, hlimit, -⟩
    cases hasks with
    | requesting hother => exact absurd (hother.symm.trans hstate) (by decide)
    | renewing hother => exact absurd (hother.symm.trans hstate) (by decide)
    | rebinding _ hlt => exact Nat.not_lt_of_le hlimit hlt
  rw [overstays_evaluate hplace]
  rcases sendDhcpRequest_cases c destination with ⟨requestAddress, server, hsend⟩ | hnone
  · rw [hsend]
    exact iff_of_true (h.onlyLeased_of_same rfl rfl rfl) hgoes
  · rw [hnone]
    exact iff_of_true (h.onlyLeased_of_same rfl rfl rfl) hgoes

/-- An ACK that is configured. -/
theorem Housed.configured_iff {ack : Message} (h : Housed c) (hworks : a.calls.InterfaceWorks)
    (hplace : c.place = .poll timeout) (hpoll : a.poll = .readable packet)
    (hreceived : c.receiveDhcpMessage packet = some ack) (hstate : State.Requests c.mState)
    (htype : ack.type = dhcpAck)
    (hconfigure : (c.reads packet).configureDhcp ack a = (true, c')) :
    OnlyLeased { c'.setNextState .bound with place := .evaluate } ↔ ¬ c.Overstays a := by
  have hroutes := (configureDhcp_configures (c.reads packet) ack a).routes_iff hworks
  rw [hconfigure] at hroutes
  obtain ⟨info, host, hread, hlease, hhost, rfl⟩ := configureDhcp_true hconfigure
  have hgranted := (granted_iff (c.reads packet).mDhcpInfo).mpr ⟨hread, hlease⟩
  apply h.bound_iff hplace (hroutes.mp rfl).2
    ((acknowledged_received hplace hpoll hreceived hstate htype).trans hgranted)
    (readOptions_offeredAddress hread)
  · exact (Host.configure_works hworks hhost).2.2
  · exact leaseOf_entered_ne (Or.inr (by decide)) _
  · exact obtained_reads_ack hreceived hstate htype hgranted

/-- An ACK that is not configured. -/
theorem Housed.misconfigured_iff {ack : Message} (h : Housed c) (hworks : a.calls.InterfaceWorks)
    (hplace : c.place = .poll timeout) (hpoll : a.poll = .readable packet)
    (hreceived : c.receiveDhcpMessage packet = some ack) (hstate : State.Requests c.mState)
    (htype : ack.type = dhcpAck)
    (hconfigure : (c.reads packet).configureDhcp ack a = (false, c')) :
    OnlyLeased (c'.pollAgain timeout a) ↔ ¬ c.Overstays a := by
  have hacknowledged := acknowledged_received hplace hpoll hreceived hstate htype
  have hconfigures := configureDhcp_configures (c.reads packet) ack a
  have hroutes := hconfigures.routes_iff hworks
  rw [hconfigure] at hconfigures hroutes
  have hrejected : granted ack = none → c'.host = c.host →
      c'.history = (c.reads packet).history →
        (OnlyLeased (c'.pollAgain timeout a) ↔ ¬ c.Overstays a) := by
    intro hnone hhost hhistory
    have hnothing : obtained (c.reads packet).history = obtained c.history :=
      obtained_reads fun msg hmsg hgrants => by
        obtain rfl := Option.some.inj (hreceived.symm.trans hmsg)
        exact hgrants.2.2 hnone
    apply iff_of_true
    · apply h.onlyLeased_of_same (congrArg Host.addresses hhost)
      · exact (congrArg leaseOf hhistory).trans rfl
      · exact (congrArg obtained hhistory).trans hnothing
    · exact not_overstays_of_nothing hplace (not_takesNak_of_ack hpoll hreceived htype)
        (hacknowledged.trans hnone)
  cases hconfigures with
  | rejected hread =>
      refine hrejected (Option.eq_none_iff_forall_ne_some.mpr fun info hgranted => ?_) rfl rfl
      have hread' := ((granted_iff (c.reads packet).mDhcpInfo).mp hgranted).1
      exact Bool.false_ne_true (congrArg Prod.fst (hread.symm.trans hread'))
  | noLease hread hlease =>
      refine hrejected (Option.eq_none_iff_forall_ne_some.mpr fun info hgranted => ?_) rfl rfl
      obtain ⟨hread', hne⟩ := (granted_iff (c.reads packet).mDhcpInfo).mp hgranted
      obtain ⟨-, rfl⟩ := Message.readOptions_unique hread hread'
      exact hne hlease
  | @stopped info exit host hread hlease hhost hexit =>
      have hgranted := (granted_iff (c.reads packet).mDhcpInfo).mpr ⟨hread, hlease⟩
      have hunrouted : ¬ c.Routes a := fun hyes =>
        Bool.false_ne_true (hroutes.mpr ⟨⟨info, hgranted⟩, hyes⟩)
      apply h.unrouted_iff hplace hunrouted (hacknowledged.trans hgranted)
        (readOptions_offeredAddress hread)
      · exact (Host.configure_works hworks hhost).2.2
      · rfl
      · exact obtained_reads_ack hreceived hstate htype hgranted

/-- A step leaves no address without a lease exactly if it does not overstay. -/
theorem Housed.move_iff (h : Housed c) (hworks : a.calls.InterfaceWorks) (hmove : Moves c a c') :
    c'.OnlyLeased ↔ ¬ c.Overstays a := by
  cases hmove with
  | leaves hplace hleaves => exact h.leaves_iff hplace hleaves
  | discovers hplace hstate =>
      exact iff_of_true (h.onlyLeased_of_same rfl rfl rfl)
        (not_overstays_elsewhere hplace (by rw [hstate]; decide))
  | requests hplace hasks => exact h.requests_iff hplace hasks
  | rests hplace hstate =>
      exact iff_of_true (h.onlyLeased_of_same rfl rfl rfl)
        (not_overstays_elsewhere hplace (by rw [hstate]; decide))
  | timesOut hplace hpoll =>
      refine iff_of_true (h.onlyLeased_of_same rfl rfl rfl) (ReadsNothing.not_overstays ?_ hplace)
      exact readsNothing_of_poll fun packet => by simp [hpoll]
  | pollFails hplace hpoll =>
      refine iff_of_true (h.onlyLeased_of_same rfl rfl rfl) (ReadsNothing.not_overstays ?_ hplace)
      exact readsNothing_of_poll fun packet => by simp [hpoll]
  | ignores hplace hpoll hignored =>
      apply iff_of_true
      · exact h.onlyLeased_of_same rfl rfl (obtained_reads fun msg hmsg hgrants =>
          hignored msg hmsg (Or.inr ⟨hgrants.1, Or.inl hgrants.2.1⟩))
      · refine ReadsNothing.not_overstays (fun packet hread => ?_) hplace
        obtain rfl := packet_unique hpoll hread
        exact hignored
  | offered hplace hpoll hreceived hstate htype =>
      have hother : ¬ State.Requests c.mState := fun hrequests => hrequests.ne_selecting hstate
      apply iff_of_true
      · refine h.onlyLeased_of_same ?_ ?_ ?_
        · rfl
        · exact leaseOf_entered_ne (Or.inr (by decide)) _
        · exact obtained_reads fun _ _ hgrants => hother hgrants.1
      · apply not_overstays_of_nothing hplace
        · rintro ⟨_, _, _, -, -, -, hrequests, -⟩
          exact hother hrequests
        · simp only [acknowledged, hplace, hpoll, hother, if_false]
  | bound hplace hpoll hreceived hstate htype hconfigure =>
      exact h.configured_iff hworks hplace hpoll hreceived hstate htype hconfigure
  | misconfigured hplace hpoll hreceived hstate htype hconfigure =>
      exact h.misconfigured_iff hworks hplace hpoll hreceived hstate htype hconfigure
  | @denied timeout packet nak hplace hpoll hreceived hstate htype =>
      apply h.denied_iff hplace ⟨timeout, packet, nak, hplace, hpoll, hreceived, hstate, htype⟩
      · change (c.host.halt a.calls).addresses = _
        rw [Host.halt_works hworks, Host.down_addresses]
      · refine (leaseOf_entered _ _ _).trans ?_
        split_ifs
        · rfl
        · rfl
      · refine obtained_reads fun msg hmsg hgrants => ?_
        obtain rfl := Option.some.inj (hreceived.symm.trans hmsg)
        exact dhcpNak_ne_dhcpAck (htype.symm.trans hgrants.2.1)

/-- After a step the lease is that from before it, gone, or that of an ACK just read. -/
theorem Moves.leaseOf_cases (hmove : Moves c a c') :
    leaseOf c'.history = leaseOf c.history ∨ leaseOf c'.history = none ∨
      c.place ≠ .evaluate ∧ ∃ info, leaseOf c'.history = some (info, a.nowT1) ∧
        (info.offeredAddress ≠ 0 → info.offeredAddress ∈ obtained c'.history) := by
  have hentered : ∀ {old new : State} {past : List Event}, leaseOf (.entered old new :: past) =
      leaseOf past ∨ leaseOf (.entered old new :: past) = none := by
    intro old new past
    rw [leaseOf_entered]
    split_ifs
    · exact Or.inr rfl
    · exact Or.inl rfl
  cases hmove with
  | leaves => exact hentered.imp id Or.inl
  | discovers => exact Or.inl rfl
  | @requests destination =>
      rcases sendDhcpRequest_cases c destination with ⟨requestAddress, server, hsend⟩ | hnone
      · rw [hsend]
        exact Or.inl rfl
      · rw [hnone]
        exact Or.inl rfl
  | rests => exact Or.inl rfl
  | timesOut => exact Or.inl rfl
  | pollFails => exact Or.inl rfl
  | ignores => exact Or.inl rfl
  | offered => exact Or.inl (leaseOf_entered_ne (Or.inr (by decide)) _)
  | @bound timeout packet ack c' hplace hpoll hreceived hstate htype hconfigure =>
      obtain ⟨info, host, hread, hlease, -, rfl⟩ := configureDhcp_true hconfigure
      have hgranted := (granted_iff (c.reads packet).mDhcpInfo).mpr ⟨hread, hlease⟩
      refine Or.inr (Or.inr ⟨polls_not_evaluate hplace, info, ?_, fun hne => ?_⟩)
      · exact leaseOf_entered_ne (Or.inr (by decide)) _
      · exact (obtained_reads_ack hreceived hstate htype hgranted info.offeredAddress).mpr
          (Or.inl ⟨readOptions_offeredAddress hread, hne⟩)
  | misconfigured _ _ _ _ _ hconfigure =>
      obtain ⟨info, t1, t2, host, rfl, -⟩ := configureDhcp_false hconfigure
      exact Or.inl rfl
  | denied => exact Or.inr (Or.inl (hentered.elim id id))

theorem obtained_append (new past : List Event) : obtained past ⊆ obtained (new ++ past) := by
  induction new with
  | nil => exact List.Subset.refl _
  | cons e new ih =>
      cases e with
      | read state last received =>
          cases received with
          | none => exact ih
          | some msg =>
              rw [List.cons_append, obtained]
              split_ifs
              · exact List.subset_cons_of_subset _ ih
              · exact ih
      | entered => exact ih
      | sent => exact ih
      | configured => exact ih
      | halted => exact ih
      | uninitialised => exact ih

/-- A step that leaves no address without a lease leaves the rest in order. -/
theorem Housed.move (h : Housed c) (hmove : Moves c a c') (honly : c'.OnlyLeased) :
    Housed c' := by
  obtain ⟨new, hnew⟩ := hmove.history
  refine ⟨?_, honly, fun lease hmem hne => ?_⟩
  · rw [hmove.kernel]
    exact h.kernel
  · rcases hmove.leaseOf_cases with hsame | hgone | ⟨-, info, hlease, hobtained⟩
    · rw [hnew]
      exact obtained_append new c.history (h.fromAck lease (hsame.symm.trans hmem) hne)
    · exact absurd (hgone ▸ hmem) (Option.not_mem_none lease)
    · obtain rfl := Option.some.inj (hlease.symm.trans hmem)
      exact hobtained hne

/-- An evaluation leaves the host alone. -/
theorem Moves.host (hmove : Moves c a c') (hplace : c.place = .evaluate) : c'.host = c.host := by
  cases hmove with
  | @requests destination =>
      rcases sendDhcpRequest_cases c destination with ⟨requestAddress, server, hsend⟩ | hnone
      · rw [hsend]
        rfl
      · rw [hnone]
        rfl
  | leaves => rfl
  | discovers => rfl
  | rests => rfl
  | timesOut hpolls => exact absurd hplace (polls_not_evaluate hpolls)
  | pollFails hpolls => exact absurd hplace (polls_not_evaluate hpolls)
  | ignores hpolls => exact absurd hplace (polls_not_evaluate hpolls)
  | offered hpolls => exact absurd hplace (polls_not_evaluate hpolls)
  | bound hpolls => exact absurd hplace (polls_not_evaluate hpolls)
  | misconfigured hpolls => exact absurd hplace (polls_not_evaluate hpolls)
  | denied hpolls => exact absurd hplace (polls_not_evaluate hpolls)

/-- An evaluation that was due at or after the end of the lease finds its address in place
and leaves it there. -/
theorem Housed.outlives (h : Housed c) (hplace : c.place = .evaluate) {lease : DhcpInfo × Nat}
    (hmem : lease ∈ leaseOf c.history) (hne : lease.1.offeredAddress ≠ 0)
    (hcarries : c.host.Carries lease.1.offeredAddress) {due : Nat} (hdue : leaseEnd lease ≤ due)
    (hnow : due ≤ a.now) : ¬ KeepsToLease c a (c.step a) := by
  rintro ⟨honly, hover⟩
  have hhost := (step_moves c a).host hplace
  rcases (step_moves c a).leaseOf_cases with hsame | hgone | ⟨hpolls, -⟩
  · refine hover hplace lease (hsame.trans hmem) (Nat.le_trans hdue hnow) hne ?_
    rw [hhost]
    exact hcarries
  · obtain ⟨got, hgot, hgotSame⟩ := hcarries
    obtain ⟨new, hnew⟩ := (step_moves c a).history
    have hheld : got.address ∈ obtained (c.step a).history := by
      rw [hnew, hgotSame]
      exact obtained_append new c.history (h.fromAck lease hmem hne)
    obtain ⟨other, hother, -⟩ := honly got (hhost.symm ▸ hgot) hheld
    exact absurd (hgone ▸ hother) (Option.not_mem_none other)
  · exact hpolls hplace

/-- On time a step keeps to the lease exactly if it does not overstay. -/
theorem keeps_iff {late due : Nat} (h : Housed c) (htime : Paced.OnTime ⟨c, due⟩ late)
    (htimely : Paced.Timely ⟨c, due⟩ late a) (hworks : a.calls.InterfaceWorks)
    (hmove : Moves c a c') : KeepsToLease c a c' ↔ ¬ c.Overstays a := by
  rw [← h.move_iff hworks hmove]
  refine and_iff_left fun hplace lease hmem hover => ?_
  rcases hmove.leaseOf_cases with hsame | hgone | ⟨hpolls, -⟩
  · have hlives := htime.lives htimely hplace (hsame.symm.trans hmem)
    exact absurd hover (Nat.not_le_of_lt hlives)
  · exact absurd (hgone ▸ hmem) (Option.not_mem_none lease)
  · exact absurd hplace hpolls

end

/-- Where every operation on the interface succeeds and each step is in time, a run keeps
to the lease exactly if no step of it overstays. -/
theorem keepsToLease_iff (options : UInt32) (macAddress : Mac) (host : Host)
    {answers : List Answers} (late : Nat) (hkernel : host.kernel.Documented)
    (hworks : ∀ a ∈ answers, a.calls.InterfaceWorks)
    (htimely : AllSteps Paced.step (·.Timely late ·) ⟨fresh options macAddress host, 0⟩ answers)
    (htime : AllSteps Paced.step (·.InTime late ·) ⟨fresh options macAddress host, 0⟩ answers) :
    AllSteps step (fun c a => KeepsToLease c a (c.step a)) (fresh options macAddress host)
        answers ↔
      AllSteps step (fun c a => ¬ c.Overstays a) (fresh options macAddress host) answers := by
  have hstep : ∀ (p : Paced) a, (p.step a).client = step p.client a := fun _ _ => rfl
  rw [← allSteps_map Paced.client hstep ⟨fresh options macAddress host, 0⟩,
    ← allSteps_map Paced.client hstep ⟨fresh options macAddress host, 0⟩]
  have hfresh : Housed (fresh options macAddress host) :=
    ⟨hkernel, fun _ _ hheld => absurd hheld List.not_mem_nil,
      fun lease hmem => absurd hmem (Option.not_mem_none lease)⟩
  have hiff : ∀ (p : Paced) a, Housed p.client ∧ p.OnTime late →
      (p.Timely late a ∧ p.InTime late a) ∧ a.calls.InterfaceWorks →
        (KeepsToLease p.client a (p.client.step a) ↔ ¬ p.client.Overstays a) :=
    fun p a h hin => keeps_iff h.1 h.2 hin.1.1 hin.2 (step_moves p.client a)
  have hmove : ∀ (p : Paced) a, Housed p.client ∧ p.OnTime late →
      (p.Timely late a ∧ p.InTime late a) ∧ a.calls.InterfaceWorks →
        KeepsToLease p.client a (p.client.step a) →
          Housed (p.step a).client ∧ (p.step a).OnTime late :=
    fun p a h hin hkeeps => ⟨h.1.move (step_moves p.client a) hkeeps.1,
      h.2.move hin.1.2 hin.2 (step_moves p.client a)⟩
  exact allSteps_congr hiff hmove ⟨hfresh, Paced.onTime_of_none rfl⟩
    ((htimely.and htime).and_inputs hworks)

/-- The device gets a lease of ten seconds and its server falls silent. -/
def silentServerRun : List Answers :=
  let request := Message.request deviceMac deviceAddress routerAddress 2
  [.quiet 0, .quiet 0,
    .receives 1 (leaseReply dhcpOffer aDiscover routerAddress deviceAddress 10 5 8),
    .quiet 1, .receives 1 (leaseReply dhcpAck request routerAddress deviceAddress 10 5 8),
    .quiet 1, .quiet 5001, .quiet 5001, .quiet 5001, .quiet 9001, .quiet 9001, .quiet 9001]

theorem silentServerRun_works : ∀ a ∈ silentServerRun, a.calls.InterfaceWorks := by
  simp [silentServerRun, Answers.quiet_works, Answers.receives_works]

/-- `mState` is evaluated half a second late at most. -/
theorem silentServerRun_in_time :
    AllSteps step (fun c a => ¬ c.Overstays a) (fresh 0 deviceMac bareHost) silentServerRun :=
  (keepsToLease_iff 0 deviceMac bareHost 500 linuxKernel_documented silentServerRun_works
    (by decide +kernel) (by decide +kernel)).mp (by decide +kernel)

/-- `Rebinding` goes on after the lease has run out, with its address still on
the interface. -/
theorem address_outlives_lease :
    let answers := silentServerRun ++ [.quiet 13001, .quiet 13001]
    (∀ a ∈ answers, a.calls.InterfaceWorks) ∧
      ¬ AllSteps step (fun c a => KeepsToLease c a (c.step a)) (fresh 0 deviceMac bareHost)
        answers := by
  intro answers
  constructor
  · simp [answers, silentServerRun, Answers.quiet_works, Answers.receives_works]
  · decide +kernel

end Client

end AndroidX86Tv.Dhcp
