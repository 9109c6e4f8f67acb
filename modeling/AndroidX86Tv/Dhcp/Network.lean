import AndroidX86Tv.Dhcp.Handshake

/-!
# The network that a client leaves (client/dhcpclient.cpp)

Where the system calls succeed the network is what the configurations and halts of the
history make of it, and nothing else changes it. While the client holds a lease it is
configured as the last ACK says; the addresses of the interface are those from before and
those of ACKs.
-/

namespace AndroidX86Tv.Dhcp

open EventHistory

def Host.halted (host : Host) : Host := (host.withAddress 0 0).down

/-- The information of the last configuration, unless the network was halted since. -/
def currentLease : List Event → Option DhcpInfo
  | [] => none
  | .configured _ info _ :: _ => some info
  | .halted :: _ => none
  | _ :: past => currentLease past

/-- What the events make of a host. -/
def networkAfter (start : Host) (skipGateway : Bool) : List Event → Host
  | [] => start
  | .configured _ info _ :: past =>
      (networkAfter start skipGateway past).configured info skipGateway
  | .halted :: past => (networkAfter start skipGateway past).halted
  | _ :: past => networkAfter start skipGateway past

section Events

variable {start : Host} {skipGateway : Bool} {past : List Event} {info : DhcpInfo}

theorem networkAfter_leased (h : currentLease past = some info) :
    (networkAfter start skipGateway past).Configured info ∧
      (skipGateway = false →
        info.gateway ∈ (networkAfter start skipGateway past).defaultRoutes) := by
  induction past with
  | nil => exact absurd h nofun
  | cons e past ih =>
      cases e with
      | configured ack info' time =>
          obtain rfl : info' = info := Option.some.inj h
          exact ⟨Host.configured_configured _ _ _, Host.gateway_mem_configured _ _⟩
      | halted => exact absurd h nofun
      | entered => exact ih h
      | sent => exact ih h
      | read => exact ih h
      | uninitialised => exact ih h

/-- An address that is on the interface was there before, or came with an ACK. -/
def AddressFrom (start : Host) (past : List Event) (got : IfAddress) : Prop :=
  got ∈ start.addresses ∨ got.address = 0 ∨ ∃ ack info time, .configured ack info time ∈ past ∧
    got = Host.asked info.offeredAddress info.subnetMask

theorem AddressFrom.cons {got : IfAddress} (h : AddressFrom start past got) (e : Event) :
    AddressFrom start (e :: past) got := by
  rcases h with h | h | ⟨ack, info, time, hmem, hgot⟩
  · exact Or.inl h
  · exact Or.inr (Or.inl h)
  · exact Or.inr (Or.inr ⟨ack, info, time, List.mem_cons_of_mem e hmem, hgot⟩)

theorem networkAfter_kernel : (networkAfter start skipGateway past).kernel = start.kernel := by
  induction past with
  | nil => rfl
  | cons e past ih =>
      cases e with
      | configured => exact ih
      | halted =>
          refine Eq.trans ?_ ih
          rw [networkAfter, Host.halted, Host.down]
          split_ifs <;> rfl
      | entered => exact ih
      | sent => exact ih
      | read => exact ih
      | uninitialised => exact ih

theorem networkAfter_addresses (hkernel : start.kernel.Documented) {got : IfAddress}
    (hgot : got ∈ (networkAfter start skipGateway past).addresses) :
    AddressFrom start past got := by
  induction past with
  | nil => exact Or.inl hgot
  | cons e past ih =>
      have hsame : (networkAfter start skipGateway past).kernel.Documented := by
        rw [networkAfter_kernel]
        exact hkernel
      cases e with
      | configured ack info time =>
          rcases hsame.only _ _ got hgot with hold | hnew
          · exact (ih hold).cons _
          · exact Or.inr (Or.inr ⟨ack, info, time, List.mem_cons_self, hnew⟩)
      | halted =>
          rw [networkAfter, Host.halted, Host.down_addresses] at hgot
          rcases hsame.only _ _ got hgot with hold | hnew
          · exact (ih hold).cons _
          · exact Or.inr (Or.inl (congrArg IfAddress.address hnew))
      | entered => exact (ih hgot).cons _
      | sent => exact (ih hgot).cons _
      | read => exact (ih hgot).cons _
      | uninitialised => exact (ih hgot).cons _

/-- An address of the interface after `init` was there before it. -/
theorem AddressFrom.of_fresh {host : Host} (hkernel : host.kernel.Documented) {past : List Event}
    {got : IfAddress} (h : AddressFrom { host.withAddress 0 0 with up := true } past got) :
    AddressFrom host past got := by
  rcases h with h | h
  · rcases hkernel.only _ _ got h with hold | hnew
    · exact Or.inl hold
    · exact Or.inr (Or.inl (congrArg IfAddress.address hnew))
  · exact Or.inr h

end Events

namespace Client

variable {c c' : Client} {a : Answers} {options : UInt32} {start : Host}

/-- The network is what the history makes of it, and there is a lease in the states that
use one. -/
structure Settled (options : UInt32) (start : Host) (c : Client) : Prop where
  mOptions : c.mOptions = options
  host : c.host = networkAfter start (options &&& noGateway ≠ 0) c.history
  leased : c.mState.online = true → currentLease c.history ≠ none

theorem Settled.sends (h : Settled options start c) (destination : Option InAddr) :
    Settled options start ((c.sendDhcpRequest destination).increaseTimeout.beginWait a) := by
  cases sendDhcpRequest_cases c destination with
  | inl hsent =>
      obtain ⟨requestAddress, server, hsend⟩ := hsent
      rw [hsend]
      exact ⟨h.mOptions, h.host, h.leased⟩
  | inr hnone =>
      rw [hnone]
      exact ⟨h.mOptions, h.host, h.leased⟩

theorem Settled.move (h : Settled options start c) (hcalls : a.calls.Work)
    (hmove : Moves c a c') : Settled options start c' := by
  have hconfigure : ∀ info, c.host.configure info (c.mOptions &&& noGateway ≠ 0) a.calls =
      (.configured, c.host.configured info (options &&& noGateway ≠ 0)) := by
    intro info
    rw [h.mOptions]
    exact Host.configure_eq hcalls c.host info _
  cases hmove with
  | leaves hplace hleaves => exact ⟨h.mOptions, h.host, fun hnew => h.leased (hleaves.online hnew)⟩
  | discovers => exact ⟨h.mOptions, h.host, h.leased⟩
  | @requests destination => exact h.sends destination
  | rests => exact ⟨h.mOptions, h.host, h.leased⟩
  | timesOut => exact ⟨h.mOptions, h.host, h.leased⟩
  | pollFails => exact ⟨h.mOptions, h.host, h.leased⟩
  | ignores => exact ⟨h.mOptions, h.host, h.leased⟩
  | offered => exact ⟨h.mOptions, h.host, nofun⟩
  | bound _ _ _ _ _ hsucceeds =>
      obtain ⟨info, host, -, -, hhost, rfl⟩ := configureDhcp_true hsucceeds
      have hnetwork : host = c.host.configured info (options &&& noGateway ≠ 0) :=
        congrArg Prod.snd (hhost.symm.trans (hconfigure info))
      refine ⟨h.mOptions, ?_, fun _ => nofun⟩
      rw [hnetwork, h.host]
      rfl
  | misconfigured _ _ _ _ _ hfails =>
      obtain ⟨info, t1, t2, host, rfl, hhost⟩ := configureDhcp_false hfails
      rcases hhost with rfl | ⟨info, exit, hhost, hexit, -⟩
      · exact ⟨h.mOptions, h.host, h.leased⟩
      · -- where the calls succeed only the message can be at fault
        exact absurd (congrArg Prod.fst (hhost.symm.trans (hconfigure info))) hexit
  | denied =>
      refine ⟨h.mOptions, ?_, nofun⟩
      have hhalt : c.host.halt a.calls = c.host.halted := Host.halt_works hcalls.interface
      exact hhalt.trans (congrArg Host.halted h.host)

theorem fresh_settled (options : UInt32) (macAddress : Mac) (host : Host) :
    Settled options { host.withAddress 0 0 with up := true } (fresh options macAddress host) :=
  ⟨rfl, rfl, nofun⟩

theorem after_settled (options : UInt32) (macAddress : Mac) (host : Host)
    {answers : List Answers} (hcalls : ∀ a ∈ answers, a.calls.Work) :
    Settled options { host.withAddress 0 0 with up := true }
      (after options macAddress host answers) :=
  ((allSteps_forall step _ answers).mpr hcalls).invariant
    (fun _ a h ha => h.move ha (step_moves _ a)) (fresh_settled options macAddress host)

/-- While all system calls succeed the network is what the configurations and halts make
of it: with a lease it is configured as the last ACK says, without one the client is not in a
state that uses one, and the addresses of the interface are those from before and those that
came with ACKs. -/
theorem after_network (options : UInt32) (macAddress : Mac) (host : Host)
    (answers : List Answers) (hkernel : host.kernel.Documented)
    (hcalls : ∀ a ∈ answers, a.calls.Work) :
    (after options macAddress host answers).host =
        networkAfter { host.withAddress 0 0 with up := true } (options &&& noGateway ≠ 0)
          (after options macAddress host answers).history ∧
      (∀ info, currentLease (after options macAddress host answers).history = some info →
        (after options macAddress host answers).host.Configured info ∧
          (options &&& noGateway = 0 →
            info.gateway ∈ (after options macAddress host answers).host.defaultRoutes)) ∧
      (currentLease (after options macAddress host answers).history = none →
        (after options macAddress host answers).mState.online = false) ∧
      ∀ got ∈ (after options macAddress host answers).host.addresses,
        AddressFrom host (after options macAddress host answers).history got := by
  have hsettled := after_settled options macAddress host hcalls
  refine ⟨hsettled.host, fun info hlease => ?_, fun hlease => ?_, fun got hgot => ?_⟩
  · rw [hsettled.host]
    obtain ⟨hconfigured, hgateway⟩ := networkAfter_leased hlease
    exact ⟨hconfigured, fun hoption => hgateway (decide_eq_false (not_not_intro hoption))⟩
  · exact Bool.eq_false_iff.mpr fun honline => hsettled.leased honline hlease
  · have hstart : ({ host.withAddress 0 0 with up := true } : Host).kernel.Documented := hkernel
    rw [hsettled.host] at hgot
    exact (networkAfter_addresses hstart hgot).of_fresh hkernel

/-- The emulated device is bound, and one second later nothing has changed. -/
def boundDeviceRun : List Answers :=
  [Answers.quiet 0, Answers.quiet 0, offeringRouter, Answers.quiet 1000, acknowledgingRouter,
    Answers.quiet 3000]

theorem after_network_device :
    (after 0 deviceMac bareHost boundDeviceRun).host =
        networkAfter { bareHost.withAddress 0 0 with up := true } false
          (after 0 deviceMac bareHost boundDeviceRun).history ∧
      (∀ info, currentLease (after 0 deviceMac bareHost boundDeviceRun).history = some info →
        (after 0 deviceMac bareHost boundDeviceRun).host.Configured info ∧
          ((0 : UInt32) &&& noGateway = 0 →
            info.gateway ∈ (after 0 deviceMac bareHost boundDeviceRun).host.defaultRoutes)) ∧
      (currentLease (after 0 deviceMac bareHost boundDeviceRun).history = none →
        (after 0 deviceMac bareHost boundDeviceRun).mState.online = false) ∧
      ∀ got ∈ (after 0 deviceMac bareHost boundDeviceRun).host.addresses,
        AddressFrom bareHost (after 0 deviceMac bareHost boundDeviceRun).history got :=
  have hcalls : ∀ a ∈ boundDeviceRun, a.calls.Work := by
    intro a hmem
    have hall : a.calls = allCallsWork := by
      simp only [boundDeviceRun, List.mem_cons, List.not_mem_nil, or_false] at hmem
      rcases hmem with rfl | rfl | rfl | rfl | rfl | rfl <;> rfl
    rw [hall]
    exact allCallsWork_work
  after_network 0 deviceMac bareHost boundDeviceRun linuxKernel_documented hcalls

end Client

end AndroidX86Tv.Dhcp
