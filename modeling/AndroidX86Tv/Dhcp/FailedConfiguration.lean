import AndroidX86Tv.Dhcp.LeaseEnd

/-!
# A configuration that fails

`configureDhcp` arms the timers first and then changes the host piece by piece.
Where a later piece fails, the earlier ones stay; the client goes on in its state
with the timers of the ACK that it did not accept.
-/

namespace AndroidX86Tv.Dhcp

open EventHistory

namespace Host

/-- The interface is found up or can be brought up. -/
def BringsUp (host : Host) (calls : SystemCalls) : Prop :=
  calls.getFlags = true ∧ (host.up = true ∨ calls.setFlags = true)

/-- No fatal failure among the calls. -/
def Completes (host : Host) (skipGateway : Bool) (calls : SystemCalls) : Prop :=
  host.BringsUp calls ∧ calls.newAddress = .done ∧
    (skipGateway = true ∨ calls.sendRoute = true)

/-- Each change that a call would carry out has been made before. -/
structure InPlace (host : Host) (info : DhcpInfo) (calls : SystemCalls) : Prop where
  up : host.up = true
  mtu : info.mtu ≠ 0 → calls.setMtu = true → host.mtu = info.mtu
  gw : calls.setGw = true → host.properties.gw = some info.gateway
  dns : ∀ k, calls.setDns k = true →
    host.properties.dns k = if info.dns k ≠ 0 then some (info.dns k) else none
  address : calls.newAddress = .done ∨ calls.newAddress = .lost true →
    host.withAddress info.offeredAddress info.subnetMask = host

variable {host : Host} {info : DhcpInfo} {calls : SystemCalls} {skipGateway : Bool}

theorem bringUp_of_bringsUp (h : host.BringsUp calls) :
    host.bringUp calls = (true, { host with up := true }) := by
  rw [bringUp, setInterfaceUp, if_pos h.1]
  by_cases hup : host.up = true
  · rw [if_pos hup, ← hup]
  · rw [if_neg hup, if_pos (h.2.resolve_left hup)]
    rfl

theorem bringUp_of_not_bringsUp (h : ¬ host.BringsUp calls) :
    host.bringUp calls = (false, host) := by
  rw [bringUp, setInterfaceUp]
  split_ifs with hflags hup hset
  · exact absurd ⟨hflags, Or.inl hup⟩ h
  · exact absurd ⟨hflags, Or.inr hset⟩ h
  · rfl
  · rfl

/-- The host with the interface up, its link set and its address not yet. -/
def linked (host : Host) (info : DhcpInfo) (calls : SystemCalls) : Host :=
  ({ host with up := true } : Host).setLink info calls

theorem linked_eq : host.linked info calls =
    { host with
      up := true
      mtu := if info.mtu ≠ 0 ∧ calls.setMtu = true then info.mtu else host.mtu
      properties :=
        { gw := if calls.setGw then some info.gateway else host.properties.gw
          dns := fun k =>
            if calls.setDns k then if info.dns k ≠ 0 then some (info.dns k) else none
            else host.properties.dns k } } := by
  rw [linked, setLink, setMtu]
  by_cases hmtu : info.mtu ≠ 0
  · by_cases hset : calls.setMtu = true
    · rw [if_pos hmtu, if_pos hset, if_pos ⟨hmtu, hset⟩, setProperties]
    · rw [if_pos hmtu, if_neg hset, if_neg (fun h => hset h.2), setProperties]
  · rw [if_neg hmtu, if_neg (fun h => hmtu h.1), setProperties]

theorem ite_eq_right_iff_imp {α : Type*} {p : Prop} [Decidable p] {x y : α} :
    (if p then x else y) = y ↔ (p → y = x) := by
  rw [ite_eq_right_iff]
  exact imp_congr_right fun _ => eq_comm

/-- The link is as it was just where up flag, MTU and properties were in place. -/
theorem linked_eq_iff : host.linked info calls = host ↔
    host.up = true ∧ (info.mtu ≠ 0 → calls.setMtu = true → host.mtu = info.mtu) ∧
      (calls.setGw = true → host.properties.gw = some info.gateway) ∧
      ∀ k, calls.setDns k = true →
        host.properties.dns k = if info.dns k ≠ 0 then some (info.dns k) else none := by
  rw [linked_eq, Host.ext_iff, NetProperties.ext_iff, funext_iff]
  simp only [ite_eq_right_iff_imp, and_imp, true_and]
  exact and_congr_left fun _ => eq_comm

theorem linked_withAddress (address subnetMask : InAddr) :
    (host.linked info calls).withAddress address subnetMask =
      (host.withAddress address subnetMask).linked info calls := by
  rw [linked_eq, linked_eq]
  rfl

/-- Both the link and the address are as they were. -/
theorem linked_withAddress_eq_iff {address subnetMask : InAddr} :
    (host.linked info calls).withAddress address subnetMask = host ↔
      host.linked info calls = host ∧ host.withAddress address subnetMask = host := by
  constructor
  · intro hsame
    have hkept : host.kernel.newAddress host.addresses (asked address subnetMask) =
        host.addresses := by
      have haddresses := congrArg addresses hsame
      rwa [linked_eq] at haddresses
    have haddress : host.withAddress address subnetMask = host := by
      rw [withAddress, hkept]
    rw [linked_withAddress, haddress] at hsame
    exact ⟨hsame, haddress⟩
  · rintro ⟨hlinked, haddress⟩
    rw [hlinked, haddress]

/-- What `configure` does once the interface is up. -/
theorem configure_of_bringsUp (h : host.BringsUp calls) :
    host.configure info skipGateway calls =
      match (host.linked info calls).setAddress info.offeredAddress info.subnetMask calls with
      | (false, host) => (.noAddress, host)
      | (true, host) => host.route info skipGateway calls := by
  rw [configure, bringUp_of_bringsUp h]
  rfl

theorem configure_of_not_bringsUp (h : ¬ host.BringsUp calls) :
    host.configure info skipGateway calls = (.notUp, host) := by
  rw [configure, bringUp_of_not_bringsUp h]

/-- A route that cannot be sent changes nothing. -/
theorem route_unsent (h : ¬ (skipGateway = true ∨ calls.sendRoute = true)) :
    host.route info skipGateway calls = (.noGateway, host) := by
  obtain ⟨hskip, hsend⟩ := not_or.mp h
  rw [route, if_neg hskip, setDefaultGateway, if_neg hsend]

theorem configure_configured_iff : (host.configure info skipGateway calls).1 = .configured ↔
    host.Completes skipGateway calls := by
  by_cases hup : host.BringsUp calls
  · rw [configure_of_bringsUp hup, setAddress, Completes]
    cases calls.newAddress with
    | done => simp [hup, route_configured_iff]
    | refused => simp
    | lost applied => cases applied <;> simp
  · rw [configure_of_not_bringsUp hup]
    exact iff_of_false Exit.noConfusion fun hcompletes => hup hcompletes.1

theorem inPlace_iff : host.InPlace info calls ↔ host.linked info calls = host ∧
    (calls.newAddress = .done ∨ calls.newAddress = .lost true →
      host.withAddress info.offeredAddress info.subnetMask = host) := by
  rw [linked_eq_iff]
  constructor
  · exact fun h => ⟨⟨h.up, h.mtu, h.gw, h.dns⟩, h.address⟩
  · rintro ⟨⟨hup, hmtu, hgw, hdns⟩, haddress⟩
    exact ⟨hup, hmtu, hgw, hdns, haddress⟩

/-- Where `configure` fails, the host is as before just if the interface stayed down
or all that was carried out had been in place. -/
theorem configure_unchanged_iff (hfails : ¬ host.Completes skipGateway calls) :
    (host.configure info skipGateway calls).2 = host ↔
      (host.BringsUp calls → host.InPlace info calls) := by
  by_cases hup : host.BringsUp calls
  · rw [imp_iff_right hup, inPlace_iff, configure_of_bringsUp hup, setAddress]
    cases haddress : calls.newAddress with
    | done =>
        have hunsent : ¬ (skipGateway = true ∨ calls.sendRoute = true) :=
          fun hroute => hfails ⟨hup, haddress, hroute⟩
        simp only [route_unsent hunsent, linked_withAddress_eq_iff]
        simp
    | refused => simp
    | lost applied =>
        cases applied with
        | false => simp
        | true =>
            simp only [linked_withAddress_eq_iff]
            simp
  · rw [configure_of_not_bringsUp hup]
    exact iff_of_true rfl fun h => absurd h hup

end Host

namespace Client

/-- The timers and the host are as before. -/
def Undisturbed (c c' : Client) : Prop :=
  c'.mT1 = c.mT1 ∧ c'.mT2 = c.mT2 ∧ c'.host = c.host

/-- The ACK is rejected for its options or its lease time, all fatal calls succeed,
or the timers and what is changed before the failure have these values already. -/
def FailsHarmlessly (c : Client) (msg : Message) (a : Answers) : Prop :=
  ∀ info, msg.readOptions c.mDhcpInfo = (true, some info) → info.leaseTime ≠ 0 →
    ¬ c.host.Completes (c.mOptions &&& noGateway ≠ 0) a.calls →
      c.mT1 = Timer.expireSeconds a.nowT1 (t1Seconds info).toNat ∧
      c.mT2 = Timer.expireSeconds a.nowT2 (t2Seconds info).toNat ∧
      (c.host.BringsUp a.calls → c.host.InPlace info a.calls)

/-- A failed `configureDhcp` leaves timers and host alone exactly where it fails
harmlessly. -/
theorem configureDhcp_undisturbed_iff (c : Client) (msg : Message) (a : Answers) :
    ((c.configureDhcp msg a).1 = false → c.Undisturbed (c.configureDhcp msg a).2) ↔
      c.FailsHarmlessly msg a := by
  have hconfigures := configureDhcp_configures c msg a
  generalize c.configureDhcp msg a = result at hconfigures
  cases hconfigures with
  | @rejected info hread =>
      refine iff_of_true (fun _ => ⟨rfl, rfl, rfl⟩) fun info' hread' => ?_
      exact absurd (congrArg Prod.fst (hread.symm.trans hread')) Bool.false_ne_true
  | @noLease info hread hlease =>
      refine iff_of_true (fun _ => ⟨rfl, rfl, rfl⟩) fun info' hread' hlease' => ?_
      obtain ⟨-, rfl⟩ := Message.readOptions_unique hread hread'
      exact absurd hlease hlease'
  | @stopped info exit host hread hlease hhost hexit =>
      have hfails := Host.configure_configured_iff.not.mp (by rw [hhost]; exact hexit)
      have hunchanged : host = c.host ↔
          (c.host.BringsUp a.calls → c.host.InPlace info a.calls) := by
        rw [← Host.configure_unchanged_iff hfails, hhost]
      constructor
      · intro h info' hread' hlease' hfails'
        obtain ⟨-, rfl⟩ := Message.readOptions_unique hread hread'
        obtain ⟨ht1, ht2, hsame⟩ := h rfl
        exact ⟨ht1.symm, ht2.symm, hunchanged.mp hsame⟩
      · intro h _
        obtain ⟨ht1, ht2, hplace⟩ := h info hread hlease hfails
        exact ⟨ht1.symm, ht2.symm, hunchanged.mpr hplace⟩
  | @configured info host hread hlease hhost =>
      refine iff_of_true (fun h => absurd h.symm Bool.false_ne_true)
        fun info' hread' hlease' hfails => ?_
      obtain ⟨-, rfl⟩ := Message.readOptions_unique hread hread'
      exact absurd (Host.configure_configured_iff.mp (by rw [hhost])) hfails

/-- In `Renewing` the ACK of the server arrives and its address cannot be set: T2 is put
off all the same. -/
theorem failure_postpones_t2 : ¬ ∀ (c : Client) (msg : Message) (a : Answers),
    (c.configureDhcp msg a).1 = false → c.Undisturbed (c.configureDhcp msg a).2 := by
  intro h
  have hsame := h (after 0 deviceMac bareHost (silentServerRun.take 9))
    (leaseReply dhcpAck (Message.request deviceMac deviceAddress routerAddress 3) routerAddress
      deviceAddress 10 5 8)
    { Answers.quiet 6000 with calls := { allCallsWork with newAddress := .refused } }
    (by decide +kernel)
  have hlater := congrArg Timer.mExpires hsame.2.1
  exact absurd hlater (by decide +kernel)

end Client

end AndroidX86Tv.Dhcp
