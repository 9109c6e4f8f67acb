import AndroidX86Tv.Dhcp.Exchange
import AndroidX86Tv.Dhcp.Reply

/-!
# The exchange that binds a client (client/dhcpclient.cpp, common/message.cpp)

An OFFER and then an ACK to the client's own messages bind it and configure the host,
whatever else is read while there is time left. No reachable client is beyond that: from
each of them and from any time on some answers lead to `Bound`, with a clock that does
not go back.
-/

namespace AndroidX86Tv.Dhcp

open EventHistory

/-- All the system calls of a step succeed. -/
structure SystemCalls.Work (calls : SystemCalls) : Prop where
  interface : calls.InterfaceWorks
  setGw : calls.setGw = true
  setDns : ∀ k, calls.setDns k = true
  sendRoute : calls.sendRoute = true
  takeRoute : calls.takeRoute = true

theorem allCallsWork_work : allCallsWork.Work := ⟨⟨rfl, rfl, rfl, rfl⟩, rfl, fun _ => rfl, rfl, rfl⟩

/-- The host is configured with the information. -/
structure Host.Configured (host : Host) (info : DhcpInfo) : Prop where
  up : host.up = true
  mtu : info.mtu ≠ 0 → host.mtu = info.mtu
  address : host.kernel.Documented → info.offeredAddress ≠ 0 → ∃ got ∈ host.addresses,
    got.address = info.offeredAddress ∧ got.prefixLength = popcount info.subnetMask
  gw : host.properties.gw = some info.gateway
  dns : ∀ k, host.properties.dns k = if info.dns k ≠ 0 then some (info.dns k) else none

namespace Host

/-- What a configuration that is carried out makes of a host. -/
def configured (host : Host) (info : DhcpInfo) (skipGateway : Bool) : Host where
  kernel := host.kernel
  up := true
  mtu := if info.mtu ≠ 0 then info.mtu else host.mtu
  addresses := host.kernel.newAddress host.addresses (asked info.offeredAddress info.subnetMask)
  defaultRoutes :=
    if skipGateway = false ∧ info.gateway ∉ host.defaultRoutes then
      host.defaultRoutes ++ [info.gateway]
    else host.defaultRoutes
  properties :=
    { gw := some info.gateway
      dns := fun k => if info.dns k ≠ 0 then some (info.dns k) else none }

variable {calls : SystemCalls}

theorem setLink_all (h : calls.Work) (host : Host) (info : DhcpInfo) :
    host.setLink info calls =
      { host with
        mtu := if info.mtu ≠ 0 then info.mtu else host.mtu
        properties :=
          { gw := some info.gateway
            dns := fun k => if info.dns k ≠ 0 then some (info.dns k) else none } } := by
  have hmtu : host.setMtu info.mtu calls = { host with mtu := info.mtu } :=
    if_pos h.interface.setMtu
  have hdns : ∀ k, calls.setDns k = true := h.setDns
  rw [setLink, hmtu]
  simp only [setProperties, h.setGw, hdns, if_true]
  by_cases hgiven : info.mtu ≠ 0
  · simp only [if_pos hgiven]
  · simp only [if_neg hgiven]

theorem route_all (h : calls.Work) (host : Host) (info : DhcpInfo) (skipGateway : Bool) :
    host.route info skipGateway calls =
      (.configured,
        { host with
          defaultRoutes :=
            if skipGateway = false ∧ info.gateway ∉ host.defaultRoutes then
              host.defaultRoutes ++ [info.gateway]
            else host.defaultRoutes }) := by
  rw [route, setDefaultGateway, if_pos h.sendRoute]
  cases skipGateway with
  | true => rfl
  | false =>
      by_cases hmem : info.gateway ∈ host.defaultRoutes
      · simp [hmem]
      · simp [hmem, h.takeRoute]

/-- Where every call succeeds the whole configuration does. -/
theorem configure_eq (h : calls.Work) (host : Host) (info : DhcpInfo) (skipGateway : Bool) :
    host.configure info skipGateway calls = (.configured, host.configured info skipGateway) := by
  simp only [configure, bringUp_works h.interface, setLink_all h,
    setAddress_works h.interface, route_all h]
  rfl

theorem configured_configured (host : Host) (info : DhcpInfo) (skipGateway : Bool) :
    (host.configured info skipGateway).Configured info :=
  ⟨rfl, fun hmtu => if_pos hmtu, fun hkernel hne => hkernel.adds _ _ hne, rfl, fun _ => rfl⟩

theorem gateway_mem_configured (host : Host) (info : DhcpInfo) {skipGateway : Bool}
    (h : skipGateway = false) :
    info.gateway ∈ (host.configured info skipGateway).defaultRoutes := by
  rw [h, configured]
  by_cases hmem : info.gateway ∈ host.defaultRoutes
  · simp [hmem]
  · simp [hmem]

end Host

namespace Answers

/-- The readings of the clock in a step, in the order in which it takes them, do not go
back behind each other or behind the time. -/
structure NotBefore (a : Answers) (time : Nat) : Prop where
  now : time ≤ a.now
  nowRemaining : a.now ≤ a.nowRemaining
  startedAt : time ≤ a.startedAt
  nowT1 : a.startedAt ≤ a.nowT1
  nowT2 : a.nowT1 ≤ a.nowT2
  currentTime : a.nowT2 ≤ a.currentTime

/-- The last reading of a step. -/
def latest (a : Answers) : Nat := max a.nowRemaining a.currentTime

/-- The clock does not go back along the answers. -/
def Forward : Nat → List Answers → Prop
  | _, [] => True
  | time, a :: answers => a.NotBefore time ∧ Forward a.latest answers

variable {time later : Nat}

theorem quiet_notBefore (h : time ≤ later) : (quiet later).NotBefore time :=
  ⟨h, Nat.le_refl _, h, Nat.le_refl _, Nat.le_refl _, Nat.le_refl _⟩

theorem receives_notBefore (h : time ≤ later) (message : Message) :
    (receives later message).NotBefore time :=
  ⟨h, Nat.le_refl _, h, Nat.le_refl _, Nat.le_refl _, Nat.le_refl _⟩

@[simp] theorem quiet_latest (time : Nat) : (quiet time).latest = time := Nat.max_self time

@[simp] theorem receives_latest (time : Nat) (message : Message) :
    (receives time message).latest = time := Nat.max_self time

end Answers

namespace Client

variable {c : Client} {a : Answers} {timeout : Nat}

section Noise

/-- Nothing that the client awaits is read, and there is time left to wait. -/
def Noise (c : Client) (a : Answers) : Prop :=
  ∃ timeout, c.place = .poll timeout ∧
    (a.poll = .error ∨ ∃ packet, a.poll = .readable packet ∧
      ∀ msg, c.receiveDhcpMessage packet = some msg → ¬ c.Awaits msg) ∧
    a.currentTime < (a.startedAt + timeout) % 2 ^ 64

/-- The client still waits, and has only recorded what it read. -/
def StillWaits (c c' : Client) : Prop :=
  ∃ timeout history, c' = { c with place := .poll timeout, history := history }

theorem pollAgain_waits (h : a.currentTime < (a.startedAt + timeout) % 2 ^ 64) (c : Client) :
    ∃ remaining, c.pollAgain timeout a = { c with place := .poll remaining } := by
  refine ⟨((a.startedAt + timeout) % 2 ^ 64 - a.currentTime) % 2 ^ 32, ?_⟩
  simp only [pollAgain, ge_iff_le, Nat.not_le.mpr h, if_false]

theorem step_noise (h : Noise c a) : StillWaits c (c.step a) := by
  obtain ⟨timeout, hplace, hpoll, htime⟩ := h
  cases hpoll with
  | inl herror =>
      obtain ⟨remaining, hagain⟩ := pollAgain_waits htime c
      rw [step_poll hplace, pass, herror]
      exact ⟨remaining, c.history, hagain⟩
  | inr hpacket =>
      obtain ⟨packet, hreadable, hforeign⟩ := hpacket
      obtain ⟨remaining, hagain⟩ := pollAgain_waits htime (c.reads packet)
      rw [(step_moves c a).ignored hplace hreadable hforeign, hagain]
      exact ⟨remaining, _, rfl⟩

/-- So it does after any amount of noise. -/
theorem run_noise {noise : List Answers} (hplace : c.place = .poll timeout)
    (h : AllSteps step Noise c noise) : StillWaits c (run step c noise) := by
  induction noise generalizing c timeout with
  | nil => exact ⟨timeout, c.history, by rw [← hplace]; rfl⟩
  | cons a noise ih =>
      obtain ⟨remaining, history, hstep⟩ := step_noise h.1
      obtain ⟨later, history', hrun⟩ := ih (c := c.step a) (by rw [hstep]) h.2
      refine ⟨later, history', ?_⟩
      rw [run_cons, hrun, hstep]

end Noise

section Replies

variable {server address mask gateway : InAddr} {dns : List InAddr} {transactionId : UInt32}

/-- A reply to the last message passes the check of `receiveDhcpMessage`. -/
theorem receive_grant (type : UInt8) (c : Client) :
    c.receiveDhcpMessage (some (Message.grant type c.mLastMsg server address mask gateway dns
        transactionId)) =
      some (Message.grant type c.mLastMsg server address mask gateway dns transactionId) := by
  rw [receiveDhcpMessage, Option.filter_some, if_pos]
  apply Message.grant_valid

/-- An OFFER is taken. -/
theorem step_offer (hplace : c.place = .poll timeout) (hstate : c.mState = .selecting)
    (hpoll : a.poll = .readable (some (Message.offer c.mLastMsg server address mask gateway dns
      transactionId))) (hdns : dns.length ≤ 63) :
    ∃ history, c.step a =
      { c with
        mServerAddress := some server
        mRequestAddress := some address
        mState := .requesting
        mNextTimeout := kNoTimeout
        mFuzzNextTimeout := true
        place := .evaluate
        history := history } := by
  have hreads : ReadsBack (Message.offer c.mLastMsg server address mask gateway dns
      transactionId) c.mLastMsg dhcpOffer
      (DhcpInfo.granted server address mask gateway dns).misread :=
    (grant_losesLeaseTime dhcpOffer c.mLastMsg server address mask gateway transactionId
      hdns).readsBack
  have hreceived : c.receiveDhcpMessage (some (Message.offer c.mLastMsg server address mask gateway
      dns transactionId)) =
        some (Message.offer c.mLastMsg server address mask gateway dns transactionId) :=
    receive_grant dhcpOffer c
  have hyiaddr : (Message.offer c.mLastMsg server address mask gateway dns transactionId).yiaddr =
      address := by
    apply Message.grant_yiaddr
  have hselecting : (c.reads (some (Message.offer c.mLastMsg server address mask gateway dns
      transactionId))).mState = .selecting := hstate
  have hserver := hreads.serverId
  generalize Message.offer c.mLastMsg server address mask gateway dns transactionId = offer at *
  rw [step_poll hplace, pass_received hpoll hreceived, handle, hselecting]
  simp only [if_pos hreads.type, conclude]
  rw [takeOffer, hserver, hyiaddr]
  exact ⟨_, rfl⟩

/-- The client is bound, and the host configured, as the information says, with the
timers armed at these times. -/
structure BoundTo (c : Client) (info : DhcpInfo) (nowT1 nowT2 : Nat) : Prop where
  state : c.mState = .bound
  lease : c.mDhcpInfo = some info
  t1 : c.mT1 = Timer.expireSeconds nowT1 (t1Seconds info).toNat
  t2 : c.mT2 = Timer.expireSeconds nowT2 (t2Seconds info).toNat
  host : c.host.Configured info
  gateway : c.mOptions &&& noGateway = 0 → info.gateway ∈ c.host.defaultRoutes

/-- An ACK to the REQUEST that was sent last binds the client, in any state that waits
for one. -/
theorem step_ack (hplace : c.place = .poll timeout) (hstate : State.Requests c.mState)
    (hpoll : a.poll = .readable (some (Message.ack c.mLastMsg server address mask gateway dns
      transactionId))) (hcalls : a.calls.Work) (hdns : dns.length ≤ 63) :
    BoundTo (c.step a) (DhcpInfo.granted server address mask gateway dns).misread
      a.nowT1 a.nowT2 := by
  have hreads : ReadsBack (Message.ack c.mLastMsg server address mask gateway dns
      transactionId) c.mLastMsg dhcpAck
      (DhcpInfo.granted server address mask gateway dns).misread :=
    (grant_losesLeaseTime dhcpAck c.mLastMsg server address mask gateway transactionId
      hdns).readsBack
  have hreceived : c.receiveDhcpMessage (some (Message.ack c.mLastMsg server address mask gateway
      dns transactionId)) =
        some (Message.ack c.mLastMsg server address mask gateway dns transactionId) :=
    receive_grant dhcpAck c
  generalize Message.ack c.mLastMsg server address mask gateway dns transactionId = ack at *
  have hrequests : State.Requests (c.reads (some ack)).mState := hstate
  rw [step_poll hplace, pass_received hpoll hreceived, handle_requests hrequests, handleAnswer,
    if_pos hreads.type, configureDhcp, hreads.options]
  have hlease : (DhcpInfo.granted server address mask gateway dns).misread.leaseTime ≠ 0 := by
    have hvalue : (0x58020000 : UInt32) ≠ 0 := by decide
    exact hvalue
  generalize (DhcpInfo.granted server address mask gateway dns).misread = info at hlease ⊢
  simp only [if_neg hlease]
  rw [Host.configure_eq hcalls]
  refine ⟨rfl, rfl, rfl, rfl, Host.configured_configured _ _ _, fun hoption => ?_⟩
  exact Host.gateway_mem_configured _ _ (decide_eq_false (not_not_intro hoption))

/-- An evaluation sends the REQUEST for what was offered, and the wait for the answer
begins. -/
theorem step_request (hplace : c.place = .evaluate) (hstate : c.mState = .requesting)
    (htimeout : c.mNextTimeout = kNoTimeout) (haddress : c.mRequestAddress = some address)
    (hserver : c.mServerAddress = some server) (a : Answers) :
    ∃ timeout, (c.step a).place = .poll timeout ∧ (c.step a).mState = .requesting ∧
      (c.step a).mOptions = c.mOptions ∧
      (c.step a).mLastMsg =
        Message.request c.macAddress address server c.sNextTransactionId := by
  rw [step_evaluate hplace, evaluate, hstate]
  simp only [htimeout]
  rw [if_neg (by decide), hserver, sendDhcpRequest_some haddress]
  have hnext : ((c.sendMessage (Message.request c.macAddress address server
      c.sNextTransactionId)).increaseTimeout).mNextTimeout = kInitialTimeout := if_pos htimeout
  refine ⟨((c.sendMessage (Message.request c.macAddress address server
    c.sNextTransactionId)).increaseTimeout).calculateTimeoutMillis a.adjustment, ?_, hstate, rfl,
    rfl⟩
  rw [beginWait, hnext, if_neg (by decide)]

end Replies

section Handshake

variable {server address mask gateway : InAddr} {dns : List InAddr}

/-- A client that waits for an OFFER is bound by an OFFER and then an ACK to the REQUEST
that it sends for it, with any noise before either of them. -/
theorem handshake_binds (hplace : c.place = .poll timeout) (hstate : c.mState = .selecting)
    (hdns : dns.length ≤ 63) (noise : List Answers) (hnoise : AllSteps step Noise c noise)
    (offering : Answers) {transactionId : UInt32}
    (hoffer : offering.poll = .readable (some (Message.offer c.mLastMsg server address mask
      gateway dns transactionId))) (asking : Answers) (noise' : List Answers)
    (hnoise' : AllSteps step Noise (run step c (noise ++ [offering, asking])) noise')
    (acknowledging : Answers) {transactionId' : UInt32}
    (hack : acknowledging.poll = .readable (some (Message.ack
      (Message.request c.macAddress address server c.sNextTransactionId) server address mask
      gateway dns transactionId'))) (hcalls : acknowledging.calls.Work) :
    BoundTo (run step c (noise ++ [offering, asking] ++ noise' ++ [acknowledging]))
      (DhcpInfo.granted server address mask gateway dns).misread acknowledging.nowT1
      acknowledging.nowT2 := by
  obtain ⟨remaining, history, hwaits⟩ := run_noise hplace hnoise
  have hoffered : ∃ history', (run step c noise).step offering =
      { run step c noise with
        mServerAddress := some server
        mRequestAddress := some address
        mState := .requesting
        mNextTimeout := kNoTimeout
        mFuzzNextTimeout := true
        place := .evaluate
        history := history' } := by
    rw [hwaits]
    exact step_offer rfl hstate hoffer hdns
  obtain ⟨history', hoffered⟩ := hoffered
  obtain ⟨timeout', hplace', hrequesting, -, hrequest⟩ := step_request
    (c := (run step c noise).step offering) (by rw [hoffered]) (by rw [hoffered])
    (by rw [hoffered]) (by rw [hoffered]) (by rw [hoffered]) asking
  have hsent : run step c (noise ++ [offering, asking]) =
      ((run step c noise).step offering).step asking :=
    run_append step c noise [offering, asking]
  rw [← hsent] at hplace' hrequesting hrequest
  obtain ⟨remaining', history'', hwaits'⟩ := run_noise hplace' hnoise'
  have hmessage : (run step c (noise ++ [offering, asking] ++ noise')).mLastMsg =
      Message.request c.macAddress address server c.sNextTransactionId := by
    rw [run_append, hwaits', hrequest, hoffered, hwaits]
  have hready : (run step c (noise ++ [offering, asking] ++ noise')).place = .poll remaining' ∧
      (run step c (noise ++ [offering, asking] ++ noise')).mState = .requesting := by
    rw [run_append, hwaits']
    exact ⟨rfl, hrequesting⟩
  rw [run_append step c (noise ++ [offering, asking] ++ noise') [acknowledging]]
  rw [← hmessage] at hack
  exact step_ack hready.1 (Or.inl hready.2) hack hcalls hdns

/-- The emulated device while it waits for an OFFER. -/
def waitingDevice : Client := after 0 deviceMac bareHost [Answers.quiet 0, Answers.quiet 0]

/-- A `poll` that fails after one second. -/
def failedPoll : Answers := { Answers.quiet 0 with poll := .error, currentTime := 1000 }

def offeringRouter : Answers :=
  Answers.receives 1000 (Message.offer waitingDevice.mLastMsg routerAddress deviceAddress
    networkMask routerAddress [0x0302000a] 1)

def acknowledgingRouter : Answers :=
  Answers.receives 2000 (Message.ack (Message.request waitingDevice.macAddress deviceAddress
    routerAddress waitingDevice.sNextTransactionId) routerAddress deviceAddress networkMask
    routerAddress [0x0302000a] 2)

theorem handshake_binds_device :
    BoundTo (run step waitingDevice
        ([failedPoll] ++ [offeringRouter, Answers.quiet 1000] ++ [] ++ [acknowledgingRouter]))
      (DhcpInfo.granted routerAddress deviceAddress networkMask routerAddress
        [0x0302000a]).misread acknowledgingRouter.nowT1 acknowledgingRouter.nowT2 :=
  handshake_binds rfl rfl (by decide) [failedPoll]
    ⟨⟨4000, rfl, Or.inl rfl, by decide⟩, trivial⟩ offeringRouter rfl (Answers.quiet 1000) [] trivial
    acknowledgingRouter rfl allCallsWork_work

end Handshake

section Recovery

variable {server address mask gateway : InAddr} {dns : List InAddr} {info : DhcpInfo} {time : Nat}

/-- Some answers from this time on lead to a client that is bound to the information. -/
def CanBind (c : Client) (info : DhcpInfo) (time : Nat) : Prop :=
  ∃ answers last, Answers.Forward time (answers ++ [last]) ∧
    BoundTo (run step c (answers ++ [last])) info last.nowT1 last.nowT2

theorem CanBind.of_step (ha : a.NotBefore time) (h : CanBind (c.step a) info a.latest) :
    CanBind c info time := by
  obtain ⟨answers, last, hforward, hbound⟩ := h
  exact ⟨a :: answers, last, ⟨ha, hforward⟩, hbound⟩

theorem CanBind.of_quiet {later : Nat} (hlater : time ≤ later)
    (h : CanBind (c.step (Answers.quiet later)) info later) : CanBind c info time := by
  apply CanBind.of_step (Answers.quiet_notBefore hlater)
  rw [Answers.quiet_latest]
  exact h

theorem canBind_polls (hplace : c.place = .poll timeout) (hstate : State.Requests c.mState)
    (hdns : dns.length ≤ 63) :
    CanBind c (DhcpInfo.granted server address mask gateway dns).misread time := by
  refine ⟨[], Answers.receives time (Message.ack c.mLastMsg server address mask gateway dns 0),
    ⟨Answers.receives_notBefore (Nat.le_refl time) _, trivial⟩, ?_⟩
  exact step_ack (a := Answers.receives time (Message.ack c.mLastMsg server address mask gateway
    dns 0)) hplace hstate rfl allCallsWork_work hdns

/-- A REQUEST that is due is sent, and can be acknowledged. -/
theorem canBind_asks (h : Exchanges c) (hplace : c.place = .evaluate)
    {destination : Option InAddr} (hasks : Asks c (Answers.quiet time) destination)
    (hdns : dns.length ≤ 63) :
    CanBind c (DhcpInfo.granted server address mask gateway dns).misread time := by
  obtain ⟨offer, asked, -, -, -, -, -, hsend⟩ := h.sends_request hasks
  have hstep : c.step (Answers.quiet time) =
      (c.sendDhcpRequest destination).increaseTimeout.beginWait (Answers.quiet time) := by
    rw [step_evaluate hplace]
    cases hasks with
    | requesting hstate hlimit =>
        rw [evaluate, hstate]
        simp only [if_neg (Nat.not_le.mpr hlimit)]
    | renewing hstate hearly =>
        rw [evaluate, hstate]
        simp only [hearly, Bool.false_eq_true, if_false]
    | rebinding hstate hlimit =>
        rw [evaluate, hstate]
        simp only [if_neg (Nat.not_le.mpr hlimit)]
  obtain ⟨timeout, hpolls⟩ := (c.sendDhcpRequest destination).beginWait_polls (Answers.quiet time)
  apply CanBind.of_quiet (Nat.le_refl time)
  rw [← hstep] at hpolls
  apply canBind_polls hpolls _ hdns
  rw [hstep, hsend]
  exact hasks.state

theorem canBind_selecting (hplace : c.place = .evaluate) (hstate : c.mState = .selecting)
    (hdns : dns.length ≤ 63) :
    CanBind c (DhcpInfo.granted server address mask gateway dns).misread time := by
  have hstep : c.step (Answers.quiet time) =
      c.sendDhcpDiscover.increaseTimeout.beginWait (Answers.quiet time) := by
    rw [step_evaluate hplace, evaluate, hstate]
  obtain ⟨timeout, hpolls⟩ := c.sendDhcpDiscover.beginWait_polls (Answers.quiet time)
  have hselecting : (c.step (Answers.quiet time)).mState = .selecting := by
    rw [hstep]
    exact hstate
  apply CanBind.of_quiet (Nat.le_refl time)
  rw [← hstep] at hpolls
  obtain ⟨history, hoffered⟩ := step_offer
    (a := Answers.receives time (Message.offer (c.step (Answers.quiet time)).mLastMsg server address
      mask gateway dns 0)) hpolls hselecting rfl hdns
  obtain ⟨timeout', hplace', hrequesting, -, -⟩ := step_request
    (c := (c.step (Answers.quiet time)).step (Answers.receives time (Message.offer
      (c.step (Answers.quiet time)).mLastMsg server address mask gateway dns 0)))
    (by rw [hoffered]) (by rw [hoffered]) (by rw [hoffered]) (by rw [hoffered]) (by rw [hoffered])
    (Answers.quiet time)
  apply CanBind.of_step (Answers.receives_notBefore (Nat.le_refl time) _)
  rw [Answers.receives_latest]
  apply CanBind.of_quiet (Nat.le_refl time)
  exact canBind_polls hplace' (Or.inl hrequesting) hdns

theorem canBind_init (hplace : c.place = .evaluate) (hstate : c.mState = .init)
    (hdns : dns.length ≤ 63) :
    CanBind c (DhcpInfo.granted server address mask gateway dns).misread time := by
  have hstep : c.step (Answers.quiet time) =
      (c.setNextState .selecting).beginWait (Answers.quiet time) := by
    rw [step_evaluate hplace, evaluate, hstate]
  apply CanBind.of_quiet (Nat.le_refl time)
  rw [hstep]
  exact canBind_selecting rfl rfl hdns

/-- Another state is entered. -/
theorem step_leaves (hplace : c.place = .evaluate) {new : State} (hleaves : Leaves c a new) :
    c.step a = { c.setNextState new with place := .evaluate } := by
  rw [step_evaluate hplace, evaluate]
  cases hleaves with
  | start hstate =>
      rw [hstate]
      rfl
  | requestingEnds hstate hlimit =>
      rw [hstate]
      simp only [if_pos hlimit]
      rfl
  | renews hstate hexpired =>
      rw [hstate]
      simp only [hexpired, if_true]
      rfl
  | rebinds hstate hexpired =>
      rw [hstate]
      simp only [hexpired, if_true]
      rfl
  | rebindingEnds hstate hlimit =>
      rw [hstate]
      simp only [if_pos hlimit]
      rfl

theorem canBind_rebinding (h : Exchanges c) (hplace : c.place = .evaluate)
    (hstate : c.mState = .rebinding) (hdns : dns.length ≤ 63) :
    CanBind c (DhcpInfo.granted server address mask gateway dns).misread time := by
  cases Nat.lt_or_ge c.mNextTimeout kMaxTimeout with
  | inl hlt => exact canBind_asks h hplace (.rebinding hstate hlt) hdns
  | inr hge =>
      apply CanBind.of_quiet (Nat.le_refl time)
      rw [step_leaves hplace (.rebindingEnds hstate hge)]
      exact canBind_init rfl rfl hdns

theorem canBind_renewing (h : Exchanges c) (hplace : c.place = .evaluate)
    (hstate : c.mState = .renewing) (hdns : dns.length ≤ 63) :
    CanBind c (DhcpInfo.granted server address mask gateway dns).misread time := by
  cases hexpired : c.mT2.expired (Answers.quiet time).now with
  | false => exact canBind_asks h hplace (.renewing hstate hexpired) hdns
  | true =>
      apply CanBind.of_quiet (Nat.le_refl time)
      rw [step_leaves hplace (.rebinds hstate hexpired)]
      exact canBind_rebinding (h.leave (.rebinds hstate hexpired)) rfl rfl hdns

/-- From every state that evaluates; in `Bound` the clock first has to come to T1. -/
theorem canBind_evaluates (h : Exchanges c) (hplace : c.place = .evaluate)
    (hdns : dns.length ≤ 63) :
    CanBind c (DhcpInfo.granted server address mask gateway dns).misread time := by
  cases hstate : c.mState with
  | init => exact canBind_init hplace hstate hdns
  | selecting => exact canBind_selecting hplace hstate hdns
  | requesting =>
      cases Nat.lt_or_ge c.mNextTimeout kMaxTimeout with
      | inl hlt => exact canBind_asks h hplace (.requesting hstate hlt) hdns
      | inr hge =>
          apply CanBind.of_quiet (Nat.le_refl time)
          rw [step_leaves hplace (.requestingEnds hstate hge)]
          exact canBind_init rfl rfl hdns
  | bound =>
      have hexpired : c.mT1.expired (Answers.quiet (max time c.mT1.mExpires)).now = true :=
        decide_eq_true (Nat.le_max_right _ _)
      apply CanBind.of_quiet (Nat.le_max_left time c.mT1.mExpires)
      rw [step_leaves hplace (.renews hstate hexpired)]
      exact canBind_renewing (h.leave (.renews hstate hexpired)) rfl rfl hdns
  | renewing => exact canBind_renewing h hplace hstate hdns
  | rebinding => exact canBind_rebinding h hplace hstate hdns

/-- From every client that can be reached, whatever was received and however the system
calls ended, and from any time on, some answers lead to a client that is bound to a given
lease. -/
theorem after_canBind (options : UInt32) (macAddress : Mac) (host : Host)
    (answers : List Answers) (time : Nat) (hdns : dns.length ≤ 63) :
    CanBind (after options macAddress host answers)
      (DhcpInfo.granted server address mask gateway dns).misread time := by
  have hreached := after_exchanges options macAddress host answers
  cases hplace : (after options macAddress host answers).place with
  | evaluate => exact canBind_evaluates hreached hplace hdns
  | poll timeout =>
      have hstep : (after options macAddress host answers).step (Answers.quiet time) =
          { after options macAddress host answers with place := .evaluate } := by
        rw [step_poll hplace]
        rfl
      have hmoved := hreached.move (step_moves _ (Answers.quiet time))
      apply CanBind.of_quiet (Nat.le_refl time)
      exact canBind_evaluates hmoved (by rw [hstep]) hdns

theorem canBind_device :
    CanBind (after 0 deviceMac bareHost [Answers.quiet 0])
      (DhcpInfo.granted routerAddress deviceAddress networkMask routerAddress
        [0x0302000a]).misread 5000 :=
  after_canBind 0 deviceMac bareHost [Answers.quiet 0] 5000 (by decide)

end Recovery

end Client

end AndroidX86Tv.Dhcp
