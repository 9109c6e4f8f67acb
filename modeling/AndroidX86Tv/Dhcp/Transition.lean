import AndroidX86Tv.Dhcp.Client

/-!
# What one step of the client can do

`Moves` lists the ways a step can go, with the guard of each and the client
that it leaves. Invariants are proved by cases on it, without the code.
-/

namespace AndroidX86Tv.Dhcp

open EventHistory

/-- The states in which a REQUEST has been sent and an answer is awaited. -/
def State.Requests (state : State) : Prop :=
  state = .requesting ∨ state = .renewing ∨ state = .rebinding

instance (state : State) : Decidable state.Requests :=
  inferInstanceAs (Decidable (_ ∨ _ ∨ _))

/-- The type of message sent in a state. -/
def State.sends : State → Option UInt8
  | .selecting => some dhcpDiscover
  | .requesting | .renewing | .rebinding => some dhcpRequest
  | .init | .bound => none

theorem State.Requests.sends {state : State} (h : State.Requests state) :
    state.sends = some dhcpRequest := by
  rcases h with rfl | rfl | rfl
  · rfl
  · rfl
  · rfl

theorem State.Requests.ne {state other : State} (h : State.Requests state)
    (hother : other.sends ≠ some dhcpRequest) : state ≠ other :=
  fun heq => hother (heq ▸ h.sends)

theorem State.Requests.ne_init {state : State} (h : State.Requests state) : state ≠ .init :=
  h.ne (by decide)

theorem State.Requests.ne_selecting {state : State} (h : State.Requests state) :
    state ≠ .selecting :=
  h.ne (by decide)

theorem State.Requests.ne_bound {state : State} (h : State.Requests state) : state ≠ .bound :=
  h.ne (by decide)

/-- The states in which the client uses a lease. -/
def State.online : State → Bool
  | .bound | .renewing | .rebinding => true
  | .init | .selecting | .requesting => false

namespace Client

/-- The client once a packet has been read. -/
def reads (c : Client) (packet : Option Message) : Client :=
  c.note (.read c.mState c.mLastMsg (c.receiveDhcpMessage packet))

/-- The transitions of `run()` without a message. -/
inductive Leaves (c : Client) (a : Answers) : State → Prop where
  | start (hstate : c.mState = .init) : Leaves c a .selecting
  | requestingEnds (hstate : c.mState = .requesting) (hlimit : c.mNextTimeout ≥ kMaxTimeout) :
      Leaves c a .init
  | renews (hstate : c.mState = .bound) (hexpired : c.mT1.expired a.now = true) :
      Leaves c a .renewing
  | rebinds (hstate : c.mState = .renewing) (hexpired : c.mT2.expired a.now = true) :
      Leaves c a .rebinding
  | rebindingEnds (hstate : c.mState = .rebinding) (hlimit : c.mNextTimeout ≥ kMaxTimeout) :
      Leaves c a .init

theorem Leaves.online {c : Client} {a : Answers} {new : State} (h : Leaves c a new)
    (hnew : new.online = true) :
    c.mState.online = true := by
  cases h with
  | start => exact absurd hnew nofun
  | requestingEnds => exact absurd hnew nofun
  | renews hstate =>
      rw [hstate]
      rfl
  | rebinds hstate =>
      rw [hstate]
      rfl
  | rebindingEnds => exact absurd hnew nofun

/-- A REQUEST is due, with this server identifier. -/
inductive Asks (c : Client) (a : Answers) : Option InAddr → Prop where
  | requesting (hstate : c.mState = .requesting) (hlimit : c.mNextTimeout < kMaxTimeout) :
      Asks c a c.mServerAddress
  | renewing (hstate : c.mState = .renewing) (hearly : c.mT2.expired a.now = false) :
      Asks c a c.mServerAddress
  | rebinding (hstate : c.mState = .rebinding) (hlimit : c.mNextTimeout < kMaxTimeout) :
      Asks c a (some inaddrBroadcast)

theorem Asks.state {c : Client} {a : Answers} {destination : Option InAddr}
    (hasks : Asks c a destination) : State.Requests c.mState := by
  cases hasks with
  | requesting hstate => exact Or.inl hstate
  | renewing hstate => exact Or.inr (Or.inl hstate)
  | rebinding hstate => exact Or.inr (Or.inr hstate)

/-- The message is of a type that the state of the client reacts to. -/
def Awaits (c : Client) (msg : Message) : Prop :=
  (c.mState = .selecting ∧ msg.type = dhcpOffer) ∨
    (State.Requests c.mState ∧ (msg.type = dhcpAck ∨ msg.type = dhcpNak))

/-- How `configureDhcp` can end. -/
inductive Configures (c : Client) (msg : Message) (a : Answers) : Bool × Client → Prop where
  | rejected {info : Option DhcpInfo} (hread : msg.readOptions c.mDhcpInfo = (false, info)) :
      Configures c msg a (false, { c with mDhcpInfo := info })
  | noLease {info : DhcpInfo} (hread : msg.readOptions c.mDhcpInfo = (true, some info))
      (hlease : info.leaseTime = 0) :
      Configures c msg a (false, { c with mDhcpInfo := some info })
  | stopped {info : DhcpInfo} {exit : Host.Exit} {host : Host}
      (hread : msg.readOptions c.mDhcpInfo = (true, some info)) (hlease : info.leaseTime ≠ 0)
      (hhost : c.host.configure info (c.mOptions &&& noGateway ≠ 0) a.calls = (exit, host))
      (hexit : exit ≠ .configured) :
      Configures c msg a (false, { c.arm info a with host := host })
  | configured {info : DhcpInfo} {host : Host}
      (hread : msg.readOptions c.mDhcpInfo = (true, some info)) (hlease : info.leaseTime ≠ 0)
      (hhost : c.host.configure info (c.mOptions &&& noGateway ≠ 0) a.calls =
        (.configured, host)) :
      Configures c msg a (true, { c.arm info a with
        host := host
        history := .configured msg info a.nowT1 :: c.history })

/-- One step of the client. -/
inductive Moves (c : Client) (a : Answers) : Client → Prop where
  | leaves {new : State} (hplace : c.place = .evaluate) (hleaves : Leaves c a new) :
      Moves c a { c.setNextState new with place := .evaluate }
  | discovers (hplace : c.place = .evaluate) (hstate : c.mState = .selecting) :
      Moves c a (c.sendDhcpDiscover.increaseTimeout.beginWait a)
  | requests {destination : Option InAddr} (hplace : c.place = .evaluate)
      (hasks : Asks c a destination) :
      Moves c a ((c.sendDhcpRequest destination).increaseTimeout.beginWait a)
  | rests (hplace : c.place = .evaluate) (hstate : c.mState = .bound)
      (hearly : c.mT1.expired a.now = false) :
      Moves c a ((c.awaitT1 a.nowRemaining).beginWait a)
  | timesOut {timeout : Nat} (hplace : c.place = .poll timeout) (hpoll : a.poll = .timeout) :
      Moves c a { c with place := .evaluate }
  | pollFails {timeout : Nat} (hplace : c.place = .poll timeout) (hpoll : a.poll = .error) :
      Moves c a (c.pollAgain timeout a)
  | ignores {timeout : Nat} {packet : Option Message} (hplace : c.place = .poll timeout)
      (hpoll : a.poll = .readable packet)
      (hignored : ∀ msg, c.receiveDhcpMessage packet = some msg → ¬ c.Awaits msg) :
      Moves c a ((c.reads packet).pollAgain timeout a)
  | offered {timeout : Nat} {packet : Option Message} {offer : Message}
      (hplace : c.place = .poll timeout) (hpoll : a.poll = .readable packet)
      (hreceived : c.receiveDhcpMessage packet = some offer) (hstate : c.mState = .selecting)
      (htype : offer.type = dhcpOffer) :
      Moves c a { ((c.reads packet).takeOffer offer).setNextState .requesting with
        place := .evaluate }
  | bound {timeout : Nat} {packet : Option Message} {ack : Message} {c' : Client}
      (hplace : c.place = .poll timeout) (hpoll : a.poll = .readable packet)
      (hreceived : c.receiveDhcpMessage packet = some ack) (hstate : State.Requests c.mState)
      (htype : ack.type = dhcpAck)
      (hconfigure : (c.reads packet).configureDhcp ack a = (true, c')) :
      Moves c a { c'.setNextState .bound with place := .evaluate }
  | misconfigured {timeout : Nat} {packet : Option Message} {ack : Message} {c' : Client}
      (hplace : c.place = .poll timeout) (hpoll : a.poll = .readable packet)
      (hreceived : c.receiveDhcpMessage packet = some ack) (hstate : State.Requests c.mState)
      (htype : ack.type = dhcpAck)
      (hconfigure : (c.reads packet).configureDhcp ack a = (false, c')) :
      Moves c a (c'.pollAgain timeout a)
  | denied {timeout : Nat} {packet : Option Message} {nak : Message}
      (hplace : c.place = .poll timeout) (hpoll : a.poll = .readable packet)
      (hreceived : c.receiveDhcpMessage packet = some nak) (hstate : State.Requests c.mState)
      (htype : nak.type = dhcpNak) :
      Moves c a { ((c.reads packet).haltNetwork a).setNextState .init with place := .evaluate }

theorem polls_not_evaluate {c : Client} {timeout : Nat} (hplace : c.place = .poll timeout) :
    c.place ≠ .evaluate := by
  rw [hplace]
  exact Place.noConfusion

/-- A step reads one packet. -/
theorem packet_unique {a : Answers} {packet packet' : Option Message}
    (h : a.poll = .readable packet) (h' : a.poll = .readable packet') : packet = packet' :=
  Poll.readable.inj (h.symm.trans h')

theorem increaseTimeout_ne (c : Client) : c.increaseTimeout.mNextTimeout ≠ kNoTimeout := by
  simp only [increaseTimeout]
  have hkinds : kInitialTimeout = 4000 ∧ kMaxTimeout = 64000 ∧ kNoTimeout = 0 := ⟨rfl, rfl, rfl⟩
  obtain ⟨hinitial, hmax, hnone⟩ := hkinds
  split_ifs
  all_goals omega

/-- After a message was sent the client polls. -/
theorem beginWait_polls (c : Client) (a : Answers) :
    ∃ timeout, (c.increaseTimeout.beginWait a).place = .poll timeout :=
  ⟨_, if_neg c.increaseTimeout_ne⟩

theorem evaluate_moves {c : Client} {a : Answers} (hplace : c.place = .evaluate) :
    Moves c a ((c.evaluate a).beginWait a) := by
  have hleaves : ∀ {new}, Leaves c a new →
      Moves c a ((c.setNextState new).beginWait a) := fun h => Moves.leaves hplace h
  rw [evaluate]
  cases hstate : c.mState with
  | init => exact hleaves (Leaves.start hstate)
  | selecting => exact Moves.discovers hplace hstate
  | requesting =>
      cases Nat.lt_or_ge c.mNextTimeout kMaxTimeout with
      | inl hlt =>
          simp only [if_neg (Nat.not_le_of_lt hlt)]
          exact Moves.requests hplace (Asks.requesting hstate hlt)
      | inr hge =>
          simp only [if_pos hge]
          exact hleaves (Leaves.requestingEnds hstate hge)
  | bound =>
      cases hexpired : c.mT1.expired a.now with
      | true =>
          simp only [if_true]
          exact hleaves (Leaves.renews hstate hexpired)
      | false =>
          simp only [Bool.false_eq_true, if_false]
          exact Moves.rests hplace hstate hexpired
  | renewing =>
      cases hexpired : c.mT2.expired a.now with
      | true =>
          simp only [if_true]
          exact hleaves (Leaves.rebinds hstate hexpired)
      | false =>
          simp only [Bool.false_eq_true, if_false]
          exact Moves.requests hplace (Asks.renewing hstate hexpired)
  | rebinding =>
      cases Nat.lt_or_ge c.mNextTimeout kMaxTimeout with
      | inl hlt =>
          simp only [if_neg (Nat.not_le_of_lt hlt)]
          exact Moves.requests hplace (Asks.rebinding hstate hlt)
      | inr hge =>
          simp only [if_pos hge]
          exact hleaves (Leaves.rebindingEnds hstate hge)

/-- A message passes `receiveDhcpMessage` only with the id of `mLastMsg`. -/
theorem receiveDhcpMessage_xid {c : Client} {packet : Option Message} {msg : Message}
    (h : c.receiveDhcpMessage packet = some msg) : msg.xid = c.mLastMsg.xid := by
  obtain ⟨-, hvalid⟩ := Option.filter_eq_some_iff.mp h
  rw [Message.isValidDhcpMessage, Bool.and_eq_true, decide_eq_true_eq] at hvalid
  exact hvalid.2

theorem sendDhcpRequest_some {c : Client} {requestAddress : InAddr}
    (h : c.mRequestAddress = some requestAddress) (destination : InAddr) :
    c.sendDhcpRequest (some destination) = c.sendMessage
      (Message.request c.macAddress requestAddress destination c.sNextTransactionId) := by
  simp only [sendDhcpRequest, h]

/-- A REQUEST is sent, or one of its addresses is not there. -/
theorem sendDhcpRequest_cases (c : Client) (destination : Option InAddr) :
    (∃ requestAddress server, c.sendDhcpRequest destination = c.sendMessage
      (Message.request c.macAddress requestAddress server c.sNextTransactionId)) ∨
      c.sendDhcpRequest destination = c.note .uninitialised := by
  cases haddress : c.mRequestAddress with
  | none => exact Or.inr (by simp only [sendDhcpRequest, haddress])
  | some requestAddress =>
      cases destination with
      | none => exact Or.inr (by simp only [sendDhcpRequest, haddress])
      | some destination => exact Or.inl ⟨_, _, sendDhcpRequest_some haddress destination⟩

/-- `readOptions` goes on to the lease only once it has written `mDhcpInfo`. -/
theorem readOptions_written (msg : Message) (mDhcpInfo : Option DhcpInfo) :
    msg.readOptions mDhcpInfo ≠ (true, none) := by
  rw [Message.readOptions]
  split_ifs
  · simp
  · rcases msg.optionLoop DhcpInfo.zero 4 with ⟨_ | _, info⟩
    · simp
    · simp

theorem readOptions_offeredAddress {msg : Message} {mDhcpInfo : Option DhcpInfo}
    {info : DhcpInfo} (h : msg.readOptions mDhcpInfo = (true, some info)) :
    info.offeredAddress = msg.yiaddr := by
  rw [Message.readOptions] at h
  split_ifs at h
  · exact absurd (congrArg Prod.fst h) Bool.false_ne_true
  · rcases hloop : msg.optionLoop DhcpInfo.zero 4 with ⟨_ | _, read⟩
    · rw [hloop] at h
      exact absurd (congrArg Prod.fst h) Bool.false_ne_true
    · rw [hloop] at h
      rw [← Option.some.inj (congrArg Prod.snd h)]

theorem configureDhcp_configures (c : Client) (msg : Message) (a : Answers) :
    Configures c msg a (c.configureDhcp msg a) := by
  rw [configureDhcp]
  rcases hread : msg.readOptions c.mDhcpInfo with ⟨_ | _, info⟩
  · exact Configures.rejected hread
  · cases info with
    | none => exact absurd hread (readOptions_written msg c.mDhcpInfo)
    | some info =>
        by_cases hlease : info.leaseTime = 0
        · simp only [if_pos hlease]
          exact Configures.noLease hread hlease
        · simp only [if_neg hlease]
          rcases hhost : (c.arm info a).host.configure info
            ((c.arm info a).mOptions &&& noGateway ≠ 0) a.calls with
            ⟨_ | _ | _ | _, host⟩
          · exact Configures.stopped hread hlease hhost (by decide)
          · exact Configures.stopped hread hlease hhost (by decide)
          · exact Configures.stopped hread hlease hhost (by decide)
          · exact Configures.configured hread hlease hhost

/-- A failed configuration changes the lease, the timers and the host only. -/
theorem configureDhcp_false {c c' : Client} {msg : Message} {a : Answers}
    (h : c.configureDhcp msg a = (false, c')) :
    ∃ info t1 t2 host, c' = { c with mDhcpInfo := info, mT1 := t1, mT2 := t2, host := host } ∧
      (host = c.host ∨ ∃ info exit, c.host.configure info (c.mOptions &&& noGateway ≠ 0) a.calls =
        (exit, host) ∧ exit ≠ .configured ∧ info.offeredAddress = msg.yiaddr) := by
  have hconfigures := configureDhcp_configures c msg a
  rw [h] at hconfigures
  cases hconfigures with
  | rejected => exact ⟨_, _, _, _, rfl, Or.inl rfl⟩
  | noLease => exact ⟨_, _, _, _, rfl, Or.inl rfl⟩
  | stopped hread hlease hhost hexit =>
      exact ⟨_, _, _, _, rfl, Or.inr ⟨_, _, hhost, hexit, readOptions_offeredAddress hread⟩⟩

theorem configureDhcp_true {c c' : Client} {msg : Message} {a : Answers}
    (h : c.configureDhcp msg a = (true, c')) :
    ∃ info host, msg.readOptions c.mDhcpInfo = (true, some info) ∧ info.leaseTime ≠ 0 ∧
      c.host.configure info (c.mOptions &&& noGateway ≠ 0) a.calls = (.configured, host) ∧
      c' = { c.arm info a with
        host := host
        history := .configured msg info a.nowT1 :: c.history } := by
  have hconfigures := configureDhcp_configures c msg a
  rw [h] at hconfigures
  cases hconfigures with
  | configured hread hlease hhost => exact ⟨_, _, hread, hlease, hhost, rfl⟩

theorem handle_requests {c : Client} (hstate : State.Requests c.mState) (msg : Message)
    (a : Answers) : c.handle msg a = c.handleAnswer msg a := by
  rcases hstate with hstate | hstate | hstate
  · simp only [handle, hstate]
  · simp only [handle, hstate]
  · simp only [handle, hstate]

theorem handle_nak {c : Client} {nak : Message} (hstate : State.Requests c.mState)
    (htype : nak.type = dhcpNak) (a : Answers) :
    c.handle nak a = (true, (c.haltNetwork a).setNextState .init) := by
  have hack : nak.type ≠ dhcpAck := fun heq => dhcpNak_ne_dhcpAck (htype.symm.trans heq)
  rw [handle_requests hstate, handleAnswer, if_neg hack, if_pos htype]

theorem handle_ignored {c : Client} {msg : Message} (h : ¬ c.Awaits msg) (a : Answers) :
    c.handle msg a = (false, c) := by
  by_cases hrequests : State.Requests c.mState
  · have hack : msg.type ≠ dhcpAck := fun heq => h (Or.inr ⟨hrequests, Or.inl heq⟩)
    have hnak : msg.type ≠ dhcpNak := fun heq => h (Or.inr ⟨hrequests, Or.inr heq⟩)
    rw [handle_requests hrequests, handleAnswer, if_neg hack, if_neg hnak]
  · cases hstate : c.mState with
    | init => simp only [handle, hstate]
    | bound => simp only [handle, hstate]
    | selecting =>
        have hoffer : msg.type ≠ dhcpOffer := fun heq => h (Or.inl ⟨hstate, heq⟩)
        simp only [handle, hstate, if_neg hoffer]
    | requesting => exact absurd (Or.inl hstate) hrequests
    | renewing => exact absurd (Or.inr (Or.inl hstate)) hrequests
    | rebinding => exact absurd (Or.inr (Or.inr hstate)) hrequests

theorem conclude_moves {c : Client} {a : Answers} {timeout : Nat} {packet : Option Message}
    {msg : Message} (hplace : c.place = .poll timeout) (hpoll : a.poll = .readable packet)
    (hreceived : c.receiveDhcpMessage packet = some msg) :
    Moves c a (conclude timeout a ((c.reads packet).handle msg a)) := by
  by_cases hawaits : c.Awaits msg
  · rcases hawaits with ⟨hstate, htype⟩ | ⟨hrequests, htype⟩
    · have hreads : (c.reads packet).mState = .selecting := hstate
      simp only [handle, hreads, if_pos htype]
      exact Moves.offered hplace hpoll hreceived hstate htype
    · have hreads : State.Requests (c.reads packet).mState := hrequests
      cases htype with
      | inl hack =>
          rw [handle_requests hreads, handleAnswer, if_pos hack]
          rcases hconfigure : (c.reads packet).configureDhcp msg a with ⟨_ | _, c'⟩
          · exact Moves.misconfigured hplace hpoll hreceived hrequests hack hconfigure
          · exact Moves.bound hplace hpoll hreceived hrequests hack hconfigure
      | inr hnak =>
          rw [handle_nak hreads hnak]
          exact Moves.denied hplace hpoll hreceived hrequests hnak
  · have hreads : ¬ (c.reads packet).Awaits msg := hawaits
    rw [handle_ignored hreads]
    refine Moves.ignores hplace hpoll fun msg' hmsg' => ?_
    rw [hreceived] at hmsg'
    exact Option.some.inj hmsg' ▸ hawaits

theorem pass_received {c : Client} {a : Answers} {packet : Option Message} {msg : Message}
    (hpoll : a.poll = .readable packet) (hreceived : c.receiveDhcpMessage packet = some msg)
    (timeout : Nat) :
    c.pass timeout a = conclude timeout a ((c.reads packet).handle msg a) := by
  rw [pass, hpoll]
  simp only [reads, hreceived]

theorem pass_moves {c : Client} {a : Answers} {timeout : Nat} (hplace : c.place = .poll timeout) :
    Moves c a (c.pass timeout a) := by
  cases hpoll : a.poll with
  | timeout =>
      rw [pass, hpoll]
      exact Moves.timesOut hplace hpoll
  | error =>
      rw [pass, hpoll]
      exact Moves.pollFails hplace hpoll
  | readable packet =>
      cases hreceived : c.receiveDhcpMessage packet with
      | none =>
          have hignores := Moves.ignores hplace hpoll fun msg hmsg => by
            rw [hreceived] at hmsg
            exact absurd hmsg (Option.some_ne_none _).symm
          rw [pass, hpoll]
          simp only [reads, hreceived] at hignores ⊢
          exact hignores
      | some msg =>
          rw [pass_received hpoll hreceived]
          exact conclude_moves hplace hpoll hreceived

/-- A packet that is no message the client awaits leaves nothing but its record, and
the wait goes on. -/
theorem Moves.ignored {c c' : Client} {a : Answers} {timeout : Nat} {packet : Option Message}
    (hmove : Moves c a c') (hplace : c.place = .poll timeout) (hpoll : a.poll = .readable packet)
    (hforeign : ∀ msg, c.receiveDhcpMessage packet = some msg → ¬ c.Awaits msg) :
    c' = (c.reads packet).pollAgain timeout a := by
  have hpolls := polls_not_evaluate hplace
  cases hmove with
  | leaves hevaluate => exact absurd hevaluate hpolls
  | discovers hevaluate => exact absurd hevaluate hpolls
  | requests hevaluate => exact absurd hevaluate hpolls
  | rests hevaluate => exact absurd hevaluate hpolls
  | timesOut _ htimeout => exact absurd (hpoll.symm.trans htimeout) nofun
  | pollFails _ herror => exact absurd (hpoll.symm.trans herror) nofun
  | ignores hplace' hpacket =>
      obtain rfl := packet_unique hpoll hpacket
      obtain rfl := Place.poll.inj (hplace.symm.trans hplace')
      rfl
  | offered _ hpacket hreceived hstate htype =>
      obtain rfl := packet_unique hpoll hpacket
      exact absurd (Or.inl ⟨hstate, htype⟩) (hforeign _ hreceived)
  | bound _ hpacket hreceived hstate htype =>
      obtain rfl := packet_unique hpoll hpacket
      exact absurd (Or.inr ⟨hstate, Or.inl htype⟩) (hforeign _ hreceived)
  | misconfigured _ hpacket hreceived hstate htype =>
      obtain rfl := packet_unique hpoll hpacket
      exact absurd (Or.inr ⟨hstate, Or.inl htype⟩) (hforeign _ hreceived)
  | denied _ hpacket hreceived hstate htype =>
      obtain rfl := packet_unique hpoll hpacket
      exact absurd (Or.inr ⟨hstate, Or.inr htype⟩) (hforeign _ hreceived)

/-- A step only adds to the history. -/
theorem Moves.history {c c' : Client} {a : Answers} (hmove : Moves c a c') :
    ∃ new, c'.history = new ++ c.history := by
  cases hmove with
  | leaves => exact ⟨[_], rfl⟩
  | discovers => exact ⟨[_], rfl⟩
  | @requests destination =>
      rcases sendDhcpRequest_cases c destination with ⟨requestAddress, server, hsend⟩ | hnone
      · rw [hsend]
        exact ⟨[_], rfl⟩
      · rw [hnone]
        exact ⟨[_], rfl⟩
  | rests => exact ⟨[], rfl⟩
  | timesOut => exact ⟨[], rfl⟩
  | pollFails => exact ⟨[], rfl⟩
  | ignores => exact ⟨[_], rfl⟩
  | offered => exact ⟨[_, _], rfl⟩
  | bound _ _ _ _ _ hconfigure =>
      obtain ⟨info, host, -, -, -, rfl⟩ := configureDhcp_true hconfigure
      exact ⟨[_, _, _], rfl⟩
  | misconfigured _ _ _ _ _ hconfigure =>
      obtain ⟨info, t1, t2, host, rfl, -⟩ := configureDhcp_false hconfigure
      exact ⟨[_], rfl⟩
  | denied => exact ⟨[_, _, _], rfl⟩

/-- A step replaces neither the options nor the kernel. -/
theorem Moves.mOptions {c c' : Client} {a : Answers} (hmove : Moves c a c') :
    c'.mOptions = c.mOptions := by
  cases hmove with
  | leaves => rfl
  | discovers => rfl
  | @requests destination =>
      rcases sendDhcpRequest_cases c destination with ⟨requestAddress, server, hsend⟩ | hnone
      · rw [hsend]
        rfl
      · rw [hnone]
        rfl
  | rests => rfl
  | timesOut => rfl
  | pollFails => rfl
  | ignores => rfl
  | offered => rfl
  | bound _ _ _ _ _ hconfigure =>
      obtain ⟨info, host, -, -, -, rfl⟩ := configureDhcp_true hconfigure
      rfl
  | misconfigured _ _ _ _ _ hconfigure =>
      obtain ⟨info, t1, t2, host, rfl, -⟩ := configureDhcp_false hconfigure
      rfl
  | denied => rfl

theorem Moves.kernel {c c' : Client} {a : Answers} (hmove : Moves c a c') :
    c'.host.kernel = c.host.kernel := by
  cases hmove with
  | leaves => rfl
  | discovers => rfl
  | @requests destination =>
      rcases sendDhcpRequest_cases c destination with ⟨requestAddress, server, hsend⟩ | hnone
      · rw [hsend]
        rfl
      · rw [hnone]
        rfl
  | rests => rfl
  | timesOut => rfl
  | pollFails => rfl
  | ignores => rfl
  | offered => rfl
  | bound _ _ _ _ _ hconfigure =>
      obtain ⟨info, host, -, -, hhost, rfl⟩ := configureDhcp_true hconfigure
      have hkernel := Host.configure_kernel c.host info (c.mOptions &&& noGateway ≠ 0) a.calls
      rwa [show c.host.configure info (c.mOptions &&& noGateway ≠ 0) a.calls = _ from hhost]
        at hkernel
  | misconfigured _ _ _ _ _ hconfigure =>
      obtain ⟨info, t1, t2, host, rfl, rfl | ⟨info', exit, hhost, -⟩⟩ :=
        configureDhcp_false hconfigure
      · rfl
      · have hkernel := Host.configure_kernel c.host info' (c.mOptions &&& noGateway ≠ 0) a.calls
        rwa [show c.host.configure info' (c.mOptions &&& noGateway ≠ 0) a.calls = _ from hhost]
          at hkernel
  | denied => exact Host.halt_kernel c.host a.calls

theorem step_evaluate {c : Client} (hplace : c.place = .evaluate) (a : Answers) :
    c.step a = (c.evaluate a).beginWait a := by
  simp only [step, hplace]

theorem step_poll {c : Client} {timeout : Nat} (hplace : c.place = .poll timeout) (a : Answers) :
    c.step a = c.pass timeout a := by
  simp only [step, hplace]

theorem step_moves (c : Client) (a : Answers) : Moves c a (c.step a) := by
  cases hplace : c.place with
  | evaluate =>
      rw [step_evaluate hplace]
      exact evaluate_moves hplace
  | poll timeout =>
      rw [step_poll hplace]
      exact pass_moves hplace

theorem run_history (c : Client) (answers : List Answers) :
    ∃ new, (run step c answers).history = new ++ c.history := by
  induction answers generalizing c with
  | nil => exact ⟨[], rfl⟩
  | cons a answers ih =>
      obtain ⟨later, hlater⟩ := ih (c.step a)
      obtain ⟨new, hnew⟩ := (step_moves c a).history
      refine ⟨later ++ new, ?_⟩
      calc (run step (c.step a) answers).history
          = later ++ (c.step a).history := hlater
        _ = later ++ (new ++ c.history) := by rw [hnew]
        _ = later ++ new ++ c.history := (List.append_assoc later new c.history).symm

end Client

end AndroidX86Tv.Dhcp
