import AndroidX86Tv.Dhcp.Transition

/-!
# Which message answers which

Along every run, what is read is read after a message sent in the same visit to
the state, `Bound` is entered on an ACK to that message, and a REQUEST sent in
`Requesting` repeats the OFFER that led there.
-/

namespace AndroidX86Tv.Dhcp

open EventHistory

/-- The last message sent since the state was entered, with the state. -/
def visitSent : List Event → Option (State × Message)
  | [] => none
  | .entered _ _ :: _ => none
  | .sent state message _ :: _ => some (state, message)
  | _ :: past => visitSent past

/-- What was read last since the state was entered, and after which message. -/
def visitRead : List Event → Option (State × Message × Option Message)
  | [] => none
  | .entered _ _ :: _ => none
  | .read state lastMsg message :: _ => some (state, lastMsg, message)
  | _ :: past => visitRead past

/-- The message that was read right before `Requesting` was last entered. -/
def lastOffer : List Event → Option Message
  | [] => none
  | .entered _ .requesting :: .read _ _ message :: _ => message
  | _ :: past => lastOffer past

/-- What the client promises of each event, given the events before it. -/
def Sound : Event → List Event → Prop
  | .read state lastMsg _, past =>
      state = .bound ∨ visitSent past = some (state, lastMsg) ∧ state.sends = some lastMsg.type
  | .entered old .bound, past =>
      ∃ request ack, visitSent past = some (old, request) ∧ request.type = dhcpRequest ∧
        visitRead past = some (old, request, some ack) ∧ ack.type = dhcpAck ∧
        ack.xid = request.xid
  | .sent .requesting request _, past =>
      ∃ offer, lastOffer past = some offer ∧ offer.type = dhcpOffer ∧
        request.requestedIp = offer.yiaddr ∧ request.serverId = offer.serverId
  | .uninitialised, _ => False
  | _, _ => True

namespace Client

/-- The addresses to ask for and to ask come from the OFFER taken last. -/
def OfferTaken (c : Client) : Prop :=
  ∃ offer, lastOffer c.history = some offer ∧ offer.type = dhcpOffer ∧
    c.mRequestAddress = some offer.yiaddr ∧ c.mServerAddress = some offer.serverId

/-- While the client polls, the message sent last was sent in this visit. -/
def Awaiting (c : Client) : Prop :=
  c.mState = .bound ∨
    visitSent c.history = some (c.mState, c.mLastMsg) ∧ c.mState.sends = some c.mLastMsg.type

structure Exchanges (c : Client) : Prop where
  sound : Everywhere Sound c.history
  awaiting : ∀ timeout, c.place = .poll timeout → c.Awaiting
  offerTaken : c.mState ≠ .init → c.mState ≠ .selecting → c.OfferTaken

theorem fresh_exchanges (options : UInt32) (macAddress : Mac) (host : Host) :
    Exchanges (fresh options macAddress host) where
  sound := trivial
  awaiting _ h := nomatch h
  offerTaken h := absurd rfl h

section

variable {c c' : Client} {a : Answers}

theorem Exchanges.offer_of_asks (h : Exchanges c) {destination : Option InAddr}
    (hasks : Asks c a destination) : c.OfferTaken :=
  h.offerTaken hasks.state.ne_init hasks.state.ne_selecting

/-- A REQUEST that is due is sent, with the address of the OFFER. -/
theorem Exchanges.sends_request (h : Exchanges c) {destination : Option InAddr}
    (hasks : Asks c a destination) : ∃ offer server, lastOffer c.history = some offer ∧
      offer.type = dhcpOffer ∧ c.mRequestAddress = some offer.yiaddr ∧
      c.mServerAddress = some offer.serverId ∧ destination = some server ∧
      c.sendDhcpRequest destination = c.sendMessage
        (Message.request c.macAddress offer.yiaddr server c.sNextTransactionId) := by
  obtain ⟨offer, hoffer, htype, haddress, hserver⟩ := h.offer_of_asks hasks
  cases hasks with
  | requesting =>
      exact ⟨offer, offer.serverId, hoffer, htype, haddress, hserver, hserver,
        hserver ▸ sendDhcpRequest_some haddress offer.serverId⟩
  | renewing =>
      exact ⟨offer, offer.serverId, hoffer, htype, haddress, hserver, hserver,
        hserver ▸ sendDhcpRequest_some haddress offer.serverId⟩
  | rebinding =>
      exact ⟨offer, inaddrBroadcast, hoffer, htype, haddress, hserver, rfl,
        sendDhcpRequest_some haddress inaddrBroadcast⟩

theorem Exchanges.read (h : Exchanges c) {timeout : Nat} (hplace : c.place = .poll timeout)
    (packet : Option Message) : Everywhere Sound (c.reads packet).history :=
  ⟨h.awaiting timeout hplace, h.sound⟩

/-- Another state is entered after an evaluation. -/
theorem Exchanges.leave (h : Exchanges c) {new : State} (hleaves : Leaves c a new) :
    Exchanges { c.setNextState new with place := .evaluate } := by
  cases hleaves with
  | start =>
      exact ⟨⟨trivial, h.sound⟩, fun _ => nofun, fun _ hne => absurd rfl hne⟩
  | requestingEnds =>
      exact ⟨⟨trivial, h.sound⟩, fun _ => nofun, fun hne => absurd rfl hne⟩
  | renews hstate =>
      exact ⟨⟨trivial, h.sound⟩, fun _ => nofun,
        fun _ _ => h.offerTaken (by simp [hstate]) (by simp [hstate])⟩
  | rebinds hstate =>
      exact ⟨⟨trivial, h.sound⟩, fun _ => nofun,
        fun _ _ => h.offerTaken (by simp [hstate]) (by simp [hstate])⟩
  | rebindingEnds =>
      exact ⟨⟨trivial, h.sound⟩, fun _ => nofun, fun hne => absurd rfl hne⟩

/-- A REQUEST is sent. -/
theorem Exchanges.request (h : Exchanges c) {destination : Option InAddr}
    (hasks : Asks c a destination) :
    Exchanges ((c.sendDhcpRequest destination).increaseTimeout.beginWait a) := by
  obtain ⟨offer, server, hoffer, htype, haddress, hserver, hdestination, hsend⟩ :=
    h.sends_request hasks
  rw [hsend]
  have hsends : c.mState.sends = some (Message.request c.macAddress offer.yiaddr server
      c.sNextTransactionId).type := by
    rw [hasks.state.sends, Message.request_type]
  refine ⟨⟨?_, h.sound⟩, fun _ _ => Or.inr ⟨rfl, hsends⟩,
    fun _ _ => ⟨offer, hoffer, htype, haddress, hserver⟩⟩
  cases hasks with
  | requesting hstate =>
      obtain rfl : offer.serverId = server := Option.some.inj (hserver.symm.trans hdestination)
      rw [hstate]
      exact ⟨offer, hoffer, htype, Message.request_requestedIp _ _ _ _,
        Message.request_serverId _ _ _ _⟩
  | renewing hstate =>
      rw [hstate]
      trivial
  | rebinding hstate =>
      rw [hstate]
      trivial

theorem Exchanges.move (h : Exchanges c) (hmove : Moves c a c') : Exchanges c' := by
  cases hmove with
  | leaves hplace hleaves => exact h.leave hleaves
  | discovers hplace hstate =>
      have hsends : c.mState.sends =
          some (Message.discover c.macAddress c.sNextTransactionId).type := by
        rw [hstate, Message.discover_type]
        rfl
      refine ⟨⟨?_, h.sound⟩, fun _ _ => Or.inr ⟨rfl, hsends⟩,
        fun _ hne => absurd hstate hne⟩
      rw [hstate]
      trivial
  | requests hplace hasks => exact h.request hasks
  | rests hplace hstate hearly =>
      exact ⟨h.sound, fun _ _ => Or.inl hstate,
        fun _ _ => h.offerTaken (by simp [hstate]) (by simp [hstate])⟩
  | timesOut hplace hpoll => exact ⟨h.sound, fun _ => nofun, h.offerTaken⟩
  | pollFails hplace hpoll =>
      exact ⟨h.sound, fun _ _ => h.awaiting _ hplace, h.offerTaken⟩
  | ignores hplace hpoll hignored =>
      exact ⟨h.read hplace _, fun _ _ => h.awaiting _ hplace, h.offerTaken⟩
  | offered hplace hpoll hreceived hstate htype =>
      exact ⟨⟨trivial, h.read hplace _⟩, fun _ => nofun,
        fun _ _ => ⟨_, hreceived, htype, rfl, rfl⟩⟩
  | @bound timeout packet ack c' hplace hpoll hreceived hstate htype hconfigure =>
      have hoffer := h.offerTaken hstate.ne_init hstate.ne_selecting
      obtain ⟨hsent, hsends⟩ := (h.awaiting timeout hplace).resolve_left hstate.ne_bound
      have hrequest : c.mLastMsg.type = dhcpRequest :=
        Option.some.inj (hsends.symm.trans hstate.sends)
      obtain ⟨info, host, -, -, -, rfl⟩ := configureDhcp_true hconfigure
      refine ⟨⟨⟨c.mLastMsg, ack, hsent, hrequest, ?_, htype, receiveDhcpMessage_xid hreceived⟩,
        trivial, h.read hplace packet⟩, fun _ => nofun, fun _ _ => hoffer⟩
      change some (c.mState, c.mLastMsg, c.receiveDhcpMessage packet) = _
      rw [hreceived]
      rfl
  | @misconfigured timeout packet ack c' hplace hpoll hreceived hstate htype hconfigure =>
      have hoffer := h.offerTaken hstate.ne_init hstate.ne_selecting
      obtain ⟨info, t1, t2, host, rfl, -⟩ := configureDhcp_false hconfigure
      exact ⟨h.read hplace packet, fun _ _ => h.awaiting timeout hplace, fun _ _ => hoffer⟩
  | denied hplace hpoll hreceived hstate htype =>
      exact ⟨⟨trivial, trivial, h.read hplace _⟩, fun _ => nofun, fun hne => absurd rfl hne⟩

end

theorem after_exchanges (options : UInt32) (macAddress : Mac) (host : Host)
    (answers : List Answers) : Exchanges (after options macAddress host answers) :=
  run_invariant (fun c a h => h.move (step_moves c a)) (fresh_exchanges options macAddress host)
    answers

/-- Along every run, whatever is received and however the system calls end: what
is read is read after a message of this visit, `Bound` is entered on the ACK to
it, a REQUEST of `Requesting` repeats the OFFER, and no member is read before it
is written. -/
theorem after_sound (options : UInt32) (macAddress : Mac) (host : Host)
    (answers : List Answers) :
    Everywhere Sound (after options macAddress host answers).history :=
  (after_exchanges options macAddress host answers).sound

end Client

end AndroidX86Tv.Dhcp
