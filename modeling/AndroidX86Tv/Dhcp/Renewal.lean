import AndroidX86Tv.Dhcp.Exchange
import AndroidX86Tv.Dhcp.Reply

/-!
# Renewing and rebinding a lease

A REQUEST for a lease the client holds takes its address and server from the
last OFFER, while the lease is that of the last ACK. The two agree exactly when
the messages do.
-/

namespace AndroidX86Tv.Dhcp

open EventHistory ByteMemory

/-- The ACK that was configured last. -/
def lastAck : List Event → Option Message
  | [] => none
  | .configured ack _ _ :: _ => some ack
  | _ :: past => lastAck past

/-- No server identifier, or that of no host. -/
def DesignatesNoServer (request : Message) : Prop :=
  request.getOption optServerId = none ∨ request.serverId = inaddrBroadcast

instance (request : Message) : Decidable (DesignatesNoServer request) :=
  inferInstanceAs (Decidable (_ ∨ _))

/-- A REQUEST asks for the leased address: in `Renewing` the server that granted
it, in `Rebinding` any. -/
def Renews : Event → List Event → Prop
  | .sent .renewing request _, past =>
      ∃ ack ∈ lastAck past, request.requestedIp = ack.yiaddr ∧ request.serverId = ack.serverId
  | .sent .rebinding request _, past =>
      ∃ ack ∈ lastAck past, request.requestedIp = ack.yiaddr ∧ DesignatesNoServer request
  | _, _ => True

instance : (e : Event) → (past : List Event) → Decidable (Renews e past)
  | .sent .renewing _ _, _ | .sent .rebinding _ _, _ => inferInstanceAs (Decidable (∃ _ ∈ _, _))
  | .sent .init _ _, _ | .sent .selecting _ _, _ | .sent .requesting _ _, _ | .sent .bound _ _, _
  | .entered .., _ | .read .., _ | .configured .., _ | .halted, _
  | .uninitialised, _ => isTrue trivial

/-- When a REQUEST is sent for a lease, the OFFER taken last and the ACK
configured last name the same address, and in `Renewing` the same server. -/
def OfferAgrees : Event → List Event → Prop
  | .sent .renewing _ _, past =>
      ∀ offer ∈ lastOffer past, ∀ ack ∈ lastAck past,
        offer.yiaddr = ack.yiaddr ∧ offer.serverId = ack.serverId
  | .sent .rebinding _ _, past =>
      ∀ offer ∈ lastOffer past, ∀ ack ∈ lastAck past, offer.yiaddr = ack.yiaddr
  | _, _ => True

/-- What a REQUEST for a lease carries, whatever the ACK says. -/
def CarriesOffer : Event → List Event → Prop
  | .sent .renewing request _, past =>
      (∃ ack, ack ∈ lastAck past) ∧ ∃ offer ∈ lastOffer past,
        request.requestedIp = offer.yiaddr ∧ request.serverId = offer.serverId
  | .sent .rebinding request _, past =>
      (∃ ack, ack ∈ lastAck past) ∧ ∃ offer ∈ lastOffer past,
        request.requestedIp = offer.yiaddr ∧ request.serverId = inaddrBroadcast
  | _, _ => True

theorem renews_iff_of_carriesOffer {e : Event} {past : List Event} (h : CarriesOffer e past) :
    Renews e past ↔ OfferAgrees e past := by
  cases e with
  | sent state request up =>
      cases state with
      | renewing =>
          obtain ⟨⟨ack, hack⟩, offer, hoffer, haddress, hserver⟩ := h
          constructor
          · rintro ⟨ack, hack, hackAddress, hackServer⟩ offer' hoffer' ack' hack'
            obtain rfl := Option.mem_unique hoffer hoffer'
            obtain rfl := Option.mem_unique hack hack'
            exact ⟨haddress.symm.trans hackAddress, hserver.symm.trans hackServer⟩
          · intro hagrees
            obtain ⟨hsame, hsameServer⟩ := hagrees offer hoffer ack hack
            exact ⟨ack, hack, haddress.trans hsame, hserver.trans hsameServer⟩
      | rebinding =>
          obtain ⟨⟨ack, hack⟩, offer, hoffer, haddress, hserver⟩ := h
          constructor
          · rintro ⟨ack, hack, hackAddress, -⟩ offer' hoffer' ack' hack'
            obtain rfl := Option.mem_unique hoffer hoffer'
            obtain rfl := Option.mem_unique hack hack'
            exact haddress.symm.trans hackAddress
          · intro hagrees
            exact ⟨ack, hack, haddress.trans (hagrees offer hoffer ack hack), Or.inr hserver⟩
      | _ => exact Iff.rfl
  | _ => exact Iff.rfl

namespace Client

/-- In the states that hold a lease an ACK has been configured. -/
structure Leased (c : Client) : Prop where
  exchanges : c.Exchanges
  carried : Everywhere CarriesOffer c.history
  acked : c.mState = .bound ∨ c.mState = .renewing ∨ c.mState = .rebinding →
    ∃ ack, ack ∈ lastAck c.history

theorem fresh_leased (options : UInt32) (macAddress : Mac) (host : Host) :
    Leased (fresh options macAddress host) where
  exchanges := fresh_exchanges options macAddress host
  carried := trivial
  acked h := by rcases h with h | h | h <;> cases h

section

variable {c c' : Client} {a : Answers}

theorem Leased.carries_request (h : Leased c) {destination : Option InAddr}
    (hasks : Asks c a destination) :
    Everywhere CarriesOffer (c.sendDhcpRequest destination).history := by
  obtain ⟨offer, server, hoffer, htype, haddress, hserver, hdestination, hsend⟩ :=
    h.exchanges.sends_request hasks
  rw [hsend]
  refine ⟨?_, h.carried⟩
  cases hasks with
  | requesting hstate =>
      rw [hstate]
      trivial
  | renewing hstate =>
      obtain rfl : offer.serverId = server := Option.some.inj (hserver.symm.trans hdestination)
      rw [hstate]
      exact ⟨h.acked (by simp [hstate]), offer, hoffer, Message.request_requestedIp _ _ _ _,
        Message.request_serverId _ _ _ _⟩
  | rebinding hstate =>
      obtain rfl : inaddrBroadcast = server := Option.some.inj hdestination
      rw [hstate]
      exact ⟨h.acked (by simp [hstate]), offer, hoffer, Message.request_requestedIp _ _ _ _,
        Message.request_serverId _ _ _ _⟩

/-- Every request of a move carries what the offer says. -/
theorem Leased.move_carried (h : Leased c) (hmove : Moves c a c') :
    Everywhere CarriesOffer c'.history := by
  cases hmove with
  | leaves => exact ⟨trivial, h.carried⟩
  | discovers hplace hstate =>
      refine ⟨?_, h.carried⟩
      rw [hstate]
      trivial
  | requests hplace hasks => exact h.carries_request hasks
  | rests => exact h.carried
  | timesOut => exact h.carried
  | pollFails => exact h.carried
  | ignores => exact ⟨trivial, h.carried⟩
  | offered => exact ⟨trivial, trivial, h.carried⟩
  | bound _ _ _ _ _ hconfigure =>
      obtain ⟨info, host, -, -, -, rfl⟩ := configureDhcp_true hconfigure
      exact ⟨trivial, trivial, trivial, h.carried⟩
  | misconfigured _ _ _ _ _ hconfigure =>
      obtain ⟨info, t1, t2, host, rfl, -⟩ := configureDhcp_false hconfigure
      exact ⟨trivial, h.carried⟩
  | denied => exact ⟨trivial, trivial, trivial, h.carried⟩

/-- No state that holds a lease is entered without an ACK. -/
theorem Leased.move_acked (h : Leased c) (hmove : Moves c a c') :
    c'.mState = .bound ∨ c'.mState = .renewing ∨ c'.mState = .rebinding →
      ∃ ack, ack ∈ lastAck c'.history := by
  cases hmove with
  | leaves hplace hleaves =>
      cases hleaves with
      | renews hstate => exact fun _ => h.acked (Or.inl hstate)
      | rebinds hstate => exact fun _ => h.acked (Or.inr (Or.inl hstate))
      | _ => simp [setNextState]
  | discovers => exact h.acked
  | requests hplace hasks =>
      obtain ⟨offer, server, -, -, -, -, -, hsend⟩ := h.exchanges.sends_request hasks
      rw [hsend]
      exact h.acked
  | rests => exact h.acked
  | timesOut => exact h.acked
  | pollFails => exact h.acked
  | ignores => exact h.acked
  | offered => simp [setNextState]
  | bound _ _ _ _ _ hconfigure =>
      obtain ⟨info, host, -, -, -, rfl⟩ := configureDhcp_true hconfigure
      exact fun _ => ⟨_, rfl⟩
  | misconfigured _ _ _ _ _ hconfigure =>
      obtain ⟨info, t1, t2, host, rfl, -⟩ := configureDhcp_false hconfigure
      exact h.acked
  | denied => simp [setNextState]

theorem Leased.move (h : Leased c) (hmove : Moves c a c') : Leased c' :=
  ⟨h.exchanges.move hmove, h.move_carried hmove, h.move_acked hmove⟩

end

/-- Along every run, the REQUESTs for a lease are for the address and from the
server of its ACK exactly where the OFFER names the same. -/
theorem renews_iff_offerAgrees (options : UInt32) (macAddress : Mac) (host : Host)
    (answers : List Answers) :
    Everywhere Renews (after options macAddress host answers).history ↔
      Everywhere OfferAgrees (after options macAddress host answers).history := by
  have hleased : Leased (after options macAddress host answers) :=
    run_invariant (fun c a h => h.move (step_moves c a)) (fresh_leased options macAddress host)
      answers
  exact everywhere_congr (hleased.carried.mono fun _ _ => renews_iff_of_carriesOffer)

/-- The reply of a server that names the lease and its two timers, in seconds. -/
def leaseReply (type : UInt8) (source : Message) (server address : InAddr)
    (lease t1 t2 : UInt32) : Message :=
  let message := Message.create opBootReply source.chaddr type 1
  let message := (message.setXid source.xid).setYiaddr address
  let message := message.addOptionOf optServerId (bytes32 server)
  let message := message.addOptionOf optLeaseTime (bytes32 (swap32 lease))
  let message := message.addOptionOf optT1 (bytes32 (swap32 t1))
  let message := message.addOptionOf optT2 (bytes32 (swap32 t2))
  message.endOptions

/-- A second server on the network of the device. -/
def otherServer : InAddr := 0x0302000a

/-- The device gets a lease, finds its server silent and is granted the same
address by another one while `Rebinding`; then the lease is due again. -/
def rebindingRun : List Answers :=
  let asks := Message.request deviceMac deviceAddress
  let granted := leaseReply dhcpAck (asks routerAddress 2) routerAddress deviceAddress 80 40 70
  let regranted := leaseReply dhcpAck (asks inaddrBroadcast 4) otherServer deviceAddress 80 40 70
  [.quiet 0, .quiet 0,
    .receives 1 (leaseReply dhcpOffer aDiscover routerAddress deviceAddress 80 40 70),
    .quiet 1, .receives 1 granted, .quiet 1, .quiet 40001, .quiet 40001, .quiet 40001,
    .quiet 70001, .quiet 70001, .quiet 70001, .receives 70002 regranted,
    .quiet 70002, .quiet 110002, .quiet 110002, .quiet 110002]

/-- The next REQUEST in `Renewing` goes to the server of the old lease. -/
theorem renews_with_old_server :
    ¬ Everywhere Renews (after 0 deviceMac bareHost rebindingRun).history := by
  decide +kernel

end Client

end AndroidX86Tv.Dhcp
