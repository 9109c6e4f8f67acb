import AndroidX86Tv.Dhcp.Transition

/-!
# The state diagram (client/dhcpclient.cpp)

The states that a client goes through make a path along the edges of the diagram of the
protocol. The host is configured only on an ACK to a REQUEST, and `Bound` is entered right
after that and at no other time; the network is halted only on a NAK to a REQUEST, right
before the client is back in `Init`, and `Renewing` is given up in no other way.
-/

namespace AndroidX86Tv.Dhcp

open EventHistory

/-- The edges of the diagram. -/
inductive Edge : State → State → Prop where
  | start : Edge .init .selecting
  | select : Edge .selecting .requesting
  | bind {state : State} (h : State.Requests state) : Edge state .bound
  | giveUp {state : State} (h : State.Requests state) : Edge state .init
  | renew : Edge .bound .renewing
  | rebind : Edge .renewing .rebinding

/-- The state that was entered last. -/
def stateOf : List Event → State
  | [] => .init
  | .entered _ new :: _ => new
  | _ :: past => stateOf past

/-- The event before is a successful configuration. -/
def FollowsConfigured : List Event → Prop
  | .configured _ _ _ :: _ => True
  | _ => False

/-- The event before is the end of the network. -/
def FollowsHalted : List Event → Prop
  | .halted :: _ => True
  | _ => False

/-- The event before is the message being read. -/
def FollowsRead (received : Message → Prop) : List Event → Prop
  | .read _ _ (some msg) :: _ => received msg
  | _ => False

/-- No configuration and no end of the network waits for the state that it leads to. -/
def Rested (past : List Event) : Prop := ¬ FollowsConfigured past ∧ ¬ FollowsHalted past

/-- The path goes on where it is, along an edge. -/
def Follows : Event → List Event → Prop
  | .entered old new, past =>
      old = stateOf past ∧ Edge old new ∧ (new = .bound ↔ FollowsConfigured past) ∧
        (FollowsHalted past → new = .init) ∧ (old = .renewing → new = .init → FollowsHalted past)
  | .configured ack _ _, past =>
      State.Requests (stateOf past) ∧ ack.type = dhcpAck ∧ FollowsRead (· = ack) past
  | .halted, past => State.Requests (stateOf past) ∧ FollowsRead (·.type = dhcpNak) past
  | .sent .., past | .read .., past | .uninitialised, past => Rested past

namespace Client

/-- The client has gone along the diagram, to where it is. -/
structure OnPath (c : Client) : Prop where
  follows : Everywhere Follows c.history
  state : c.mState = stateOf c.history
  rested : Rested c.history

variable {c c' : Client} {a : Answers}

theorem Leaves.edge {new : State} (h : Leaves c a new) :
    Edge c.mState new ∧ new ≠ .bound ∧ (c.mState = .renewing → new ≠ .init) := by
  cases h with
  | start hstate =>
      rw [hstate]
      exact ⟨.start, by decide, by decide⟩
  | requestingEnds hstate =>
      rw [hstate]
      exact ⟨.giveUp (Or.inl rfl), by decide, by decide⟩
  | renews hstate =>
      rw [hstate]
      exact ⟨.renew, by decide, by decide⟩
  | rebinds hstate =>
      rw [hstate]
      exact ⟨.rebind, by decide, by decide⟩
  | rebindingEnds hstate =>
      rw [hstate]
      exact ⟨.giveUp (Or.inr (Or.inr rfl)), by decide, by decide⟩

/-- Messages that are sent are no part of the path. -/
theorem OnPath.sends (h : OnPath c) (destination : Option InAddr) :
    OnPath ((c.sendDhcpRequest destination).increaseTimeout.beginWait a) := by
  cases sendDhcpRequest_cases c destination with
  | inl hsent =>
      obtain ⟨requestAddress, server, hsend⟩ := hsent
      rw [hsend]
      exact ⟨⟨h.rested, h.follows⟩, h.state, ⟨id, id⟩⟩
  | inr hnone =>
      rw [hnone]
      exact ⟨⟨h.rested, h.follows⟩, h.state, ⟨id, id⟩⟩

/-- A state entered right after something that is no configuration and no halt. -/
theorem OnPath.enters (h : Everywhere Follows c.history) (hstate : c.mState = stateOf c.history)
    (hrested : Rested c.history) {new : State} (hedge : Edge c.mState new) (hbound : new ≠ .bound)
    (hrenewing : c.mState = .renewing → new ≠ .init) :
    OnPath { c.setNextState new with place := .evaluate } where
  follows := ⟨⟨hstate, hedge, iff_of_false hbound hrested.1, fun hhalted =>
    absurd hhalted hrested.2, fun hold hinit => absurd hinit (hrenewing hold)⟩, h⟩
  state := rfl
  rested := ⟨id, id⟩

theorem OnPath.move (h : OnPath c) (hmove : Moves c a c') : OnPath c' := by
  have hread : ∀ packet, Everywhere Follows (c.reads packet).history :=
    fun packet => ⟨h.rested, h.follows⟩
  have hreads : ∀ packet, Rested (c.reads packet).history := fun _ => ⟨id, id⟩
  cases hmove with
  | leaves hplace hleaves =>
      obtain ⟨hedge, hnew, hrenewing⟩ := hleaves.edge
      exact OnPath.enters h.follows h.state h.rested hedge hnew hrenewing
  | discovers => exact ⟨⟨h.rested, h.follows⟩, h.state, ⟨id, id⟩⟩
  | @requests destination => exact h.sends destination
  | rests => exact ⟨h.follows, h.state, h.rested⟩
  | timesOut => exact ⟨h.follows, h.state, h.rested⟩
  | pollFails => exact ⟨h.follows, h.state, h.rested⟩
  | ignores => exact ⟨hread _, h.state, hreads _⟩
  | @offered timeout packet offer _ _ _ hstate =>
      have hselecting : c.mState = .selecting := hstate
      have hedge : Edge c.mState .requesting := by
        rw [hselecting]
        exact .select
      exact OnPath.enters (c := (c.reads packet).takeOffer offer) (hread packet) h.state
        (hreads packet) hedge (by decide) fun _ => by decide
  | bound _ _ hreceived hstate htype hconfigure =>
      obtain ⟨info, host, -, -, -, rfl⟩ := configureDhcp_true hconfigure
      have hrequests : State.Requests (stateOf c.history) := h.state ▸ hstate
      refine ⟨⟨⟨h.state, .bind hstate, iff_of_true rfl trivial, False.elim,
        fun _ hinit => absurd hinit (by decide)⟩,
        ⟨hrequests, htype, ?_⟩, hread _⟩, rfl, ⟨id, id⟩⟩
      rw [reads, hreceived]
      exact rfl
  | misconfigured _ _ _ _ _ hconfigure =>
      obtain ⟨info, t1, t2, host, rfl, -⟩ := configureDhcp_false hconfigure
      exact ⟨hread _, h.state, hreads _⟩
  | denied _ _ hreceived hstate htype =>
      have hrequests : State.Requests (stateOf c.history) := h.state ▸ hstate
      refine ⟨⟨⟨h.state, .giveUp hstate, iff_of_false (by decide) id, fun _ => rfl, fun _ _ => trivial⟩,
        ⟨hrequests, ?_⟩, hread _⟩, rfl, ⟨id, id⟩⟩
      rw [reads, hreceived]
      exact htype

/-- Along every run the client follows the diagram. -/
theorem after_onPath (options : UInt32) (macAddress : Mac) (host : Host)
    (answers : List Answers) : OnPath (after options macAddress host answers) :=
  run_invariant (fun _ a h => h.move (step_moves _ a)) ⟨trivial, rfl, id, id⟩ answers

end Client

end AndroidX86Tv.Dhcp
