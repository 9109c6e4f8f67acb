import AndroidX86Tv.Dhcp.Reply
import AndroidX86Tv.Dhcp.Transition

/-!
# The interface while messages are sent

`haltNetwork` takes the interface down on a NAK and nothing brings it up again
before the next DISCOVER.
-/

namespace AndroidX86Tv.Dhcp

open EventHistory

/-- Messages are sent through an interface that is up. -/
def SentUp : Event → List Event → Prop
  | .sent _ _ up, _ => up = true
  | _, _ => True

instance : (e : Event) → (past : List Event) → Decidable (SentUp e past)
  | .sent _ _ up, _ => inferInstanceAs (Decidable (up = true))
  | .entered .., _ | .read .., _ | .configured .., _ | .halted, _
  | .uninitialised, _ => isTrue trivial

namespace Client

/-- The step reads a NAK to the REQUEST of its state. -/
def TakesNak (c : Client) (a : Answers) : Prop :=
  ∃ timeout packet nak, c.place = .poll timeout ∧ a.poll = .readable packet ∧
    c.receiveDhcpMessage packet = some nak ∧ State.Requests c.mState ∧ nak.type = dhcpNak

section

variable {c c' : Client} {a : Answers}

/-- A message sent by a step goes out with the interface as it is before the step. -/
theorem Moves.sentUp (hmove : Moves c a c') (hup : c.host.up = true)
    (hsent : Everywhere SentUp c.history) : Everywhere SentUp c'.history := by
  cases hmove with
  | leaves => exact ⟨trivial, hsent⟩
  | discovers => exact ⟨hup, hsent⟩
  | @requests destination hplace hasks =>
      rcases sendDhcpRequest_cases c destination with ⟨requestAddress, server, hsend⟩ | hnone
      · rw [hsend]
        exact ⟨hup, hsent⟩
      · rw [hnone]
        exact ⟨trivial, hsent⟩
  | rests => exact hsent
  | timesOut => exact hsent
  | pollFails => exact hsent
  | ignores => exact ⟨trivial, hsent⟩
  | offered => exact ⟨trivial, trivial, hsent⟩
  | bound _ _ _ _ _ hconfigure =>
      obtain ⟨info, host, -, -, -, rfl⟩ := configureDhcp_true hconfigure
      exact ⟨trivial, trivial, trivial, hsent⟩
  | misconfigured _ _ _ _ _ hconfigure =>
      obtain ⟨info, t1, t2, host, rfl, -⟩ := configureDhcp_false hconfigure
      exact ⟨trivial, hsent⟩
  | denied => exact ⟨trivial, trivial, trivial, hsent⟩

/-- Only a NAK takes the interface down. -/
theorem Moves.up (hmove : Moves c a c') (hworks : a.calls.InterfaceWorks)
    (hnak : ¬ TakesNak c a) (hup : c.host.up = true) : c'.host.up = true := by
  cases hmove with
  | leaves => exact hup
  | discovers => exact hup
  | @requests destination hplace hasks =>
      rcases sendDhcpRequest_cases c destination with ⟨requestAddress, server, hsend⟩ | hnone
      · rw [hsend]
        exact hup
      · rw [hnone]
        exact hup
  | rests => exact hup
  | timesOut => exact hup
  | pollFails => exact hup
  | ignores => exact hup
  | offered => exact hup
  | bound _ _ _ _ _ hconfigure =>
      obtain ⟨info, host, -, -, hhost, rfl⟩ := configureDhcp_true hconfigure
      exact (Host.configure_works hworks hhost).2.1
  | misconfigured _ _ _ _ _ hconfigure =>
      obtain ⟨info, t1, t2, host, rfl, rfl | ⟨info, exit, hhost, -⟩⟩ :=
        configureDhcp_false hconfigure
      · exact hup
      · exact (Host.configure_works hworks hhost).2.1
  | denied hplace hpoll hreceived hstate htype =>
      exact absurd ⟨_, _, _, hplace, hpoll, hreceived, hstate, htype⟩ hnak

/-- After a NAK the client is back in `Init`, with the interface down. -/
theorem TakesNak.halts (h : TakesNak c a) (hworks : a.calls.InterfaceWorks) :
    (c.step a).mState = .init ∧ (c.step a).place = .evaluate ∧ (c.step a).host.up = false := by
  obtain ⟨timeout, packet, nak, hplace, hpoll, hreceived, hrequests, htype⟩ := h
  have hreads : State.Requests (c.reads packet).mState := hrequests
  rw [step_poll hplace, pass_received hpoll hreceived, handle_nak hreads htype]
  refine ⟨rfl, rfl, ?_⟩
  change (c.host.halt a.calls).up = false
  rw [Host.halt_works hworks, Host.down_up]

theorem step_init (hstate : c.mState = .init) (hplace : c.place = .evaluate) (a : Answers) :
    c.step a = (c.setNextState .selecting).beginWait a := by
  simp only [step_evaluate hplace, evaluate, hstate]

/-- From `Init` the next two evaluations send a DISCOVER. -/
theorem discovers_from_init (hstate : c.mState = .init) (hplace : c.place = .evaluate)
    (first second : Answers) :
    ∃ message past, ((c.step first).step second).history =
      .sent .selecting message c.host.up :: past := by
  have hfirst := step_init hstate hplace first
  have hselecting : (c.step first).mState = .selecting := by rw [hfirst]; rfl
  have hagain : (c.step first).place = .evaluate := by rw [hfirst]; rfl
  have hup : (c.step first).host.up = c.host.up := by rw [hfirst]; rfl
  have hsecond : (c.step first).step second =
      (c.step first).sendDhcpDiscover.increaseTimeout.beginWait second := by
    simp only [step_evaluate hagain, evaluate, hselecting]
  refine ⟨Message.discover (c.step first).macAddress (c.step first).sNextTransactionId,
    (c.step first).history, ?_⟩
  rw [hsecond, ← hselecting, ← hup]
  rfl

/-- Once a NAK is taken and two more evaluations follow, a message has been sent
with the interface down. -/
theorem TakesNak.not_sentUp (h : TakesNak c a) (hworks : a.calls.InterfaceWorks)
    (first second : Answers) (later : List Answers) :
    ¬ Everywhere SentUp (run step c (a :: first :: second :: later)).history := by
  intro hsent
  obtain ⟨hstate, hplace, hdown⟩ := h.halts hworks
  obtain ⟨message, past, hhistory⟩ := discovers_from_init hstate hplace first second
  obtain ⟨new, hnew⟩ := run_history (((c.step a).step first).step second) later
  rw [run_cons, run_cons, run_cons, hnew] at hsent
  have hbad := hsent.of_append
  rw [hhistory, hdown] at hbad
  exact absurd hbad.1 Bool.false_ne_true

theorem sentUp_of_allSteps {answers : List Answers} (hworks : ∀ a ∈ answers, a.calls.InterfaceWorks)
    (hsteps : AllSteps step (fun c a => ¬ TakesNak c a) c answers) (hup : c.host.up = true)
    (hsent : Everywhere SentUp c.history) :
    (run step c answers).host.up = true ∧ Everywhere SentUp (run step c answers).history := by
  have hstep : ∀ c a, (c.host.up = true ∧ Everywhere SentUp c.history) →
      ¬ TakesNak c a ∧ a.calls.InterfaceWorks →
      (c.step a).host.up = true ∧ Everywhere SentUp (c.step a).history := by
    intro c a h hmeets
    constructor
    · exact (step_moves c a).up hmeets.2 hmeets.1 h.1
    · exact (step_moves c a).sentUp h.1 h.2
  exact AllSteps.invariant hstep (hsteps.and_inputs hworks) ⟨hup, hsent⟩

/-- Two more steps do no harm: if the first takes a NAK, the second sends nothing. -/
theorem sentUp_two_steps {answers : List Answers} (hlen : answers.length ≤ 2)
    (hworks : ∀ a ∈ answers, a.calls.InterfaceWorks) (hup : c.host.up = true)
    (hsent : Everywhere SentUp c.history) : Everywhere SentUp (run step c answers).history := by
  match answers with
  | [] => exact hsent
  | [first] => exact (step_moves c first).sentUp hup hsent
  | [first, second] =>
      have hfirst := hworks first List.mem_cons_self
      have hsentFirst := (step_moves c first).sentUp hup hsent
      by_cases hnak : TakesNak c first
      · obtain ⟨hstate, hplace, -⟩ := hnak.halts hfirst
        change Everywhere SentUp ((c.step first).step second).history
        rw [step_init hstate hplace]
        exact ⟨trivial, hsentFirst⟩
      · exact (step_moves (c.step first) second).sentUp
          ((step_moves c first).up hfirst hnak hup) hsentFirst
  | _ :: _ :: _ :: _ =>
      simp only [List.length_cons] at hlen
      omega

/-- The steps of a run that are followed by two more. -/
def followedByTwo (answers : List Answers) : List Answers := answers.take (answers.length - 2)

theorem allSteps_of_sentUp {answers : List Answers}
    (hworks : ∀ a ∈ answers, a.calls.InterfaceWorks)
    (hsent : Everywhere SentUp (run step c answers).history) :
    AllSteps step (fun c a => ¬ TakesNak c a) c (followedByTwo answers) := by
  induction answers generalizing c with
  | nil => trivial
  | cons a answers ih =>
      match answers with
      | [] => trivial
      | [_] => trivial
      | first :: second :: later =>
          have hfollowed : followedByTwo (a :: first :: second :: later) =
              a :: followedByTwo (first :: second :: later) := rfl
          rw [hfollowed]
          exact ⟨fun hnak => hnak.not_sentUp (hworks a List.mem_cons_self) first second later hsent,
            ih (fun b hb => hworks b (List.mem_cons_of_mem a hb)) hsent⟩

/-- Where every operation on the interface succeeds, every message is sent with
the interface up exactly if no NAK is taken that two more steps follow, which
send the next DISCOVER. -/
theorem sentUp_iff_no_nak (options : UInt32) (macAddress : Mac) (host : Host)
    {answers : List Answers} (hworks : ∀ a ∈ answers, a.calls.InterfaceWorks) :
    Everywhere SentUp (after options macAddress host answers).history ↔
      AllSteps step (fun c a => ¬ TakesNak c a) (fresh options macAddress host)
        (followedByTwo answers) := by
  constructor
  · exact allSteps_of_sentUp hworks
  · intro hsteps
    obtain ⟨hup, hsent⟩ := sentUp_of_allSteps
      (fun a ha => hworks a (List.mem_of_mem_take ha)) hsteps rfl trivial
    have hrun : after options macAddress host answers =
        run step (run step (fresh options macAddress host) (followedByTwo answers))
          (answers.drop (answers.length - 2)) := by
      calc run step (fresh options macAddress host) answers
          = run step (fresh options macAddress host)
              (followedByTwo answers ++ answers.drop (answers.length - 2)) := by
            rw [followedByTwo, List.take_append_drop]
        _ = _ := run_append step _ _ _
    rw [hrun]
    apply sentUp_two_steps
    · rw [List.length_drop]
      omega
    · exact fun a ha => hworks a (List.mem_of_mem_drop ha)
    · exact hup
    · exact hsent

/-- A device that is offered an address and asks for it. -/
def offeredRun : List Answers :=
  [.quiet 0, .quiet 0, .receives 1 (Message.offer aDiscover routerAddress deviceAddress networkMask
    routerAddress [] 1), .quiet 1]

theorem offeredRun_works : ∀ a ∈ offeredRun, a.calls.InterfaceWorks := by
  simp [offeredRun, Answers.quiet_works, Answers.receives_works]

theorem sentUp_offeredRun : Everywhere SentUp (after 0 deviceMac bareHost offeredRun).history := by
  apply (sentUp_iff_no_nak 0 deviceMac bareHost offeredRun_works).mpr
  -- the two steps that two more follow are evaluations
  change AllSteps step _ _ [.quiet 0, .quiet 0]
  exact ⟨fun ⟨_, _, _, hplace, _⟩ => absurd hplace nofun,
    fun ⟨_, _, _, hplace, _⟩ => absurd hplace nofun, trivial⟩

/-- The server denies the request; the client takes the interface down and then
sends its next DISCOVER. -/
theorem discover_sent_down :
    let answers := offeredRun ++ [.receives 2 (Message.nack (Message.request deviceMac
      deviceAddress routerAddress 2) routerAddress 2), .quiet 2, .quiet 2]
    (∀ a ∈ answers, a.calls.InterfaceWorks) ∧
      ¬ Everywhere SentUp (after 0 deviceMac bareHost answers).history := by
  intro answers
  constructor
  · simp [answers, offeredRun, Answers.quiet_works, Answers.receives_works]
  · decide +kernel

end

end Client

end AndroidX86Tv.Dhcp
