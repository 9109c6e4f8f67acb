import AndroidX86Tv.Dhcp.Renewal

/-!
# Waiting for T1

In `Bound` the client waits for T1 and for nothing else. The time that remains
has 64 bits and `mNextTimeout` has 32, so a wait may end long before T1; the
client then looks at the timer again.
-/

namespace AndroidX86Tv.Dhcp

open EventHistory

theorem Timer.expired_iff (timer : Timer) (now : Nat) :
    timer.expired now = true ↔ timer.mExpires ≤ now :=
  decide_eq_true_iff

namespace Client

/-- A step of a client in `Bound`. What remains of T1 is the time that the wait
is armed from, read right before it starts. -/
structure WaitsForT1 (c : Client) (a : Answers) (c' : Client) : Prop where
  /-- No wait is longer than it was armed to be at its start. -/
  timeout_le : ∀ timeout, c.place = .poll timeout → timeout ≤ c.mNextTimeout
  /-- A wait that starts is no longer than what remains of T1. -/
  armed : ∀ timeout, c.place = .evaluate → c'.place = .poll timeout →
    timeout = c'.mNextTimeout ∧ timeout ≤ c.mT1.remainingMillis a.nowRemaining
  /-- A wait that goes on ends when it would have ended. -/
  goesOn : ∀ timeout rest, c.place = .poll timeout → c'.place = .poll rest →
    a.currentTime + rest = a.startedAt + timeout
  /-- `Bound` is left at or after the expiry of T1, and for `Renewing` only. -/
  leaves : c'.mState ≠ .bound →
    c'.mState = .renewing ∧ c.place = .evaluate ∧ c.mT1.mExpires ≤ a.now
  /-- It is left as soon as `mState` is evaluated then. -/
  expires : c.place = .evaluate → c.mT1.mExpires ≤ a.now → c'.mState = .renewing
  /-- Looking at the timer changes nothing but the wait. -/
  looks : c.place = .evaluate → c'.mState = .bound → ∃ timeout fuzz place,
    c' = { c with mNextTimeout := timeout, mFuzzNextTimeout := fuzz, place := place }
  /-- Nothing that is received changes anything but the record of it. -/
  ignores : ∀ timeout, c.place = .poll timeout →
    ∃ place history, c' = { c with place := place, history := history }

/-- In `Bound` a wait is never longer than `mNextTimeout`, which has 32 bits. -/
def WithinTimeout (c : Client) : Prop :=
  c.mState = .bound → ∀ timeout, c.place = .poll timeout →
    timeout ≤ c.mNextTimeout ∧ c.mNextTimeout < 2 ^ 32

variable {c c' : Client} {a : Answers}

theorem withinTimeout_of_evaluate (hplace : c.place = .evaluate) : c.WithinTimeout :=
  fun _ _ hpoll => absurd hplace (polls_not_evaluate hpoll)

theorem withinTimeout_of_state (hstate : c.mState ≠ .bound) : c.WithinTimeout :=
  fun hbound => absurd hbound hstate

/-- Where a pass ends in another poll, the poll ends when this one would have. -/
theorem pollAgain_rest {timeout rest : Nat} (hclock : a.startedAt ≤ a.currentTime)
    (hshort : timeout < 2 ^ 32) (hplace : (c.pollAgain timeout a).place = .poll rest) :
    a.currentTime + rest = a.startedAt + timeout := by
  have hpow : (2 : Nat) ^ 64 = 2 ^ 32 * 2 ^ 32 := rfl
  simp only [pollAgain] at hplace
  split_ifs at hplace with hdone
  obtain rfl := Place.poll.inj hplace
  omega

/-- A wait in `Bound` is armed with `mNextTimeout`, unless that is zero. -/
theorem awaitT1_armed {timeout current : Nat}
    (hplace : ((c.awaitT1 current).beginWait a).place = .poll timeout) :
    timeout = c.mT1.remainingMillis current % 2 ^ 32 ∧ timeout ≠ 0 := by
  simp only [beginWait, awaitT1, calculateTimeoutMillis, if_true] at hplace
  split_ifs at hplace with hnone
  rw [← Place.poll.inj hplace]
  exact ⟨rfl, hnone⟩

/-- A pass of `Bound` that is not over. -/
theorem waitsForT1_pollAgain {timeout : Nat} {history : List Event} (hbound : c.mState = .bound)
    (hwithin : c.WithinTimeout) (hclock : a.startedAt ≤ a.currentTime)
    (hplace : c.place = .poll timeout) :
    WaitsForT1 c a (({ c with history := history } : Client).pollAgain timeout a) ∧
      WithinTimeout (({ c with history := history } : Client).pollAgain timeout a) := by
  obtain ⟨hle, hshort⟩ := hwithin hbound timeout hplace
  have hrest : ∀ rest, (({ c with history := history } : Client).pollAgain timeout a).place =
      .poll rest → a.currentTime + rest = a.startedAt + timeout :=
    fun rest => pollAgain_rest hclock (Nat.lt_of_le_of_lt hle hshort)
  constructor
  · constructor
    · exact fun other hother => (hwithin hbound other hother).1
    · exact fun _ hevaluate => absurd hevaluate (polls_not_evaluate hplace)
    · intro other rest hother hpoll
      obtain rfl := Place.poll.inj (hplace.symm.trans hother)
      exact hrest rest hpoll
    · exact fun hleft => absurd hbound hleft
    · exact fun hevaluate => absurd hevaluate (polls_not_evaluate hplace)
    · exact fun hevaluate => absurd hevaluate (polls_not_evaluate hplace)
    · exact fun _ _ => ⟨_, history, rfl⟩
  · intro _ rest hpoll
    have hsum := hrest rest hpoll
    have hshorter : rest ≤ c.mNextTimeout := by omega
    exact ⟨hshorter, hshort⟩

/-- A pass of `Bound` that ends for lack of messages. -/
theorem waitsForT1_timesOut {timeout : Nat} (hbound : c.mState = .bound)
    (hwithin : c.WithinTimeout) (hplace : c.place = .poll timeout) :
    WaitsForT1 c a { c with place := .evaluate } := by
  constructor
  · exact fun other hother => (hwithin hbound other hother).1
  · exact fun _ _ => nofun
  · exact fun _ _ _ => nofun
  · exact fun hleft => absurd hbound hleft
  · exact fun hevaluate => absurd hevaluate (polls_not_evaluate hplace)
  · exact fun hevaluate => absurd hevaluate (polls_not_evaluate hplace)
  · exact fun _ _ => ⟨.evaluate, c.history, rfl⟩

/-- An evaluation of `Bound` that finds T1 expired. -/
theorem waitsForT1_renews (hplace : c.place = .evaluate) (hexpired : c.mT1.expired a.now = true)
    (hstate : c'.mState = .renewing) (hplace' : c'.place = .evaluate) : WaitsForT1 c a c' := by
  have hlate := (Timer.expired_iff c.mT1 a.now).mp hexpired
  constructor
  · exact fun _ hpoll => absurd hplace (polls_not_evaluate hpoll)
  · exact fun _ _ hpoll => absurd hplace' (polls_not_evaluate hpoll)
  · exact fun _ _ hpoll => absurd hplace (polls_not_evaluate hpoll)
  · exact fun _ => ⟨hstate, hplace, hlate⟩
  · exact fun _ _ => hstate
  · intro _ hbound
    exact absurd (hstate.symm.trans hbound) (by decide)
  · exact fun _ hpoll => absurd hplace (polls_not_evaluate hpoll)

/-- An evaluation of `Bound` that finds T1 running. -/
theorem waitsForT1_rests (hbound : c.mState = .bound) (hplace : c.place = .evaluate)
    (hearly : c.mT1.expired a.now = false) :
    WaitsForT1 c a ((c.awaitT1 a.nowRemaining).beginWait a) ∧
      WithinTimeout ((c.awaitT1 a.nowRemaining).beginWait a) := by
  constructor
  · constructor
    · exact fun _ hpoll => absurd hplace (polls_not_evaluate hpoll)
    · intro timeout _ hpoll
      obtain ⟨rfl, -⟩ := awaitT1_armed hpoll
      exact ⟨rfl, Nat.mod_le _ _⟩
    · exact fun _ _ hpoll => absurd hplace (polls_not_evaluate hpoll)
    · exact fun hleft => absurd hbound hleft
    · intro _ hlate
      rw [(Timer.expired_iff c.mT1 a.now).mpr hlate] at hearly
      exact absurd hearly (by decide)
    · exact fun _ _ => ⟨_, _, _, rfl⟩
    · exact fun _ hpoll => absurd hplace (polls_not_evaluate hpoll)
  · intro _ timeout hpoll
    obtain ⟨rfl, -⟩ := awaitT1_armed hpoll
    exact ⟨Nat.le_refl _, Nat.mod_lt _ (by decide)⟩

theorem Moves.waitsForT1 (hmove : Moves c a c') (hbound : c.mState = .bound)
    (hwithin : c.WithinTimeout) (hclock : a.startedAt ≤ a.currentTime) :
    WaitsForT1 c a c' ∧ c'.WithinTimeout := by
  cases hmove with
  | leaves hplace hleaves =>
      cases hleaves with
      | renews hstate hexpired =>
          exact ⟨waitsForT1_renews hplace hexpired rfl rfl, withinTimeout_of_evaluate rfl⟩
      | start hstate => exact absurd (hstate.symm.trans hbound) (by decide)
      | requestingEnds hstate => exact absurd (hstate.symm.trans hbound) (by decide)
      | rebinds hstate => exact absurd (hstate.symm.trans hbound) (by decide)
      | rebindingEnds hstate => exact absurd (hstate.symm.trans hbound) (by decide)
  | discovers hplace hstate => exact absurd (hstate.symm.trans hbound) (by decide)
  | requests hplace hasks => exact absurd hbound hasks.state.ne_bound
  | rests hplace hstate hearly => exact waitsForT1_rests hbound hplace hearly
  | timesOut hplace hpoll =>
      exact ⟨waitsForT1_timesOut hbound hwithin hplace, withinTimeout_of_evaluate rfl⟩
  | pollFails hplace hpoll => exact waitsForT1_pollAgain hbound hwithin hclock hplace
  | ignores hplace hpoll hignored => exact waitsForT1_pollAgain hbound hwithin hclock hplace
  | offered hplace hpoll hreceived hstate => exact absurd (hstate.symm.trans hbound) (by decide)
  | bound hplace hpoll hreceived hstate => exact absurd hbound hstate.ne_bound
  | misconfigured hplace hpoll hreceived hstate => exact absurd hbound hstate.ne_bound
  | denied hplace hpoll hreceived hstate => exact absurd hbound hstate.ne_bound

/-- A step into `Bound` leads to an evaluation of it. -/
theorem Moves.withinTimeout (hmove : Moves c a c') (hstate : c.mState ≠ .bound) :
    c'.WithinTimeout := by
  cases hmove with
  | leaves => exact withinTimeout_of_evaluate rfl
  | discovers hplace hselecting => exact withinTimeout_of_state hstate
  | @requests destination =>
      rcases sendDhcpRequest_cases c destination with ⟨requestAddress, server, hsend⟩ | hnone
      · rw [hsend]
        exact withinTimeout_of_state hstate
      · rw [hnone]
        exact withinTimeout_of_state hstate
  | rests hplace hbound => exact absurd hbound hstate
  | timesOut => exact withinTimeout_of_evaluate rfl
  | pollFails => exact withinTimeout_of_state hstate
  | ignores => exact withinTimeout_of_state hstate
  | offered => exact withinTimeout_of_evaluate rfl
  | bound => exact withinTimeout_of_evaluate rfl
  | misconfigured _ _ _ _ _ hconfigure =>
      obtain ⟨info, t1, t2, host, rfl, -⟩ := configureDhcp_false hconfigure
      exact withinTimeout_of_state hstate
  | denied => exact withinTimeout_of_evaluate rfl

/-- Along every run with a clock that does not go back during a poll, every step
in `Bound` waits for T1, whatever is received. -/
theorem bound_waitsForT1 (options : UInt32) (macAddress : Mac) (host : Host)
    {answers : List Answers} (hclock : ∀ a ∈ answers, a.startedAt ≤ a.currentTime) :
    AllSteps step (fun c a => c.mState = .bound → WaitsForT1 c a (c.step a))
      (fresh options macAddress host) answers := by
  have hstep : ∀ c a, WithinTimeout c → a.startedAt ≤ a.currentTime →
      (c.step a).WithinTimeout := by
    intro c a hwithin hmonotone
    by_cases hbound : c.mState = .bound
    · exact ((step_moves c a).waitsForT1 hbound hwithin hmonotone).2
    · exact (step_moves c a).withinTimeout hbound
  refine allSteps_of_invariant (fun c a hwithin hmonotone hbound => ?_) hstep
    (withinTimeout_of_evaluate rfl) hclock
  exact ((step_moves c a).waitsForT1 hbound hwithin hmonotone).1

/-- The device is granted a lease whose T1 is 5000000 seconds away, is woken by a
message of no interest and goes on waiting. -/
def longLeaseRun : List Answers :=
  let request := Message.request deviceMac deviceAddress routerAddress 2
  let reply := fun type source =>
    leaseReply type source routerAddress deviceAddress 8000000 5000000 7000000
  [.quiet 0, .quiet 0, .receives 1 (reply dhcpOffer aDiscover), .quiet 1,
    .receives 1 (reply dhcpAck request), .quiet 1, .receives 11 (reply dhcpAck request)]

theorem longLeaseRun_waitsForT1 :
    AllSteps step (fun c a => c.mState = .bound → WaitsForT1 c a (c.step a))
      (fresh 0 deviceMac bareHost) longLeaseRun :=
  bound_waitsForT1 0 deviceMac bareHost (by simp [longLeaseRun, Answers.quiet, Answers.receives])

/-- The wait is the time that remains, cut down to 32 bits. -/
example : (after 0 deviceMac bareHost longLeaseRun).place = .poll (5000000000 % 2 ^ 32) := by
  decide +kernel

end Client

end AndroidX86Tv.Dhcp
