import AndroidX86Tv.Dhcp.Exchange

/-!
# The timeouts between transmissions

`mNextTimeout` is the timeout of the next wait, the request for an immediate
transition and the rest of T1. In the states that retransmit it is a function
of the number of messages sent since the state was entered.
-/

namespace AndroidX86Tv.Dhcp

open EventHistory

/-- The messages sent since the state was entered. -/
def visitTransmissions : List Event → Nat
  | [] => 0
  | .entered _ _ :: _ => 0
  | .sent _ _ _ :: past => visitTransmissions past + 1
  | _ :: past => visitTransmissions past

/-- The base timeout after the given number of transmissions. -/
def backoff : Nat → Nat
  | 0 => kNoTimeout
  | k + 1 => min (kInitialTimeout * 2 ^ k) kMaxTimeout

/-- The first timeouts are 4000, 8000, 16000, 32000, 64000 and 64000. -/
example : (List.range 7).map backoff = [0, 4000, 8000, 16000, 32000, 64000, 64000] := by
  decide

/-- The states that send a message again when their timeout is over. -/
def State.Retransmits (state : State) : Prop := state.sends ≠ none

instance (state : State) : Decidable state.Retransmits := inferInstanceAs (Decidable (_ ≠ none))

theorem State.Requests.retransmits {state : State} (h : State.Requests state) :
    state.Retransmits := by
  rw [State.Retransmits, h.sends]
  exact Option.some_ne_none _

/-- From the fifth transmission on the base timeout stays at its limit. -/
theorem kMaxTimeout_le_backoff_iff (k : Nat) : kMaxTimeout ≤ backoff k ↔ 5 ≤ k := by
  constructor
  · intro hmax
    by_contra hfew
    have hsmall : ∀ k < 5, ¬ kMaxTimeout ≤ backoff k := by decide
    exact hsmall k (by omega) hmax
  · intro hmany
    obtain ⟨n, rfl⟩ := Nat.exists_eq_add_of_le hmany
    have hpow : 1 ≤ 2 ^ n := Nat.one_le_two_pow
    rw [Nat.add_comm, backoff, Nat.pow_add, kInitialTimeout, kMaxTimeout]
    omega

theorem kInitialTimeout_le_backoff (k : Nat) : kInitialTimeout ≤ backoff (k + 1) := by
  have hpow : 1 ≤ 2 ^ k := Nat.one_le_two_pow
  rw [backoff, kInitialTimeout, kMaxTimeout]
  omega

theorem backoff_le_kMaxTimeout (k : Nat) : backoff k ≤ kMaxTimeout := by
  cases k with
  | zero => exact Nat.zero_le kMaxTimeout
  | succ k => exact Nat.min_le_right _ _

namespace Client

/-- What the timeout members say about the visit to the state. -/
structure BacksOff (c : Client) : Prop where
  base : c.mState.Retransmits → c.mNextTimeout = backoff (visitTransmissions c.history)
  fuzz : c.mFuzzNextTimeout = false → c.mState = .bound
  waits : ∀ timeout, c.place = .poll timeout → c.mState.Retransmits →
    0 < visitTransmissions c.history
  limited : c.mState = .requesting ∨ c.mState = .rebinding → visitTransmissions c.history ≤ 5

/-- A wait that starts in the step is the base timeout and the adjustment. -/
structure Fuzzes (c : Client) (a : Answers) (c' : Client) : Prop where
  armed : ∀ timeout, c.place = .evaluate → c'.place = .poll timeout → c'.mState.Retransmits →
    (timeout : Int) = c'.mNextTimeout + a.adjustment
  within : ∀ timeout, c.place = .evaluate → c'.place = .poll timeout → c'.mState.Retransmits →
    c'.mNextTimeout - kTimeoutSpan ≤ timeout ∧ timeout ≤ c'.mNextTimeout + kTimeoutSpan
  /-- The branch of `calculateTimeoutMillis` for an underflow is not taken. -/
  noUnderflow : ∀ timeout, c.place = .evaluate → c'.place = .poll timeout →
    c'.mFuzzNextTimeout = true →
    ¬ (a.adjustment.val < 0 ∧ (-a.adjustment.val).toNat > c'.mNextTimeout)

variable {c c' : Client} {a : Answers} {k : Nat}

theorem increaseTimeout_backoff (h : c.mNextTimeout = backoff k) :
    c.increaseTimeout.mNextTimeout = backoff (k + 1) := by
  cases k with
  | zero =>
      rw [increaseTimeout, h]
      rfl
  | succ k =>
      have hpow : 1 ≤ 2 ^ k := Nat.one_le_two_pow
      have hdouble : 2 ^ (k + 1) = 2 ^ k * 2 := pow_succ 2 k
      simp only [increaseTimeout, h, backoff, hdouble, kInitialTimeout, kMaxTimeout, kNoTimeout]
      split_ifs <;> omega

/-- A state that has just been entered. -/
theorem backsOff_entered (hplace : c.place = .evaluate) (hnext : c.mNextTimeout = kNoTimeout)
    (hfuzz : c.mFuzzNextTimeout = true) (hsent : visitTransmissions c.history = 0) :
    BacksOff c where
  base _ := by rw [hnext, hsent, backoff]
  fuzz hno := absurd (hfuzz.symm.trans hno) (by decide)
  waits timeout hpoll := absurd hplace (polls_not_evaluate hpoll)
  limited _ := hsent.symm ▸ Nat.zero_le 5

/-- A step that stays in the visit and sends nothing. -/
theorem BacksOff.stay (h : BacksOff c) (hstate : c'.mState = c.mState)
    (hnext : c'.mNextTimeout = c.mNextTimeout) (hfuzz : c'.mFuzzNextTimeout = c.mFuzzNextTimeout)
    (hsent : visitTransmissions c'.history = visitTransmissions c.history)
    (hplace : ∀ timeout, c'.place = .poll timeout → ∃ before, c.place = .poll before) :
    BacksOff c' where
  base hsends := by rw [hnext, hsent, h.base (hstate ▸ hsends)]
  fuzz hno := hstate.trans (h.fuzz (hfuzz.symm.trans hno))
  waits timeout hpoll hsends := by
    obtain ⟨before, hbefore⟩ := hplace timeout hpoll
    rw [hsent]
    exact h.waits before hbefore (hstate ▸ hsends)
  limited hstates := by
    rw [hsent]
    exact h.limited (hstate ▸ hstates)

/-- A transmission and the wait after it. -/
theorem BacksOff.send (h : BacksOff c) (hsends : c.mState.Retransmits) (message : Message)
    (hlimit : c.mState = .requesting ∨ c.mState = .rebinding → c.mNextTimeout < kMaxTimeout)
    (a : Answers) : BacksOff ((c.sendMessage message).increaseTimeout.beginWait a) where
  base _ := increaseTimeout_backoff (h.base hsends)
  fuzz hno := h.fuzz hno
  waits _ _ _ := Nat.succ_pos _
  limited hstates := by
    have hlt := hlimit hstates
    have hfew := (kMaxTimeout_le_backoff_iff (visitTransmissions c.history)).mpr.mt
    rw [h.base hsends] at hlt
    exact Nat.lt_of_not_le (hfew (Nat.not_le_of_lt hlt))

theorem BacksOff.move (h : BacksOff c) (hexchanges : c.Exchanges) (hmove : Moves c a c') :
    BacksOff c' := by
  cases hmove with
  | leaves => exact backsOff_entered rfl rfl rfl rfl
  | discovers hplace hstate =>
      refine h.send (by rw [hstate]; decide) _ (fun hstates => ?_) a
      rw [hstate] at hstates
      exact absurd hstates (by decide)
  | @requests destination hplace hasks =>
      obtain ⟨offer, server, -, -, -, -, -, hsend⟩ := hexchanges.sends_request hasks
      rw [hsend]
      refine h.send hasks.state.retransmits _ (fun hstates => ?_) a
      cases hasks with
      | requesting hstate hlimit => exact hlimit
      | renewing hstate =>
          rw [hstate] at hstates
          exact absurd hstates (by decide)
      | rebinding hstate hlimit => exact hlimit
  | rests hplace hstate hearly =>
      have hnone : ¬ c.mState.Retransmits := by
        rw [hstate]
        decide
      constructor
      · exact fun hsends => absurd hsends hnone
      · exact fun _ => hstate
      · exact fun _ _ hsends => absurd hsends hnone
      · exact h.limited
  | timesOut => exact h.stay rfl rfl rfl rfl (fun _ => nofun)
  | pollFails hplace => exact h.stay rfl rfl rfl rfl (fun _ _ => ⟨_, hplace⟩)
  | ignores hplace => exact h.stay rfl rfl rfl rfl (fun _ _ => ⟨_, hplace⟩)
  | offered => exact backsOff_entered rfl rfl rfl rfl
  | bound => exact backsOff_entered rfl rfl rfl rfl
  | misconfigured hplace _ _ _ _ hconfigure =>
      obtain ⟨info, t1, t2, host, rfl, -⟩ := configureDhcp_false hconfigure
      exact h.stay rfl rfl rfl rfl (fun _ _ => ⟨_, hplace⟩)
  | denied => exact backsOff_entered rfl rfl rfl rfl

/-- `calculateTimeoutMillis` on a base timeout. -/
theorem calculateTimeoutMillis_backoff (h : c.mNextTimeout = backoff (k + 1))
    (hfuzz : c.mFuzzNextTimeout = true) (z : { z : Int // -kTimeoutSpan ≤ z ∧ z ≤ kTimeoutSpan }) :
    ¬ (z.val < 0 ∧ (-z.val).toNat > c.mNextTimeout) ∧
      (c.calculateTimeoutMillis z : Int) = c.mNextTimeout + z := by
  obtain ⟨z, hlow, hhigh⟩ := z
  have hmin : kInitialTimeout ≤ c.mNextTimeout := h ▸ kInitialTimeout_le_backoff k
  have hmax : c.mNextTimeout ≤ kMaxTimeout := h ▸ backoff_le_kMaxTimeout (k + 1)
  rw [kTimeoutSpan] at hlow hhigh
  rw [kInitialTimeout] at hmin
  rw [kMaxTimeout] at hmax
  have hno : ¬ (z < 0 ∧ (-z).toNat > c.mNextTimeout) := by omega
  refine ⟨hno, ?_⟩
  have hsum : (c.mNextTimeout + z).toNat < 2 ^ 32 := by omega
  have hnonneg : 0 ≤ c.mNextTimeout + z := by omega
  rw [calculateTimeoutMillis, hfuzz, if_neg (by decide), if_neg hno, Nat.mod_eq_of_lt hsum]
  exact Int.toNat_of_nonneg hnonneg

theorem beginWait_fuzzes (hfuzz : c'.mFuzzNextTimeout = true)
    (h : c'.mNextTimeout = backoff (k + 1)) : Fuzzes c a (c'.beginWait a) := by
  obtain ⟨hno, hsum⟩ := calculateTimeoutMillis_backoff h hfuzz a.adjustment
  have hnext : c'.mNextTimeout ≠ kNoTimeout := by
    have hmin := kInitialTimeout_le_backoff k
    rw [← h, kInitialTimeout] at hmin
    rw [kNoTimeout]
    omega
  have harmed : ∀ timeout, (c'.beginWait a).place = .poll timeout →
      (timeout : Int) = c'.mNextTimeout + a.adjustment := by
    intro timeout hpoll
    simp only [beginWait, if_neg hnext] at hpoll
    obtain rfl := Place.poll.inj hpoll
    exact hsum
  have hspan := a.adjustment.property
  constructor
  · exact fun timeout _ hpoll _ => harmed timeout hpoll
  · intro timeout _ hpoll _
    have hthis := harmed timeout hpoll
    simp only [beginWait]
    omega
  · exact fun _ _ _ _ => hno

theorem fuzzes_of_place (h : ∀ timeout, c.place = .evaluate → c'.place ≠ .poll timeout) :
    Fuzzes c a c' where
  armed timeout hplace hpoll := absurd hpoll (h timeout hplace)
  within timeout hplace hpoll := absurd hpoll (h timeout hplace)
  noUnderflow timeout hplace hpoll := absurd hpoll (h timeout hplace)

theorem fuzzes_of_poll {timeout : Nat} (hplace : c.place = .poll timeout) : Fuzzes c a c' :=
  fuzzes_of_place fun _ hevaluate => absurd hevaluate (polls_not_evaluate hplace)

/-- Only in the state `Bound` the timeout is not fuzzed. -/
theorem BacksOff.fuzz_of_retransmits (h : BacksOff c) (hsends : c.mState.Retransmits) :
    c.mFuzzNextTimeout = true := by
  by_contra hno
  have hbound := h.fuzz (Bool.eq_false_iff.mpr hno)
  rw [hbound] at hsends
  exact absurd hsends (by decide)

theorem BacksOff.fuzzes (h : BacksOff c) (hexchanges : c.Exchanges) (hmove : Moves c a c') :
    Fuzzes c a c' := by
  cases hmove with
  | leaves => exact fuzzes_of_place fun _ _ => nofun
  | discovers hplace hstate =>
      have hsends : c.mState.Retransmits := by
        rw [hstate]
        decide
      exact beginWait_fuzzes (h.fuzz_of_retransmits hsends)
        (increaseTimeout_backoff (h.base hsends))
  | @requests destination hplace hasks =>
      obtain ⟨offer, server, -, -, -, -, -, hsend⟩ := hexchanges.sends_request hasks
      have hsends := hasks.state.retransmits
      rw [hsend]
      exact beginWait_fuzzes (h.fuzz_of_retransmits hsends)
        (increaseTimeout_backoff (h.base hsends))
  | rests hplace hstate hearly =>
      have hnone : ¬ c.mState.Retransmits := by
        rw [hstate]
        decide
      constructor
      · exact fun _ _ _ hsends => absurd hsends hnone
      · exact fun _ _ _ hsends => absurd hsends hnone
      · exact fun _ _ _ => nofun
  | timesOut hplace => exact fuzzes_of_poll hplace
  | pollFails hplace => exact fuzzes_of_poll hplace
  | ignores hplace => exact fuzzes_of_poll hplace
  | offered hplace => exact fuzzes_of_poll hplace
  | bound hplace => exact fuzzes_of_poll hplace
  | misconfigured hplace => exact fuzzes_of_poll hplace
  | denied hplace => exact fuzzes_of_poll hplace

theorem fresh_backsOff (options : UInt32) (macAddress : Mac) (host : Host) :
    BacksOff (fresh options macAddress host) := by
  constructor
  · exact fun hsends => absurd rfl hsends
  · exact nofun
  · exact fun _ => nofun
  · exact fun _ => Nat.zero_le 5

/-- In every state of every run the base timeout is that of the transmissions of
the visit, and every wait that starts next is within the span around it. -/
theorem after_backsOff (options : UInt32) (macAddress : Mac) (host : Host)
    (answers : List Answers) (a : Answers) :
    BacksOff (after options macAddress host answers) ∧
      Fuzzes (after options macAddress host answers) a
        ((after options macAddress host answers).step a) := by
  have hstep : ∀ (c : Client) a, c.Exchanges ∧ c.BacksOff →
      (c.step a).Exchanges ∧ (c.step a).BacksOff :=
    fun c a h => ⟨h.1.move (step_moves c a), h.2.move h.1 (step_moves c a)⟩
  obtain ⟨hexchanges, hbacksOff⟩ := run_invariant hstep
    ⟨fresh_exchanges options macAddress host, fresh_backsOff options macAddress host⟩ answers
  exact ⟨hbacksOff, hbacksOff.fuzzes hexchanges (step_moves _ a)⟩

end Client

end AndroidX86Tv.Dhcp
