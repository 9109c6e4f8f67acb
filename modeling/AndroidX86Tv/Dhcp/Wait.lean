import Mathlib.Algebra.Ring.Int.Defs
import Mathlib.Algebra.Ring.Nat
import AndroidX86Tv.Dhcp.BoundWait

/-!
# How long waitAndReceive waits

Each pass of the loop takes its deadline anew, from the clock before its poll
and what was left of the timeout. Over passes that go on, the timeout left is
the one of the start less the time measured between the two readings of each
pass.

## Implementation notes

The kernel keeps the monotonic clock as a signed 64-bit number of nanoseconds.
-/

namespace AndroidX86Tv.Dhcp

open EventHistory

/-- A value of `CLOCK_MONOTONIC`. -/
structure MonotonicTime where
  nanoseconds : Nat
  fits : nanoseconds < 2 ^ 63

namespace MonotonicTime

def tvSec (time : MonotonicTime) : Nat := time.nanoseconds / 1000000000

def tvNsec (time : MonotonicTime) : Nat := time.nanoseconds % 1000000000

end MonotonicTime

/-- `now()` of timer.cpp. -/
def now (time : MonotonicTime) : Nat :=
  (time.tvSec * 1000 % 2 ^ 64 + time.tvNsec / 1000000) % 2 ^ 64

theorem now_eq (time : MonotonicTime) : now time = time.nanoseconds / 1000000 := by
  have hfits := time.fits
  simp only [now, MonotonicTime.tvSec, MonotonicTime.tvNsec]
  omega

/-- A reading is far below what a deadline would have to reach to wrap around. -/
theorem now_lt (time : MonotonicTime) : now time < 2 ^ 44 := by
  have hfits := time.fits
  rw [now_eq]
  omega

/-- `struct timespec`, as `ppoll` takes it. -/
structure Timespec where
  tvSec : Int
  tvNsec : Int

/-- A result of arithmetic in the type `long`. -/
def long (z : Int) : Int := z.bmod (2 ^ 64)

theorem long_eq {z : Int} (hlow : 0 ≤ z) (hhigh : z < 2 ^ 63) : long z = z := by
  simp only [long, Int.bmod]
  omega

/-- The `ts` of `waitAndReceive`. -/
def pollTimespec (timeout : Nat) : Timespec :=
  let tvSec : Int := (timeout / 1000 : Nat)
  { tvSec := tvSec
    tvNsec := long (long (timeout - long (tvSec * 1000)) * 1000000) }

/-- The time is that many milliseconds, in the form that `ppoll` asks for. -/
structure Timespec.Encodes (ts : Timespec) (timeout : Nat) : Prop where
  exact : ts.tvSec * 1000000000 + ts.tvNsec = timeout * 1000000
  sec_nonneg : 0 ≤ ts.tvSec
  nsec_nonneg : 0 ≤ ts.tvNsec
  nsec_lt : ts.tvNsec < 1000000000

theorem pollTimespec_encodes {timeout : Nat} (hshort : timeout < 2 ^ 32) :
    (pollTimespec timeout).Encodes timeout := by
  have hsec : long (((timeout / 1000 : Nat) : Int) * 1000) = (timeout / 1000 : Nat) * 1000 :=
    long_eq (by omega) (by omega)
  have hrest : long ((timeout : Int) - (timeout / 1000 : Nat) * 1000) =
      timeout - (timeout / 1000 : Nat) * 1000 :=
    long_eq (by omega) (by omega)
  have hnsec : (pollTimespec timeout).tvNsec =
      (timeout - (timeout / 1000 : Nat) * 1000) * 1000000 := by
    simp only [pollTimespec, hsec, hrest]
    exact long_eq (by omega) (by omega)
  constructor
  · rw [hnsec]
    simp only [pollTimespec]
    omega
  · simp only [pollTimespec]
    omega
  · rw [hnsec]
    omega
  · rw [hnsec]
    omega

namespace Client

/-- What the passes measure: the time between the two readings of each. -/
def measured (passes : List Answers) : Nat :=
  (passes.map fun a => a.currentTime - a.startedAt).sum

@[simp] theorem measured_nil : measured [] = 0 := rfl

@[simp] theorem measured_cons (a : Answers) (passes : List Answers) :
    measured (a :: passes) = a.currentTime - a.startedAt + measured passes := rfl

/-- The time between the passes, which none of them measures. -/
def gaps : List Answers → Nat
  | a :: b :: passes => b.startedAt - a.currentTime + gaps (b :: passes)
  | _ => 0

/-- The readings of the clock by the loop, in their order. -/
def readings (passes : List Answers) : List Nat :=
  passes.flatMap fun a => [a.startedAt, a.currentTime]

/-- The passes read a clock that never goes back. -/
structure Clocked (passes : List Answers) : Prop where
  isNow : ∀ reading ∈ readings passes, ∃ time, reading = now time
  nondecreasing : (readings passes).Pairwise (· ≤ ·)

/-- No pass but the last completes the timeout. -/
def Unspent (timeout : Nat) (passes : List Answers) : Prop :=
  ∀ k, 0 < k → k < passes.length → measured (passes.take k) < timeout

/-- Where a wait of this timeout is after the time measured. -/
def placeAfter (timeout spent : Nat) : Place :=
  if timeout ≤ spent then .evaluate else .poll (timeout - spent)

/-- A pass with this timeout leaves the rest of it to the next. -/
structure Rebases (timeout : Nat) (a : Answers) (rest : Nat) : Prop where
  positive : 0 < rest
  le_timeout : rest ≤ timeout
  fits : rest < 2 ^ 32
  /-- The deadline has not wrapped around. -/
  deadline_fits : a.startedAt + timeout < 2 ^ 64
  /-- Nothing is lost of the difference. -/
  exact : a.currentTime + rest = a.startedAt + timeout

/-- The passes of one call of `waitAndReceive`, from a client about to make the
first of them. -/
structure Lasts (c : Client) (timeout : Nat) (passes : List Answers) : Prop where
  begins : c.place = .poll timeout
  fits : timeout < 2 ^ 32
  /-- Every pass polls for its timeout and hands on what remains. -/
  rebases : AllSteps step (fun c a => ∃ timeout, c.place = .poll timeout ∧
    (pollTimespec timeout).Encodes timeout ∧
      ∀ rest, (c.step a).place = .poll rest → Rebases timeout a rest) c passes
  /-- The call returns on the pass that completes the timeout. -/
  ends : passes ≠ [] → (run step c passes).place = placeAfter timeout (measured passes)
  /-- Nothing but the time between the passes is added to the wait. -/
  elapsed : ∀ first last, passes.head? = some first → passes.getLast? = some last →
    last.currentTime = first.startedAt + measured passes + gaps passes

variable {c c' : Client} {a b : Answers} {passes : List Answers} {timeout : Nat}

theorem Clocked.tail (hclock : Clocked (a :: passes)) : Clocked passes := by
  constructor
  · intro reading hreading
    exact hclock.isNow reading (List.mem_cons_of_mem _ (List.mem_cons_of_mem _ hreading))
  · exact (List.pairwise_cons.mp (List.pairwise_cons.mp hclock.nondecreasing).2).2

theorem Clocked.pass_le (hclock : Clocked (a :: passes)) : a.startedAt ≤ a.currentTime :=
  (List.pairwise_cons.mp hclock.nondecreasing).1 _ List.mem_cons_self

theorem Clocked.gap_le (hclock : Clocked (a :: b :: passes)) : a.currentTime ≤ b.startedAt :=
  (List.pairwise_cons.mp (List.pairwise_cons.mp hclock.nondecreasing).2).1 _ List.mem_cons_self

theorem Clocked.startedAt_lt (hclock : Clocked (a :: passes)) : a.startedAt < 2 ^ 44 := by
  obtain ⟨time, htime⟩ := hclock.isNow a.startedAt List.mem_cons_self
  rw [htime]
  exact now_lt time

theorem unspent_cons : Unspent timeout (a :: b :: passes) ↔
    a.currentTime - a.startedAt < timeout ∧
      Unspent (timeout - (a.currentTime - a.startedAt)) (b :: passes) := by
  constructor
  · intro hunspent
    constructor
    · exact hunspent 1 (by decide) (by simp)
    · intro k hk hlt
      have hmore := hunspent (k + 1) (by omega) (by simpa using hlt)
      rw [List.take_succ_cons, measured_cons] at hmore
      omega
  · rintro ⟨hfirst, hrest⟩ (_ | _ | k) hk hlt
    · exact absurd hk (by decide)
    · exact hfirst
    · have hmore := hrest (k + 1) (by omega) (by simpa using hlt)
      rw [List.take_succ_cons, measured_cons]
      omega

theorem placeAfter_sub {spent more : Nat} (hspent : spent < timeout) :
    placeAfter (timeout - spent) more = placeAfter timeout (spent + more) := by
  by_cases hdone : timeout ≤ spent + more
  · rw [placeAfter, placeAfter, if_pos (by omega), if_pos hdone]
  · rw [placeAfter, placeAfter, if_neg (by omega), if_neg hdone, Nat.sub_sub]

theorem elapsed_eq (hclock : Clocked passes) {first last : Answers}
    (hfirst : passes.head? = some first) (hlast : passes.getLast? = some last) :
    last.currentTime = first.startedAt + measured passes + gaps passes := by
  induction passes generalizing first with
  | nil => exact absurd hfirst nofun
  | cons a passes ih =>
      obtain rfl : a = first := Option.some.inj hfirst
      have hpass := hclock.pass_le
      cases passes with
      | nil =>
          obtain rfl : a = last := Option.some.inj hlast
          simp only [measured_cons, measured_nil, gaps]
          omega
      | cons b passes =>
          have hgap := hclock.gap_le
          have hrest := ih hclock.tail rfl hlast
          rw [hrest, measured_cons a, gaps]
          omega

/-- The end of a pass, with a clock that is far from wrapping around. -/
theorem pollAgain_place (hshort : timeout < 2 ^ 32) (hclock : Clocked (a :: passes)) :
    (c.pollAgain timeout a).place = placeAfter timeout (a.currentTime - a.startedAt) := by
  have hlt := hclock.startedAt_lt
  have hle := hclock.pass_le
  have hfinish : (a.startedAt + timeout) % 2 ^ 64 = a.startedAt + timeout :=
    Nat.mod_eq_of_lt (by omega)
  simp only [pollAgain, placeAfter, hfinish]
  by_cases hdone : timeout ≤ a.currentTime - a.startedAt
  · rw [if_pos (by omega), if_pos hdone]
  · rw [if_neg (by omega), if_neg hdone, Nat.mod_eq_of_lt (by omega)]
    congr 1
    omega

/-- A pass that neither times out nor changes the state goes to its end. -/
theorem Moves.place_pollAgain (hmove : Moves c a c') (hplace : c.place = .poll timeout)
    (hpoll : a.poll ≠ .timeout) (hstate : c'.mState = c.mState) :
    c'.place = (c.pollAgain timeout a).place := by
  have hpolls := polls_not_evaluate hplace
  cases hmove with
  | leaves hevaluate => exact absurd hevaluate hpolls
  | discovers hevaluate => exact absurd hevaluate hpolls
  | requests hevaluate => exact absurd hevaluate hpolls
  | rests hevaluate => exact absurd hevaluate hpolls
  | timesOut _ htimeout => exact absurd htimeout hpoll
  | pollFails hplace' =>
      obtain rfl := Place.poll.inj (hplace'.symm.trans hplace)
      rfl
  | ignores hplace' =>
      obtain rfl := Place.poll.inj (hplace'.symm.trans hplace)
      rfl
  | offered _ _ _ hselecting =>
      have hsame : State.requesting = .selecting := hstate.trans hselecting
      exact absurd hsame (by decide)
  | bound _ _ _ hrequests => exact absurd hstate.symm hrequests.ne_bound
  | misconfigured hplace' =>
      obtain rfl := Place.poll.inj (hplace'.symm.trans hplace)
      rfl
  | denied _ _ _ hrequests => exact absurd hstate.symm hrequests.ne_init

/-- What one pass that goes on does to the wait. -/
theorem step_place (hplace : c.place = .poll timeout) (hshort : timeout < 2 ^ 32)
    (hclock : Clocked (a :: passes)) (hpoll : a.poll ≠ .timeout)
    (hstate : (c.step a).mState = c.mState) :
    (c.step a).place = placeAfter timeout (a.currentTime - a.startedAt) := by
  rw [(step_moves c a).place_pollAgain hplace hpoll hstate]
  exact pollAgain_place hshort hclock

theorem rebases_of_placeAfter (hshort : timeout < 2 ^ 32) (hclock : Clocked (a :: passes))
    {rest : Nat} (hrest : placeAfter timeout (a.currentTime - a.startedAt) = .poll rest) :
    Rebases timeout a rest := by
  have hlt := hclock.startedAt_lt
  have hle := hclock.pass_le
  simp only [placeAfter] at hrest
  split_ifs at hrest with hdone
  obtain rfl := Place.poll.inj hrest
  constructor
  · omega
  · omega
  · omega
  · omega
  · omega

/-- The first of several passes leaves a wait that is a wait for the rest. -/
theorem lasts_cons (hplace : c.place = .poll timeout) (hshort : timeout < 2 ^ 32)
    (hclock : Clocked (a :: b :: passes)) (hunspent : Unspent timeout (a :: b :: passes))
    (hpass : (c.step a).place = placeAfter timeout (a.currentTime - a.startedAt))
    (hrest : Lasts (c.step a) (timeout - (a.currentTime - a.startedAt)) (b :: passes)) :
    Lasts c timeout (a :: b :: passes) := by
  constructor
  · exact hplace
  · exact hshort
  · constructor
    · exact ⟨timeout, hplace, pollTimespec_encodes hshort, fun rest hpoll =>
        rebases_of_placeAfter hshort hclock (hpass.symm.trans hpoll)⟩
    · exact hrest.rebases
  · intro _
    rw [run_cons, hrest.ends (by simp), placeAfter_sub (unspent_cons.mp hunspent).1,
      measured_cons a]
  · exact fun _ _ => elapsed_eq hclock

/-- The passes of a wait, by induction on them with the timeout that is left. -/
theorem lasts_of_poll (hplace : c.place = .poll timeout) (hshort : timeout < 2 ^ 32)
    (hclock : Clocked passes) (hpoll : ∀ a ∈ passes, a.poll ≠ .timeout)
    (hstate : AllSteps step (fun c a => (c.step a).mState = c.mState) c passes)
    (hunspent : Unspent timeout passes) : Lasts c timeout passes := by
  induction passes generalizing c timeout with
  | nil => exact ⟨hplace, hshort, trivial, fun hne => absurd rfl hne, fun _ _ => nofun⟩
  | cons a passes ih =>
      have hpass := step_place hplace hshort hclock (hpoll a List.mem_cons_self) hstate.1
      cases passes with
      | nil =>
          refine ⟨hplace, hshort, ⟨⟨timeout, hplace, pollTimespec_encodes hshort, ?_⟩, trivial⟩,
            fun _ => hpass, fun _ _ => elapsed_eq hclock⟩
          exact fun rest hrest => rebases_of_placeAfter hshort hclock (hpass.symm.trans hrest)
      | cons b passes =>
          obtain ⟨hfirst, hrest⟩ := unspent_cons.mp hunspent
          have hplace' : (c.step a).place = .poll (timeout - (a.currentTime - a.startedAt)) := by
            rw [hpass, placeAfter, if_neg (by omega)]
          apply lasts_cons hplace hshort hclock hunspent hpass
          exact ih hplace' (by omega) hclock.tail (fun a ha => hpoll a (List.mem_cons_of_mem _ ha))
            hstate.2 hrest

/-- The loop comes to the last of the passes only if none before it completes the
timeout. -/
theorem unspent_of_polls (hplace : c.place = .poll timeout) (hshort : timeout < 2 ^ 32)
    (hclock : Clocked passes) (hpoll : ∀ a ∈ passes, a.poll ≠ .timeout)
    (hstate : AllSteps step (fun c a => (c.step a).mState = c.mState) c passes)
    (hpolls : AllSteps step (fun c _ => c.place ≠ .evaluate) c passes) :
    Unspent timeout passes := by
  induction passes generalizing c timeout with
  | nil => exact fun k _ hlt => absurd hlt (Nat.not_lt_zero k)
  | cons a passes ih =>
      have hpass := step_place hplace hshort hclock (hpoll a List.mem_cons_self) hstate.1
      cases passes with
      | nil =>
          intro k hk hlt
          exact absurd hlt (by simp only [List.length_singleton]; omega)
      | cons b passes =>
          have hfirst : a.currentTime - a.startedAt < timeout := by
            by_contra hspent
            rw [placeAfter, if_pos (by omega)] at hpass
            exact hpolls.2.1 hpass
          have hplace' : (c.step a).place = .poll (timeout - (a.currentTime - a.startedAt)) := by
            rw [hpass, placeAfter, if_neg (by omega)]
          have hrest := ih hplace' (by omega) hclock.tail
            (fun a ha => hpoll a (List.mem_cons_of_mem _ ha)) hstate.2 hpolls.2
          exact unspent_cons.mpr ⟨hfirst, hrest⟩

theorem calculateTimeoutMillis_lt (hfits : c.mNextTimeout < 2 ^ 32) (adjustment : Int) :
    c.calculateTimeoutMillis adjustment < 2 ^ 32 := by
  simp only [calculateTimeoutMillis]
  split_ifs
  · exact hfits
  · decide
  · exact Nat.mod_lt _ (by decide)

/-- A call of `waitAndReceive` whose polls do not time out and whose messages
change no state makes a pass exactly if none before it has completed the
timeout, and it returns on the pass that does. -/
theorem waitAndReceive_lasts (c : Client) (call : Answers) {passes : List Answers}
    (harmed : c.mNextTimeout ≠ kNoTimeout) (hfits : c.mNextTimeout < 2 ^ 32)
    (hclock : Clocked passes) (hpoll : ∀ a ∈ passes, a.poll ≠ .timeout)
    (hstate : AllSteps step (fun c a => (c.step a).mState = c.mState) (c.beginWait call) passes) :
    (AllSteps step (fun c _ => c.place ≠ .evaluate) (c.beginWait call) passes ↔
        Unspent (c.calculateTimeoutMillis call.adjustment) passes) ∧
      (Unspent (c.calculateTimeoutMillis call.adjustment) passes →
        Lasts (c.beginWait call) (c.calculateTimeoutMillis call.adjustment) passes) := by
  have hplace : (c.beginWait call).place = .poll (c.calculateTimeoutMillis call.adjustment) := by
    rw [beginWait, if_neg harmed]
  have hshort := calculateTimeoutMillis_lt hfits call.adjustment
  have hlasts := lasts_of_poll hplace hshort hclock hpoll hstate
  refine ⟨⟨unspent_of_polls hplace hshort hclock hpoll hstate, fun hunspent => ?_⟩, hlasts⟩
  refine (hlasts hunspent).rebases.mono fun c a hrebases => ?_
  obtain ⟨timeout, hpolls, -⟩ := hrebases
  exact polls_not_evaluate hpolls

/-- A client that has just sent its first DISCOVER is woken by three packets of no
interest, the last of them past its deadline. -/
def floodedWait : List Answers :=
  [{ Answers.quiet 1000 with poll := .readable none, currentTime := 2500 },
    { Answers.quiet 2500 with poll := .error, currentTime := 4999 },
    { Answers.quiet 5000 with poll := .readable none, currentTime := 5001 }]

theorem floodedWait_clocked : Clocked floodedWait := by
  constructor
  · intro reading hreading
    have hsmall : reading ≤ 5001 := by
      revert reading
      decide
    refine ⟨⟨reading * 1000000, by omega⟩, ?_⟩
    rw [now_eq, Nat.mul_div_cancel _ (by decide)]
  · decide

/-- The client once it has sent the DISCOVER, about to wait. -/
def discovering : Client := ((fresh 0 deviceMac bareHost).setNextState .selecting).sendDhcpDiscover

theorem floodedWait_lasts :
    Lasts ((increaseTimeout discovering).beginWait (.quiet 1000)) 4000 floodedWait := by
  have hunspent : Unspent 4000 floodedWait := by
    intro k hk hlt
    have hcases : k = 1 ∨ k = 2 := by
      simp only [floodedWait, List.length_cons, List.length_nil] at hlt
      omega
    rcases hcases with rfl | rfl
    · decide
    · decide
  exact (waitAndReceive_lasts (increaseTimeout discovering) (.quiet 1000) (by decide) (by decide)
    floodedWait_clocked (by simp [floodedWait]) (by decide)).2 hunspent

end Client

end AndroidX86Tv.Dhcp
