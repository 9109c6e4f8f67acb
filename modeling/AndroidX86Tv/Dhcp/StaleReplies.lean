import AndroidX86Tv.Dhcp.TwoClients

/-!
# Replies to old messages

Every transmission has an id of its own, also in the same state, so a reply that
the network has delayed or repeated is told apart from the one that is awaited.
-/

namespace AndroidX86Tv.Dhcp

open ByteMemory EventHistory

namespace Client

variable {c : Client} {source : Message} {n : Nat}

/-- While the counter has not come round, ids tell the messages of a client apart. -/
theorem Numbers.xid_ne_last (h : Numbers c) (hfew : (sentMessages c.history).length < 2 ^ 32)
    (hsource : (sentMessages c.history)[n]? = some source)
    (hearlier : n + 1 ≠ (sentMessages c.history).length) : source.xid ≠ c.mLastMsg.xid := by
  have hn : n < (sentMessages c.history).length := (List.getElem?_eq_some_iff.mp hsource).1
  rw [h.sent n source hsource, h.last]
  intro hsame
  have hmod := (idOf_eq_iff _ _).mp hsame
  rw [Nat.mod_eq_of_lt (Nat.lt_of_le_of_lt hn hfew), Nat.mod_eq_of_lt hfew] at hmod
  exact hearlier hmod

/-- A reply to one of the messages sent so far changes nothing but the record of
what was read, unless it replies to the last of them. -/
def TakesLatestOnly (c : Client) (a : Answers) : Prop :=
  ∀ timeout message, c.place = .poll timeout → a.poll = .readable (some message) →
    ∀ n source, (sentMessages c.history)[n]? = some source → RepliesTo source message →
      n + 1 ≠ (sentMessages c.history).length →
        c.step a = (c.reads (some message)).pollAgain timeout a

/-- Along every run, whatever the network delays, repeats or drops: while fewer than
2^32 messages have been sent, only a reply to the last of them has an effect. -/
theorem takesLatestOnly (options : UInt32) (macAddress : Mac) (host : Host)
    (answers : List Answers) :
    AllSteps step (fun c a => (sentMessages c.history).length < 2 ^ 32 → c.TakesLatestOnly a)
      (fresh options macAddress host) answers := by
  refine allSteps_of_invariant (fun c a (hnumbers : Numbers c) _ hfew => ?_)
    (fun c a h _ => h.move (step_moves c a)) (fresh_numbers options macAddress host)
    (fun _ _ => trivial)
  intro timeout message hplace hpoll n source hsource hreplies hearlier
  refine (step_moves c a).ignored_foreign hplace hpoll fun ⟨hxid, _⟩ => ?_
  exact hnumbers.xid_ne_last hfew hsource hearlier (hreplies.xid.symm.trans hxid)

/-- The first DISCOVER is sent again after four seconds; then the OFFER that was
made for it is of no use. -/
example : (after 0 deviceMac bareHost [.quiet 0, .quiet 0, .quiet 4000, .quiet 4000,
    .receives 4001 Segment.offerToFirst]).mState = .selecting := by
  decide +kernel

end Client

end AndroidX86Tv.Dhcp
