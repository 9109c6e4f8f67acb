import AndroidX86Tv.Dhcp.Transition

/-!
# Transaction ids

A process numbers its messages from one on, and the id of a message is nothing
but its number in the order of the network.
-/

namespace AndroidX86Tv.Dhcp

open ByteMemory EventHistory

/-- The messages sent, the first one first. -/
def sentMessages : List Event → List Message
  | [] => []
  | .sent _ message _ :: past => sentMessages past ++ [message]
  | _ :: past => sentMessages past

/-- The id of a message by its number. -/
def idOf (number : Nat) : UInt32 := swap32 (UInt32.ofNat number)

theorem idOf_eq_iff (m n : Nat) : idOf m = idOf n ↔ m % 2 ^ 32 = n % 2 ^ 32 := by
  constructor
  · intro h
    have hnat := congrArg UInt32.toNat (swap32_injective h)
    rwa [UInt32.toNat_ofNat', UInt32.toNat_ofNat'] at hnat
  · intro h
    rw [idOf, idOf]
    apply congrArg swap32
    apply UInt32.toNat_inj.mp
    rw [UInt32.toNat_ofNat', UInt32.toNat_ofNat', h]

namespace Client

/-- The ids so far and the one to come are the numbers of the messages. -/
structure Numbers (c : Client) : Prop where
  next : c.sNextTransactionId = UInt32.ofNat ((sentMessages c.history).length + 1)
  last : c.mLastMsg.xid = idOf (sentMessages c.history).length
  sent : ∀ n message, (sentMessages c.history)[n]? = some message → message.xid = idOf (n + 1)

theorem fresh_numbers (options : UInt32) (macAddress : Mac) (host : Host) :
    Numbers (fresh options macAddress host) where
  next := rfl
  last := show Message.empty.xid = idOf 0 by decide
  sent n message h := absurd h (by simp [fresh, sentMessages])

variable {c c' : Client} {a : Answers}

theorem Numbers.send (h : Numbers c) {message : Message}
    (hxid : message.xid = swap32 c.sNextTransactionId) : Numbers (c.sendMessage message) := by
  have hid : message.xid = idOf ((sentMessages c.history).length + 1) := by
    rw [hxid, h.next, idOf]
  have hlength : (sentMessages (c.sendMessage message).history).length =
      (sentMessages c.history).length + 1 := List.length_append
  constructor
  · calc c.sNextTransactionId + 1
        = UInt32.ofNat ((sentMessages c.history).length + 1) + UInt32.ofNat 1 := by
          rw [h.next]
          rfl
      _ = UInt32.ofNat ((sentMessages c.history).length + 1 + 1) := (UInt32.ofNat_add _ 1).symm
      _ = UInt32.ofNat ((sentMessages (c.sendMessage message).history).length + 1) := by
          rw [hlength]
  · rw [hlength]
    exact hid
  · intro n old hold
    cases Nat.lt_or_ge n (sentMessages c.history).length with
    | inl hlt => exact h.sent n old ((List.getElem?_append_left hlt).symm.trans hold)
    | inr hge =>
        have hlast : [message][n - (sentMessages c.history).length]? = some old :=
          (List.getElem?_append_right hge).symm.trans hold
        obtain ⟨hzero, rfl⟩ := List.getElem?_eq_some_iff.mp hlast
        have hn : n = (sentMessages c.history).length := by
          rw [List.length_singleton] at hzero
          omega
        simpa [hn] using hid

theorem Numbers.move (h : Numbers c) (hmove : Moves c a c') : Numbers c' := by
  cases hmove with
  | leaves => exact ⟨h.next, h.last, h.sent⟩
  | discovers =>
      have hsent := h.send (Message.discover_xid c.macAddress c.sNextTransactionId)
      exact ⟨hsent.next, hsent.last, hsent.sent⟩
  | @requests destination =>
      rcases sendDhcpRequest_cases c destination with ⟨requestAddress, server, hsend⟩ | hnone
      · have hsent := h.send (Message.request_xid c.macAddress c.sNextTransactionId requestAddress
          server)
        rw [hsend]
        exact ⟨hsent.next, hsent.last, hsent.sent⟩
      · rw [hnone]
        exact ⟨h.next, h.last, h.sent⟩
  | rests => exact ⟨h.next, h.last, h.sent⟩
  | timesOut => exact ⟨h.next, h.last, h.sent⟩
  | pollFails => exact ⟨h.next, h.last, h.sent⟩
  | ignores => exact ⟨h.next, h.last, h.sent⟩
  | offered => exact ⟨h.next, h.last, h.sent⟩
  | bound _ _ _ _ _ hconfigure =>
      obtain ⟨info, host, -, -, -, rfl⟩ := configureDhcp_true hconfigure
      exact ⟨h.next, h.last, h.sent⟩
  | misconfigured _ _ _ _ _ hconfigure =>
      obtain ⟨info, t1, t2, host, rfl, -⟩ := configureDhcp_false hconfigure
      exact ⟨h.next, h.last, h.sent⟩
  | denied => exact ⟨h.next, h.last, h.sent⟩

/-- A message that the client does not take for its own has no effect. -/
theorem Moves.ignored_foreign {timeout : Nat} {message : Message} (hmove : Moves c a c')
    (hplace : c.place = .poll timeout) (hpoll : a.poll = .readable (some message))
    (hforeign : ¬ (message.xid = c.mLastMsg.xid ∧ c.Awaits message)) :
    c' = (c.reads (some message)).pollAgain timeout a := by
  refine hmove.ignored hplace hpoll fun msg hreceived hawaits => ?_
  obtain ⟨hmsg, -⟩ := Option.filter_eq_some_iff.mp hreceived
  obtain rfl := Option.some.inj hmsg
  exact hforeign ⟨receiveDhcpMessage_xid hreceived, hawaits⟩

end Client

end AndroidX86Tv.Dhcp
