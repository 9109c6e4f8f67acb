import AndroidX86Tv.Dhcp.Reply
import AndroidX86Tv.Dhcp.TransactionId

/-!
# Two clients on one segment

Each client is a process of its own with its own transaction ids. A reply
reaches both clients, and all that tells whose it is in `isValidDhcpMessage` is
the id. So it is taken for an answer to whichever message of the reader has the
same number.
-/

namespace AndroidX86Tv.Dhcp

open ByteMemory EventHistory

/-- The message is a reply of a server to the source. -/
inductive RepliesTo (source : Message) : Message → Prop where
  | offer (serverAddress offeredAddress offeredNetmask offeredGateway : InAddr)
      (dns : List InAddr) (transactionId : UInt32) :
      RepliesTo source (Message.offer source serverAddress offeredAddress offeredNetmask
        offeredGateway dns transactionId)
  | ack (serverAddress offeredAddress offeredNetmask offeredGateway : InAddr)
      (dns : List InAddr) (transactionId : UInt32) :
      RepliesTo source (Message.ack source serverAddress offeredAddress offeredNetmask
        offeredGateway dns transactionId)
  | nack (serverAddress : InAddr) (transactionId : UInt32) :
      RepliesTo source (Message.nack source serverAddress transactionId)

section

variable {source message : Message}

theorem RepliesTo.xid (h : RepliesTo source message) : message.xid = source.xid := by
  cases h with
  | offer => apply Message.grant_xid
  | ack => apply Message.grant_xid
  | nack => apply Message.nack_xid

theorem RepliesTo.valid (h : RepliesTo source message) :
    message.isValidDhcpMessage opBootReply source.xid = true := by
  cases h with
  | offer => apply Message.grant_valid
  | ack => apply Message.grant_valid
  | nack => apply Message.nack_valid

/-- An ACK of a server has a lease that can be read. -/
theorem RepliesTo.readOptions (h : RepliesTo source message) (htype : message.type = dhcpAck)
    (old : Option DhcpInfo) :
    ∃ info, message.readOptions old = (true, some info) ∧ info.leaseTime ≠ 0 := by
  cases h with
  | offer =>
      have hoffer : dhcpOffer = dhcpAck := (Message.grant_type _ _ _ _ _ _ _).symm.trans htype
      exact absurd hoffer (by decide)
  | ack =>
      refine ⟨_, Message.grant_readOptions _ _ _ _ _ _ _ old, ?_⟩
      have hlease : swap32 (load32 (ofBytes (bytes32 kDefaultLeaseTime)) 0) ≠ 0 := by decide
      exact hlease
  | nack =>
      exact absurd ((Message.nack_type _ _ _).symm.trans htype) dhcpNak_ne_dhcpAck

end

namespace Client

variable {c c' : Client} {a : Answers} {message source : Message}

/-- A message that the client does not take for its own changes nothing. -/
theorem Moves.unchanged (hmove : Moves c a c') (hplace : c.place ≠ .evaluate)
    (hpoll : a.poll = .readable (some message))
    (hforeign : ¬ (message.xid = c.mLastMsg.xid ∧ c.Awaits message)) :
    c'.mState = c.mState ∧ c'.host = c.host := by
  cases htimeout : c.place with
  | evaluate => exact absurd htimeout hplace
  | poll timeout =>
      rw [hmove.ignored_foreign htimeout hpoll hforeign]
      exact ⟨rfl, rfl⟩

/-- Where all calls succeed, the ACK of a server is configured. -/
theorem configureDhcp_reply (hreply : RepliesTo source message) (htype : message.type = dhcpAck)
    (hworks : a.calls.InterfaceWorks) (hroute : a.calls.sendRoute = true) :
    c.configureDhcp message a ≠ (false, c') := by
  intro hconfigure
  obtain ⟨read, hread, hlease⟩ := hreply.readOptions htype c.mDhcpInfo
  have hends := configureDhcp_configures c message a
  rw [hconfigure] at hends
  cases hends with
  | rejected hrejected =>
      exact absurd (congrArg Prod.fst (hread.symm.trans hrejected)) Bool.noConfusion
  | noLease hread' hzero =>
      obtain ⟨-, rfl⟩ := Message.readOptions_unique hread hread'
      exact hlease hzero
  | stopped _ _ hhost hexit =>
      obtain ⟨hcases, -⟩ := Host.configure_works hworks hhost
      have hgateway := hcases.resolve_left hexit
      have hsend := ((Host.configure_noGateway_iff hworks hhost).mp hgateway).2
      exact absurd (hroute.symm.trans hsend) (by decide)

/-- Where all calls succeed, a reply that the client takes for its own makes it
leave its state. -/
theorem Moves.disturbed (hmove : Moves c a c') (hreply : RepliesTo source message)
    (hplace : c.place ≠ .evaluate) (hpoll : a.poll = .readable (some message))
    (hxid : source.xid = c.mLastMsg.xid) (hawaits : c.Awaits message)
    (hworks : a.calls.InterfaceWorks) (hroute : a.calls.sendRoute = true) :
    c'.mState ≠ c.mState := by
  have hreceived : c.receiveDhcpMessage (some message) = some message :=
    Option.filter_eq_some_iff.mpr ⟨rfl, hxid ▸ hreply.valid⟩
  cases hmove with
  | leaves hevaluate => exact absurd hevaluate hplace
  | discovers hevaluate => exact absurd hevaluate hplace
  | requests hevaluate => exact absurd hevaluate hplace
  | rests hevaluate => exact absurd hevaluate hplace
  | timesOut _ htimeout => exact absurd (hpoll.symm.trans htimeout) nofun
  | pollFails _ herror => exact absurd (hpoll.symm.trans herror) nofun
  | ignores _ hpacket hignored =>
      obtain rfl := packet_unique hpoll hpacket
      exact absurd hawaits (hignored message hreceived)
  | offered _ _ _ hstate =>
      rw [hstate]
      exact State.noConfusion
  | bound _ _ _ hstate => exact hstate.ne_bound.symm
  | misconfigured _ hpacket hreceived' hstate htype hconfigure =>
      obtain rfl := packet_unique hpoll hpacket
      obtain rfl := Option.some.inj (hreceived.symm.trans hreceived')
      exact absurd hconfigure (configureDhcp_reply hreply htype hworks hroute)
  | denied _ _ _ hstate => exact hstate.ne_init.symm

end Client

/-- The two processes. -/
inductive Party where
  | first
  | second
  deriving DecidableEq

def Party.other : Party → Party
  | .first => .second
  | .second => .first

/-- The clients of the segment. -/
abbrev Segment := Party → Client

namespace Segment

def start (options : Party → UInt32) (mac : Party → Mac) (host : Party → Host) : Segment :=
  fun party => Client.fresh (options party) (mac party) (host party)

/-- One client takes a step. -/
def step (s : Segment) (turn : Party × Answers) : Segment := fun party =>
  if party = turn.1 then (s party).step turn.2 else s party

def sent (s : Segment) (party : Party) : List Message := sentMessages (s party).history

/-- The client whose turn it is reads this message. -/
def Reads (s : Segment) (turn : Party × Answers) (message : Message) : Prop :=
  (s turn.1).place ≠ .evaluate ∧ turn.2.poll = .readable (some message)

/-- Messages that are read are replies to something one of the clients has sent. -/
def FromServer (s : Segment) (turn : Party × Answers) : Prop :=
  ∀ message, s.Reads turn message → ∃ party, ∃ source ∈ s.sent party, RepliesTo source message

/-- A reply to the other client changes neither the state nor the host. -/
def Undisturbed (s : Segment) (turn : Party × Answers) : Prop :=
  ∀ message, s.Reads turn message → ∀ source ∈ s.sent turn.1.other, RepliesTo source message →
    (s.step turn turn.1).mState = (s turn.1).mState ∧
      (s.step turn turn.1).host = (s turn.1).host

/-- A reply to one of the messages of the other client is read by a client that
has sent just as many itself, up to the range of the counter, and awaits a
message of this type. -/
def NumbersMeet (s : Segment) (turn : Party × Answers) : Prop :=
  ∃ message n source, s.Reads turn message ∧ (s.sent turn.1.other)[n]? = some source ∧
    RepliesTo source message ∧ (n + 1) % 2 ^ 32 = (s.sent turn.1).length % 2 ^ 32 ∧
    (s turn.1).Awaits message

@[simp] theorem step_turn (s : Segment) (turn : Party × Answers) :
    s.step turn turn.1 = (s turn.1).step turn.2 := by
  rw [step, if_pos rfl]

/-- Both clients number their messages. -/
def Numbers (s : Segment) : Prop := ∀ party, Client.Numbers (s party)

theorem Numbers.step {s : Segment} (h : Numbers s) (turn : Party × Answers) :
    Numbers (s.step turn) := by
  intro party
  rw [Segment.step]
  split_ifs
  · exact (h party).move (Client.step_moves _ _)
  · exact h party

/-- Ids are equal just when the numbers are. -/
theorem Numbers.xid_eq_iff {s : Segment} (h : Numbers s) {reader other : Party} {n : Nat}
    {source : Message} (hsource : (s.sent other)[n]? = some source) :
    source.xid = (s reader).mLastMsg.xid ↔ (n + 1) % 2 ^ 32 = (s.sent reader).length % 2 ^ 32 := by
  rw [(h other).sent n source hsource, (h reader).last]
  apply idOf_eq_iff

theorem Numbers.undisturbed {s : Segment} (h : Numbers s) {turn : Party × Answers}
    (hapart : ¬ s.NumbersMeet turn) : s.Undisturbed turn := by
  intro message hreads source hsent hreplies
  obtain ⟨n, hsource⟩ := List.mem_iff_getElem?.mp hsent
  rw [step_turn]
  refine (Client.step_moves (s turn.1) turn.2).unchanged hreads.1 hreads.2 ?_
  rintro ⟨hxid, hawaits⟩
  have hnumber := (h.xid_eq_iff hsource).mp (hreplies.xid.symm.trans hxid)
  exact hapart ⟨message, n, source, hreads, hsource, hreplies, hnumber, hawaits⟩

theorem Numbers.not_meet {s : Segment} (h : Numbers s) {turn : Party × Answers}
    (hworks : turn.2.calls.InterfaceWorks ∧ turn.2.calls.sendRoute = true)
    (hundisturbed : s.Undisturbed turn) : ¬ s.NumbersMeet turn := by
  rintro ⟨message, n, source, hreads, hsource, hreplies, hnumber, hawaits⟩
  have hsent := List.mem_iff_getElem?.mpr ⟨n, hsource⟩
  have hstate := (hundisturbed message hreads source hsent hreplies).1
  rw [step_turn] at hstate
  exact (Client.step_moves (s turn.1) turn.2).disturbed hreplies hreads.1 hreads.2
    ((h.xid_eq_iff hsource).mpr hnumber) hawaits hworks.1 hworks.2 hstate

/-- In every interleaving, whatever else is read: while no reply is read by a
client that has sent as many messages as its number says and awaits its type, no
client is disturbed by a reply to the other one. Where the system calls succeed,
each such reply does disturb the client. -/
theorem undisturbed_of_numbers_apart (options : Party → UInt32) (mac : Party → Mac)
    (host : Party → Host) (turns : List (Party × Answers)) :
    (AllSteps step (fun s turn => ¬ s.NumbersMeet turn) (start options mac host) turns →
      AllSteps step Undisturbed (start options mac host) turns) ∧
    ((∀ turn ∈ turns, turn.2.calls.InterfaceWorks ∧ turn.2.calls.sendRoute = true) →
      AllSteps step Undisturbed (start options mac host) turns →
      AllSteps step (fun s turn => ¬ s.NumbersMeet turn) (start options mac host) turns) := by
  have hstart : Numbers (start options mac host) := fun party =>
    Client.fresh_numbers (options party) (mac party) (host party)
  constructor
  · intro hapart
    exact hapart.mono_of_inv (fun s turn h => h.step turn) (fun s turn h _ => h.undisturbed) hstart
      (fun _ _ => trivial)
  · intro hworks hundisturbed
    exact hundisturbed.mono_of_inv (fun s turn h => h.step turn)
      (fun s turn h hworks => h.not_meet hworks) hstart hworks

theorem reads_receives {s : Segment} {party : Party} {time : Nat} {message message' : Message}
    (h : s.Reads (party, Answers.receives time message) message') : message' = message :=
  Option.some.inj (Poll.readable.inj h.2.symm)

theorem not_reads_quiet {s : Segment} {party : Party} {time : Nat} {message : Message} :
    ¬ s.Reads (party, Answers.quiet time) message :=
  fun h => absurd h.2 nofun

theorem not_numbersMeet_quiet (s : Segment) (party : Party) (time : Nat) :
    ¬ s.NumbersMeet (party, Answers.quiet time) := by
  rintro ⟨message, -, -, hreads, -⟩
  exact not_reads_quiet hreads

theorem fromServer_quiet (s : Segment) (party : Party) (time : Nat) :
    s.FromServer (party, Answers.quiet time) :=
  fun _ hreads => absurd hreads not_reads_quiet

theorem fromServer_receives {s : Segment} {sender : Party} {source message : Message}
    (hsent : source ∈ s.sent sender) (hreplies : RepliesTo source message) (party : Party)
    (time : Nat) : s.FromServer (party, Answers.receives time message) := by
  intro message' hreads
  rw [reads_receives hreads]
  exact ⟨sender, source, hsent, hreplies⟩

/-- Two devices that differ in the last byte of the address. -/
def macs : Party → Mac
  | .first => deviceMac
  | .second => #v[0x52, 0x54, 0, 0x12, 0x34, 0x57]

/-- An OFFER for the first DISCOVER of the first device. -/
def offerToFirst : Message :=
  Message.offer aDiscover routerAddress deviceAddress networkMask routerAddress [] 1

theorem offerToFirst_replies : RepliesTo aDiscover offerToFirst := RepliesTo.offer _ _ _ _ _ _

/-- The second device has sent a second DISCOVER when it reads the OFFER. -/
theorem undisturbed_by_staggered_offer :
    AllSteps step Undisturbed (start (fun _ => 0) macs fun _ => bareHost)
      [(.first, Answers.quiet 0), (.first, Answers.quiet 0), (.second, Answers.quiet 0),
        (.second, Answers.quiet 0), (.second, Answers.quiet 4000), (.second, Answers.quiet 4000),
        (.second, Answers.receives 4100 offerToFirst)] := by
  apply (undisturbed_of_numbers_apart (fun _ => 0) macs (fun _ => bareHost) _).1
  refine ⟨not_numbersMeet_quiet _ _ _, not_numbersMeet_quiet _ _ _, not_numbersMeet_quiet _ _ _,
    not_numbersMeet_quiet _ _ _, not_numbersMeet_quiet _ _ _, not_numbersMeet_quiet _ _ _,
    ?_, trivial⟩
  rintro ⟨message, n, source, -, hsource, -, hnumber, -⟩
  have hn : n < 1 := (List.getElem?_eq_some_iff.mp hsource).1
  have htwo : (n + 1) % 2 ^ 32 = 2 % 2 ^ 32 := hnumber
  omega

/-- Both devices start together and number their DISCOVERs alike: the second one
takes the OFFER to the first for its own. -/
theorem offer_taken_by_other : ¬ ∀ (options : Party → UInt32) (mac : Party → Mac)
    (host : Party → Host) (turns : List (Party × Answers)), mac .first ≠ mac .second →
    AllSteps step FromServer (start options mac host) turns →
      AllSteps step Undisturbed (start options mac host) turns := by
  intro h
  have hsent : aDiscover ∈ [aDiscover] := List.mem_singleton_self _
  have hserver : AllSteps step FromServer (start (fun _ => 0) macs fun _ => bareHost)
      [(.first, Answers.quiet 0), (.first, Answers.quiet 0), (.second, Answers.quiet 0),
        (.second, Answers.quiet 0), (.second, Answers.receives 1 offerToFirst),
        (.first, Answers.receives 1 offerToFirst)] :=
    ⟨fromServer_quiet _ _ _, fromServer_quiet _ _ _, fromServer_quiet _ _ _,
      fromServer_quiet _ _ _, @fromServer_receives _ .first _ _ hsent offerToFirst_replies _ _,
      @fromServer_receives _ .first _ _ hsent offerToFirst_replies _ _, trivial⟩
  obtain ⟨-, -, -, -, hlast, -⟩ := h _ macs _ _ (by decide) hserver
  have hsame := hlast offerToFirst ⟨by decide +kernel, rfl⟩ aDiscover hsent offerToFirst_replies
  exact absurd hsame.1 (by decide +kernel)

end Segment

end AndroidX86Tv.Dhcp
