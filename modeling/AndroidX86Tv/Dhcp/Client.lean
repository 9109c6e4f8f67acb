import Mathlib.Algebra.Group.Nat.Defs
import AndroidX86Tv.Dhcp.Interface
import AndroidX86Tv.Lib.History

/-!
# The DHCP client (client/dhcpclient.cpp, client/timer.cpp)

`step` is one evaluation of `mState` in `run()`, or one pass of the loop in
`waitAndReceive`. Everything the client learns from outside comes in as the
`Answers` of the step. The client also keeps a history of what it did, the
latest first, which no function reads.

## Implementation notes

A member that the constructor leaves uninitialised is none until it is written;
reading it then is the event `uninitialised`, and nothing else is modelled of
such a read. Times are in milliseconds.
-/

namespace AndroidX86Tv.Dhcp

open EventHistory

def kInitialTimeout : Nat := 4000
def kMaxTimeout : Nat := 64000
def kNoTimeout : Nat := 0
def kTimeoutSpan : Int := 1000

def inaddrBroadcast : InAddr := 0xffffffff

/-- `ClientOption::NoGateway`. -/
def noGateway : UInt32 := 1

/-- `DhcpClient::State`. -/
inductive State where
  | init
  | selecting
  | requesting
  | bound
  | renewing
  | rebinding
  deriving DecidableEq

/-- `Timer`, by its `mExpires`. -/
structure Timer where
  mExpires : Nat

namespace Timer

def expireSeconds (now seconds : Nat) : Timer := ⟨(now + seconds * 1000) % 2 ^ 64⟩

def expired (timer : Timer) (now : Nat) : Bool := now ≥ timer.mExpires

def remainingMillis (timer : Timer) (current : Nat) : Nat :=
  if current > timer.mExpires then 0 else timer.mExpires - current

end Timer

/-- What the client does, as far as it can be observed or told apart. -/
inductive Event where
  | entered (old new : State)
  /-- A message is sent in the state, with the interface up or not. -/
  | sent (state : State) (message : Message) (up : Bool)
  /-- Something is read in the state after `mLastMsg` was sent; a message if
  `receiveDhcpMessage` takes it for one. -/
  | read (state : State) (lastMsg : Message) (message : Option Message)
  /-- `configureDhcp` succeeds, with its timers armed at this time. -/
  | configured (ack : Message) (info : DhcpInfo) (time : Nat)
  | halted
  | uninitialised

/-- What `ppoll` and then `receiveRawUdp` return; none for a packet that is not
for the port of the client. -/
inductive Poll where
  | timeout
  | error
  | readable (packet : Option Message)

/-- The outside world during one step. -/
structure Answers where
  /-- The clock when `mState` is evaluated, and when the rest of T1 is taken. -/
  now : Nat
  nowRemaining : Nat
  /-- What `mRandomDistribution` returns. -/
  adjustment : { z : Int // -kTimeoutSpan ≤ z ∧ z ≤ kTimeoutSpan }
  startedAt : Nat
  poll : Poll
  /-- The clock when T1 and T2 are armed. -/
  nowT1 : Nat
  nowT2 : Nat
  calls : SystemCalls
  currentTime : Nat

/-- Where the client is: about to evaluate `mState`, or about to poll. -/
inductive Place where
  | evaluate
  | poll (timeout : Nat)
  deriving DecidableEq

structure Client where
  mOptions : UInt32
  macAddress : Mac
  mDhcpInfo : Option DhcpInfo
  mLastMsg : Message
  mT1 : Timer
  mT2 : Timer
  mState : State
  mNextTimeout : Nat
  mFuzzNextTimeout : Bool
  mRequestAddress : Option InAddr
  mServerAddress : Option InAddr
  sNextTransactionId : UInt32
  host : Host
  place : Place
  history : List Event

namespace Client

/-- A newly constructed client after a successful `init`, which brings the
interface up and asks for the address 0.0.0.0. -/
def fresh (options : UInt32) (macAddress : Mac) (host : Host) : Client where
  mOptions := options
  macAddress := macAddress
  mDhcpInfo := none
  mLastMsg := Message.empty
  mT1 := ⟨0⟩
  mT2 := ⟨0⟩
  mState := .init
  mNextTimeout := kInitialTimeout
  mFuzzNextTimeout := true
  mRequestAddress := none
  mServerAddress := none
  sNextTransactionId := 1
  host := { host.withAddress 0 0 with up := true }
  place := .evaluate
  history := []

def note (c : Client) (e : Event) : Client := { c with history := e :: c.history }

def setNextState (c : Client) (state : State) : Client :=
  { c with
    mState := state
    mNextTimeout := kNoTimeout
    mFuzzNextTimeout := true
    history := .entered c.mState state :: c.history }

def increaseTimeout (c : Client) : Client :=
  { c with
    mNextTimeout :=
      if c.mNextTimeout = kNoTimeout then kInitialTimeout
      else
        let doubled := if c.mNextTimeout < kMaxTimeout then c.mNextTimeout * 2 else c.mNextTimeout
        if doubled > kMaxTimeout then kMaxTimeout else doubled }

def calculateTimeoutMillis (c : Client) (adjustment : Int) : Nat :=
  if c.mFuzzNextTimeout = false then c.mNextTimeout
  else if adjustment < 0 ∧ (-adjustment).toNat > c.mNextTimeout then 0
  else (c.mNextTimeout + adjustment).toNat % 2 ^ 32

/-- `sendMessage` for a message that has just become `mLastMsg`. -/
def sendMessage (c : Client) (message : Message) : Client :=
  { c with
    mLastMsg := message
    sNextTransactionId := c.sNextTransactionId + 1
    history := .sent c.mState message c.host.up :: c.history }

def sendDhcpDiscover (c : Client) : Client :=
  c.sendMessage (Message.discover c.macAddress c.sNextTransactionId)

def sendDhcpRequest (c : Client) (destination : Option InAddr) : Client :=
  match c.mRequestAddress, destination with
  | some requestAddress, some destination =>
      c.sendMessage
        (Message.request c.macAddress requestAddress destination c.sNextTransactionId)
  | _, _ => c.note .uninitialised

/-- A spurious wake-up in `Bound`. -/
def awaitT1 (c : Client) (current : Nat) : Client :=
  { c with
    mNextTimeout := c.mT1.remainingMillis current % 2 ^ 32
    mFuzzNextTimeout := false }

/-- The `switch` of `run()`. -/
def evaluate (c : Client) (a : Answers) : Client :=
  match c.mState with
  | .init => c.setNextState .selecting
  | .selecting => c.sendDhcpDiscover.increaseTimeout
  | .requesting =>
      if c.mNextTimeout ≥ kMaxTimeout then c.setNextState .init
      else (c.sendDhcpRequest c.mServerAddress).increaseTimeout
  | .bound =>
      if c.mT1.expired a.now then c.setNextState .renewing
      else c.awaitT1 a.nowRemaining
  | .renewing =>
      if c.mT2.expired a.now then c.setNextState .rebinding
      else (c.sendDhcpRequest c.mServerAddress).increaseTimeout
  | .rebinding =>
      if c.mNextTimeout ≥ kMaxTimeout then c.setNextState .init
      else (c.sendDhcpRequest (some inaddrBroadcast)).increaseTimeout

/-- The start of `waitAndReceive`. -/
def beginWait (c : Client) (a : Answers) : Client :=
  { c with
    place :=
      if c.mNextTimeout = kNoTimeout then .evaluate
      else .poll (c.calculateTimeoutMillis a.adjustment) }

/-- The T1 and T2 of the lease, estimated where the ACK does not give them. -/
def t1Seconds (info : DhcpInfo) : UInt32 := if info.t1 > 0 then info.t1 else info.leaseTime / 2

def t2Seconds (info : DhcpInfo) : UInt32 :=
  if info.t2 > 0 then info.t2 else info.leaseTime * 7 / 8

/-- The timers and the lease as `configureDhcp` sets them. -/
def arm (c : Client) (info : DhcpInfo) (a : Answers) : Client :=
  { c with
    mDhcpInfo := some info
    mT1 := Timer.expireSeconds a.nowT1 (t1Seconds info).toNat
    mT2 := Timer.expireSeconds a.nowT2 (t2Seconds info).toNat }

def configureDhcp (c : Client) (msg : Message) (a : Answers) : Bool × Client :=
  match msg.readOptions c.mDhcpInfo with
  | (false, info) => (false, { c with mDhcpInfo := info })
  | (true, none) => (false, c.note .uninitialised)
  | (true, some info) =>
      if info.leaseTime = 0 then (false, { c with mDhcpInfo := some info })
      else
        let c := c.arm info a
        match c.host.configure info (c.mOptions &&& noGateway ≠ 0) a.calls with
        | (.configured, host) =>
            (true, { c with host := host, history := .configured msg info a.nowT1 :: c.history })
        | (_, host) => (false, { c with host := host })

def haltNetwork (c : Client) (a : Answers) : Client :=
  { c with host := c.host.halt a.calls, history := .halted :: c.history }

/-- The part of `receiveDhcpMessage` behind `receiveRawUdp`. -/
def receiveDhcpMessage (c : Client) (packet : Option Message) : Option Message :=
  packet.filter (·.isValidDhcpMessage opBootReply c.mLastMsg.xid)

def takeOffer (c : Client) (msg : Message) : Client :=
  { c with
    mServerAddress := some msg.serverId
    mRequestAddress := some msg.yiaddr }

/-- A DHCP message in one of the states that have sent a REQUEST. -/
def handleAnswer (c : Client) (msg : Message) (a : Answers) : Bool × Client :=
  if msg.type = dhcpAck then
    match c.configureDhcp msg a with
    | (true, c) => (true, c.setNextState .bound)
    | (false, c) => (false, c)
  else if msg.type = dhcpNak then (true, (c.haltNetwork a).setNextState .init)
  else (false, c)

/-- What `waitAndReceive` does with a DHCP message; true if it returns then. -/
def handle (c : Client) (msg : Message) (a : Answers) : Bool × Client :=
  match c.mState with
  | .selecting =>
      if msg.type = dhcpOffer then
        (true, (c.takeOffer msg).setNextState .requesting)
      else (false, c)
  | .requesting | .renewing | .rebinding => c.handleAnswer msg a
  | .init | .bound => (false, c)

/-- The end of a pass: wait for the time that remains, if any. -/
def pollAgain (c : Client) (timeout : Nat) (a : Answers) : Client :=
  let finish := (a.startedAt + timeout) % 2 ^ 64
  { c with
    place :=
      if a.currentTime ≥ finish then .evaluate
      else .poll ((finish - a.currentTime) % 2 ^ 32) }

/-- Return to the caller, or go on to the end of the pass. -/
def conclude (timeout : Nat) (a : Answers) : Bool × Client → Client
  | (true, c) => { c with place := .evaluate }
  | (false, c) => c.pollAgain timeout a

/-- One pass of the loop in `waitAndReceive`. -/
def pass (c : Client) (timeout : Nat) (a : Answers) : Client :=
  match a.poll with
  | .timeout => { c with place := .evaluate }
  | .error => c.pollAgain timeout a
  | .readable packet =>
      let received := c.receiveDhcpMessage packet
      let c := c.note (.read c.mState c.mLastMsg received)
      match received with
      | none => c.pollAgain timeout a
      | some msg => conclude timeout a (c.handle msg a)

def step (c : Client) (a : Answers) : Client :=
  match c.place with
  | .evaluate => (c.evaluate a).beginWait a
  | .poll timeout => c.pass timeout a

/-- The client after the steps, from a successful `init` on. -/
def after (options : UInt32) (macAddress : Mac) (host : Host) (answers : List Answers) : Client :=
  run step (fresh options macAddress host) answers

end Client

/-- System calls that all succeed. -/
def allCallsWork : SystemCalls where
  getFlags := true
  setFlags := true
  setMtu := true
  setGw := true
  setDns _ := true
  newAddress := .done
  sendRoute := true
  takeRoute := true

namespace Answers

/-- A step at one instant in which nothing is received and nothing fails. -/
def quiet (time : Nat) : Answers where
  now := time
  nowRemaining := time
  adjustment := ⟨0, by decide⟩
  startedAt := time
  poll := .timeout
  nowT1 := time
  nowT2 := time
  calls := allCallsWork
  currentTime := time

def receives (time : Nat) (message : Message) : Answers :=
  { quiet time with poll := .readable (some message) }

theorem quiet_works (time : Nat) : (quiet time).calls.InterfaceWorks := ⟨rfl, rfl, rfl, rfl⟩

theorem receives_works (time : Nat) (message : Message) :
    (receives time message).calls.InterfaceWorks := ⟨rfl, rfl, rfl, rfl⟩

end Answers

/-- A host before the client runs. -/
def bareHost : Host where
  kernel := linuxKernel
  up := false
  mtu := 1500
  addresses := []
  defaultRoutes := []
  properties := ⟨none, fun _ => none⟩

end AndroidX86Tv.Dhcp
