import AndroidX86Tv.Lib.Fields

/-!
# DHCP messages (dhcp_recovery/common/message.cpp)

A message is the memory from `dhcpData` on together with `mSize`. The struct
`Message::Dhcp` has `op`, `htype`, `hlen`, `hops` at 0 to 3, `xid` at 4,
`flags` at 10, `yiaddr` at 16, `giaddr` at 24, `chaddr` at 28 and `options` at
236; it ends at 1260. The host is little-endian.

## Implementation notes

Addresses past 1260 are memory behind the struct. A reader that trusts a length
found in the message can get there, so these bytes are part of the model and
nothing is assumed about them for a received message.
-/

namespace AndroidX86Tv.Dhcp

open ByteMemory CodeFields

def opBootRequest : UInt8 := 1
def opBootReply : UInt8 := 2
def flagsBroadcast : UInt16 := 0x8000
def htypeEther : UInt8 := 1
def ethAlen : UInt8 := 6

def optPad : UInt8 := 0
def optSubnetMask : UInt8 := 1
def optGateway : UInt8 := 3
def optDns : UInt8 := 6
def optMtu : UInt8 := 26
def optBroadcastAddr : UInt8 := 28
def optRequestedIp : UInt8 := 50
def optLeaseTime : UInt8 := 51
def optMessageType : UInt8 := 53
def optServerId : UInt8 := 54
def optParameterList : UInt8 := 55
def optT1 : UInt8 := 58
def optT2 : UInt8 := 59
def optEnd : UInt8 := 255

def dhcpDiscover : UInt8 := 1
def dhcpOffer : UInt8 := 2
def dhcpRequest : UInt8 := 3
def dhcpAck : UInt8 := 5
def dhcpNak : UInt8 := 6

theorem dhcpNak_ne_dhcpAck : dhcpNak ≠ dhcpAck := by decide

/-- `OPT_COOKIE1` to `OPT_COOKIE4`. -/
def cookie : List UInt8 := [0x63, 0x82, 0x53, 0x63]

def kDefaultLeaseTime : UInt32 := 10 * 60

def kRequestParameters : List UInt8 :=
  [optSubnetMask, optGateway, optDns, optBroadcastAddr, optLeaseTime, optT1, optT2, optMtu]

/-- `in_addr_t`, in the byte order of the network as it lies in memory. -/
abbrev InAddr := UInt32

abbrev Mac := Vector UInt8 6

/-- `offsetof(Dhcp, options)`, kept folded so that sizes are compared symbolically. -/
@[irreducible] def offsetOptions : Nat := 236

theorem offsetOptions_eq : offsetOptions = 236 := by
  unfold offsetOptions
  rfl

structure Message where
  dhcpData : Memory
  mSize : Nat

namespace Message

def op (m : Message) : UInt8 := m.dhcpData 0
def htype (m : Message) : UInt8 := m.dhcpData 1
def hlen (m : Message) : UInt8 := m.dhcpData 2
def xid (m : Message) : UInt32 := load32 m.dhcpData 4
def flags (m : Message) : UInt16 := load16 m.dhcpData 10
def yiaddr (m : Message) : InAddr := load32 m.dhcpData 16
def giaddr (m : Message) : InAddr := load32 m.dhcpData 24
def chaddr (m : Message) : Mac := Vector.ofFn fun k => m.dhcpData (28 + k)

/-- `dhcpData.options[i]`. -/
def option (m : Message) (i : Nat) : UInt8 := m.dhcpData (offsetOptions + i)

def setXid (m : Message) (v : UInt32) : Message :=
  { m with dhcpData := store m.dhcpData 4 (bytes32 v) }

def setFlags (m : Message) (v : UInt16) : Message :=
  { m with dhcpData := store m.dhcpData 10 (bytes16 v) }

def setYiaddr (m : Message) (v : InAddr) : Message :=
  { m with dhcpData := store m.dhcpData 16 (bytes32 v) }

def setGiaddr (m : Message) (v : InAddr) : Message :=
  { m with dhcpData := store m.dhcpData 24 (bytes32 v) }

/-- `Message::Message()`. -/
def empty : Message := ⟨fun _ => 0, 0⟩

/-- The private constructor; the last argument is the value it takes from
`sNextTransactionId`. -/
def create (operation : UInt8) (macAddress : Mac) (type : UInt8) (transactionId : UInt32) :
    Message :=
  let header := store (fun _ => 0) 0 [operation, htypeEther, ethAlen, 0]
  let flagged := store header 10 (bytes16 (swap16 flagsBroadcast))
  let numbered := store flagged 4 (bytes32 (swap32 transactionId))
  let addressed := store numbered 28 macAddress.toList
  ⟨store addressed offsetOptions (cookie ++ [optMessageType, 1, type]), offsetOptions + 7⟩

/-- `addOption(type, data, size)`; `nextOption` points to the end of the message. -/
def addOption (m : Message) (type : UInt8) (data : List UInt8) (size : UInt8) : Message :=
  let opts := type :: size :: data.take size.toNat
  ⟨store m.dhcpData m.mSize opts, m.mSize + opts.length⟩

/-- `addOption` for a value or an array, whose size the compiler knows to fit. -/
def addOptionOf (m : Message) (type : UInt8) (data : List UInt8) : Message :=
  m.addOption type data (UInt8.ofNat data.length)

def endOptions (m : Message) : Message :=
  ⟨store m.dhcpData m.mSize [optEnd], m.mSize + 1⟩

def discover (sourceMac : Mac) (transactionId : UInt32) : Message :=
  ((create opBootRequest sourceMac dhcpDiscover transactionId).addOptionOf
    optParameterList kRequestParameters).endOptions

def request (sourceMac : Mac) (requestAddress serverAddress : InAddr) (transactionId : UInt32) :
    Message :=
  let message := create opBootRequest sourceMac dhcpRequest transactionId
  let message := message.addOptionOf optParameterList kRequestParameters
  let message := message.addOptionOf optRequestedIp (bytes32 requestAddress)
  let message := message.addOptionOf optServerId (bytes32 serverAddress)
  message.endOptions

/-- The common body of `offer` and `ack`. -/
def grant (type : UInt8) (sourceMessage : Message)
    (serverAddress offeredAddress offeredNetmask offeredGateway : InAddr)
    (offeredDnsServers : List InAddr) (transactionId : UInt32) : Message :=
  let message := create opBootReply sourceMessage.chaddr type transactionId
  let message := message.setXid sourceMessage.xid
  let message := message.setFlags sourceMessage.flags
  let message := message.setYiaddr offeredAddress
  let message := message.setGiaddr sourceMessage.giaddr
  let message := message.addOptionOf optServerId (bytes32 serverAddress)
  let message := message.addOptionOf optLeaseTime (bytes32 kDefaultLeaseTime)
  let message := message.addOptionOf optSubnetMask (bytes32 offeredNetmask)
  let message := message.addOptionOf optGateway (bytes32 offeredGateway)
  let message := message.addOption optDns (offeredDnsServers.flatMap bytes32)
    (UInt8.ofNat (offeredDnsServers.length * 4))
  message.endOptions

def offer := grant dhcpOffer

def ack := grant dhcpAck

def nack (sourceMessage : Message) (serverAddress : InAddr) (transactionId : UInt32) : Message :=
  let message := create opBootReply sourceMessage.chaddr dhcpNak transactionId
  let message := message.setXid sourceMessage.xid
  let message := message.setFlags sourceMessage.flags
  let message := message.setGiaddr sourceMessage.giaddr
  let message := message.addOptionOf optServerId (bytes32 serverAddress)
  message.endOptions

/-- `isValidDhcpMessage(expectedOp)`. -/
def isValidDhcpOp (m : Message) (expectedOp : UInt8) : Bool :=
  if offsetOptions + 4 > m.mSize then false
  else if m.op ≠ expectedOp then false
  else if m.htype ≠ htypeEther then false
  else if m.hlen ≠ ethAlen then false
  else decide ([m.option 0, m.option 1, m.option 2, m.option 3] = cookie)

/-- `isValidDhcpMessage(expectedOp, expectedXid)`. -/
def isValidDhcpMessage (m : Message) (expectedOp : UInt8) (expectedXid : UInt32) : Bool :=
  m.isValidDhcpOp expectedOp && decide (m.xid = expectedXid)

/-- The other message has the same size and the same bytes up to its end. -/
structure Agrees (m m' : Message) : Prop where
  size : m'.mSize = m.mSize
  data : ∀ p < m.mSize, m'.dhcpData p = m.dhcpData p

/-- `sizeof(dhcpData)`. -/
def capacity : Nat := 1260

/-- Zero where the message ends before its options. -/
def optionsSize (m : Message) : Nat := m.mSize - offsetOptions

/-- The loop of `getOption`, entered with its index. -/
def getOptionFrom (m : Message) (expectedOptCode : UInt8) (i : Nat) : Option (Nat × UInt8) :=
  if i + 2 < m.optionsSize then
    if m.option i = optEnd then none
    else if m.option i = expectedOptCode then some (i + 2, m.option (i + 1))
    else getOptionFrom m expectedOptCode (i + 2 + (m.option (i + 1)).toNat)
  else none
termination_by m.optionsSize - i

/-- The index of the value in the options, and its length. -/
def getOption (m : Message) (expectedOptCode : UInt8) : Option (Nat × UInt8) :=
  m.getOptionFrom expectedOptCode 4

def type (m : Message) : UInt8 :=
  match m.getOption optMessageType with
  | some (opt, length) => if length = 1 then m.option opt else 0
  | none => 0

/-- The common body of `serverId` and `requestedIp`. -/
def addressOption (m : Message) (code : UInt8) : InAddr :=
  match m.getOption code with
  | some (opt, length) => if length = 4 then load32 m.dhcpData (offsetOptions + opt) else 0
  | none => 0

def serverId (m : Message) : InAddr := m.addressOption optServerId

def requestedIp (m : Message) : InAddr := m.addressOption optRequestedIp

end Message

end AndroidX86Tv.Dhcp
