import AndroidX86Tv.Dhcp.DhcpInfo

/-!
# Server replies read by the client

`Message::offer` and `Message::ack` are read back field by field with the
functions the client uses. The lease time is the one value whose bytes the
encoder does not put into network order.
-/

namespace AndroidX86Tv.Dhcp

open ByteMemory CodeFields

/-- The DNS servers as an option, cut short where the size overflows. -/
def dnsField (dns : List InAddr) : Field where
  code := optDns
  value := (dns.flatMap bytes32).take (UInt8.ofNat (dns.length * 4)).toNat
  short := Nat.le_trans (List.length_take_le _ _) (Nat.le_of_lt_succ (UInt8.toNat_lt _))

theorem dnsField_value {dns : List InAddr} (h : dns.length ≤ 63) :
    (dnsField dns).value = dns.flatMap bytes32 := by
  apply List.take_of_length_le
  rw [length_words, UInt8.toNat_ofNat']
  omega

/-- The options of `offer` and `ack`, in their order. -/
def grantFields (type : UInt8) (serverAddress offeredNetmask offeredGateway : InAddr)
    (dns : List InAddr) : List Field :=
  [Message.byteField optMessageType type, Message.wordField optServerId serverAddress,
    Message.wordField optLeaseTime kDefaultLeaseTime,
    Message.wordField optSubnetMask offeredNetmask,
    Message.wordField optGateway offeredGateway, dnsField dns]

namespace Message

section

variable (type : UInt8) (source : Message)
  (serverAddress offeredAddress offeredNetmask offeredGateway : InAddr) {dns : List InAddr}
  (transactionId : UInt32)

theorem grant_carries :
    Carries (grant type source serverAddress offeredAddress offeredNetmask offeredGateway dns
      transactionId) (grantFields type serverAddress offeredNetmask offeredGateway dns)
      [optEnd] := by
  have hsize : (UInt8.ofNat (dns.length * 4)).toNat ≤ (dns.flatMap bytes32).length := by
    rw [length_words, UInt8.toNat_ofNat']
    omega
  have hheader := ((((create_carries opBootReply source.chaddr type transactionId).setXid
    source.xid).setFlags source.flags).setYiaddr offeredAddress).setGiaddr source.giaddr
  have hserver := addOptionOf_carries hheader optServerId (bytes32_short serverAddress)
  have hlease := addOptionOf_carries hserver optLeaseTime (bytes32_short kDefaultLeaseTime)
  have hmask := addOptionOf_carries hlease optSubnetMask (bytes32_short offeredNetmask)
  have hgateway := addOptionOf_carries hmask optGateway (bytes32_short offeredGateway)
  exact endOptions_carries (addOption_carries hgateway optDns hsize)

/-- What `create` and the assignments after it write in front of the options. -/
theorem grant_hasBytes {p : Nat} {bytes : List UInt8} (hp : p + bytes.length ≤ 28)
    (h : Holds (((((create opBootReply source.chaddr type transactionId).setXid
      source.xid).setFlags source.flags).setYiaddr offeredAddress).setGiaddr
      source.giaddr).dhcpData p bytes) :
    Holds (grant type source serverAddress offeredAddress offeredNetmask offeredGateway dns
      transactionId).dhcpData p bytes := by
  have hheader : HasBytes (((((create opBootReply source.chaddr type transactionId).setXid
      source.xid).setFlags source.flags).setYiaddr offeredAddress).setGiaddr
      source.giaddr) p bytes := by
    refine ⟨?_, h⟩
    simp only [setGiaddr, setYiaddr, setFlags, setXid, create, offsetOptions_eq]
    omega
  exact (((((hheader.addOptionOf _ _).addOptionOf _ _).addOptionOf _ _).addOptionOf _ _).addOption
    _ _ _).endOptions.holds

theorem grant_xid : (grant type source serverAddress offeredAddress offeredNetmask offeredGateway
    dns transactionId).xid = source.xid := by
  apply load32_of_holds
  apply grant_hasBytes
  · simp
  · exact (((holds_store _ _ _).store (by simp)).store (by simp)).store (by simp)

theorem grant_yiaddr : (grant type source serverAddress offeredAddress offeredNetmask
    offeredGateway dns transactionId).yiaddr = offeredAddress := by
  apply load32_of_holds
  apply grant_hasBytes
  · simp
  · exact (holds_store _ _ _).store (by simp)

theorem grant_start : Holds (grant type source serverAddress offeredAddress offeredNetmask
    offeredGateway dns transactionId).dhcpData 0 [opBootReply, htypeEther, ethAlen, 0] := by
  apply grant_hasBytes
  · simp
  · exact ((((((((holds_store _ _ _).store (by simp)).store (by simp)).store (by simp)).store
      (by simp [offsetOptions_eq])).store (by simp)).store (by simp)).store (by simp)).store
      (by simp)

/-- What `create` and the assignments after it write in front of a NAK's options. -/
theorem nack_hasBytes {p : Nat} {bytes : List UInt8} (hp : p + bytes.length ≤ 28)
    (h : Holds ((((create opBootReply source.chaddr dhcpNak transactionId).setXid
      source.xid).setFlags source.flags).setGiaddr source.giaddr).dhcpData p bytes) :
    Holds (nack source serverAddress transactionId).dhcpData p bytes := by
  have hheader : HasBytes ((((create opBootReply source.chaddr dhcpNak transactionId).setXid
      source.xid).setFlags source.flags).setGiaddr source.giaddr) p bytes := by
    refine ⟨?_, h⟩
    simp only [setGiaddr, setFlags, setXid, create, offsetOptions_eq]
    omega
  exact (hheader.addOptionOf _ _).endOptions.holds

theorem nack_xid : (nack source serverAddress transactionId).xid = source.xid := by
  apply load32_of_holds
  apply nack_hasBytes
  · simp
  · exact ((holds_store _ _ _).store (by simp)).store (by simp)

theorem nack_start : Holds (nack source serverAddress transactionId).dhcpData 0
    [opBootReply, htypeEther, ethAlen, 0] := by
  apply nack_hasBytes
  · simp
  · exact (((((((holds_store _ _ _).store (by simp)).store (by simp)).store (by simp)).store
      (by simp [offsetOptions_eq])).store (by simp)).store (by simp)).store (by simp)

theorem nack_carries : Carries (nack source serverAddress transactionId)
    [byteField optMessageType dhcpNak, wordField optServerId serverAddress] [optEnd] := by
  have hheader := (((create_carries opBootReply source.chaddr dhcpNak transactionId).setXid
    source.xid).setFlags source.flags).setGiaddr source.giaddr
  exact endOptions_carries (addOptionOf_carries hheader optServerId (bytes32_short serverAddress))

theorem nack_valid : (nack source serverAddress transactionId).isValidDhcpMessage opBootReply
    source.xid = true := by
  rw [← nack_xid source serverAddress transactionId]
  exact isValidDhcpMessage_of_carries (nack_carries source serverAddress transactionId)
    (nack_start source serverAddress transactionId)

theorem nack_type : (nack source serverAddress transactionId).type = dhcpNak := by
  apply type_of_finds
  exact getOption_end (nack_carries source serverAddress transactionId)
    (by simp [byteField, wordField, optMessageType, optServerId, optEnd]) optMessageType

theorem grant_valid : (grant type source serverAddress offeredAddress offeredNetmask
    offeredGateway dns transactionId).isValidDhcpMessage opBootReply source.xid = true := by
  rw [← grant_xid type source serverAddress offeredAddress offeredNetmask offeredGateway
    transactionId]
  exact isValidDhcpMessage_of_carries (grant_carries _ _ _ _ _ _ _) (grant_start _ _ _ _ _ _ _)

theorem grantFields_codes : ∀ f ∈ grantFields type serverAddress offeredNetmask offeredGateway dns,
    f.code ≠ optEnd := by
  simp [grantFields, byteField, wordField, dnsField, optMessageType, optServerId, optLeaseTime,
    optSubnetMask, optGateway, optDns, optEnd]

theorem grant_finds (c : UInt8) : Finds (grant type source serverAddress offeredAddress
      offeredNetmask offeredGateway dns transactionId)
    (lookup c (grantFields type serverAddress offeredNetmask offeredGateway dns))
    ((grant type source serverAddress offeredAddress offeredNetmask offeredGateway dns
      transactionId).getOption c) :=
  getOption_end (grant_carries _ _ _ _ _ _ _) (grantFields_codes _ _ _ _) c

theorem grant_type : (grant type source serverAddress offeredAddress offeredNetmask
    offeredGateway dns transactionId).type = type :=
  type_of_finds (grant_finds _ _ _ _ _ _ _ optMessageType)

/-- `configureDhcp` reads the fields of a grant, whatever it knew before. -/
theorem grant_readOptions (old : Option DhcpInfo) : (grant type source serverAddress offeredAddress
      offeredNetmask offeredGateway dns transactionId).readOptions old =
    (true, some { DhcpInfo.ofFields
      (grantFields type serverAddress offeredNetmask offeredGateway dns) with
        offeredAddress := offeredAddress }) := by
  have hnodup : ((grantFields type serverAddress offeredNetmask offeredGateway dns).map
      Field.code).Nodup := by
    simp only [grantFields, List.map_cons, List.map_nil, byteField, wordField, dnsField]
    decide
  rw [readOptions_end (grant_carries _ _ _ _ _ _ _) (grantFields_codes _ _ _ _) hnodup,
    grant_yiaddr]

end

end Message

/-- What the arguments of `offer` and `ack` say, as the client stores it. -/
def DhcpInfo.granted (serverAddress offeredAddress offeredNetmask offeredGateway : InAddr)
    (dns : List InAddr) : DhcpInfo where
  t1 := 0
  t2 := 0
  leaseTime := kDefaultLeaseTime
  mtu := 0
  dns k := dns.getD k 0
  gateway := offeredGateway
  subnetMask := offeredNetmask
  serverId := serverAddress
  offeredAddress := offeredAddress

/-- The client takes the message for a reply to the source of the type, and
reads the information out of it. -/
structure ReadsBack (m source : Message) (type : UInt8) (info : DhcpInfo) : Prop where
  valid : m.isValidDhcpMessage opBootReply source.xid = true
  type : m.type = type
  serverId : m.serverId = info.serverId
  options : ∀ old, m.readOptions old = (true, some info)

theorem ReadsBack.unique {m source : Message} {type : UInt8} {info info' : DhcpInfo}
    (h : ReadsBack m source type info) (h' : ReadsBack m source type info') : info = info' := by
  have heq := (h.options none).symm.trans (h'.options none)
  simpa using heq

/-- The lease time of a reply as the client reads it. -/
def DhcpInfo.misread (given : DhcpInfo) : DhcpInfo := { given with leaseTime := 0x58020000 }

/-- All but the lease time is read back as given, and the lease time is not. -/
structure LosesLeaseTime (m source : Message) (type : UInt8) (given : DhcpInfo) : Prop where
  readsBack : ReadsBack m source type given.misread
  loses : ¬ ReadsBack m source type given

/-- The four DNS members take the first four servers, zero for a missing one. -/
theorem read_dnsField {dns : List InAddr} (k : Nat) :
    (if decide ((dns.flatMap bytes32).length ≥ 4 * (k + 1)) then
      load32 (ofBytes (dns.flatMap bytes32)) (4 * k) else 0) = dns.getD k 0 := by
  rw [length_words, List.getD_eq_getElem?_getD]
  cases Nat.lt_or_ge k dns.length with
  | inl hk =>
      have hword := (holds_ofBytes (dns.flatMap bytes32)).load32_words hk
      rw [Nat.zero_add] at hword
      rw [if_pos (by rw [decide_eq_true_eq]; omega), hword, List.getElem?_eq_getElem hk,
        Option.getD_some]
  | inr hk =>
      rw [if_neg (by rw [decide_eq_true_eq]; omega), List.getElem?_eq_none hk, Option.getD_none]

section

variable (type : UInt8) (source : Message)
  (serverAddress offeredAddress offeredNetmask offeredGateway : InAddr) {dns : List InAddr}
  (transactionId : UInt32)

theorem swap32_kDefaultLeaseTime : swap32 kDefaultLeaseTime = 0x58020000 := by decide

theorem ofFields_grantFields (h : dns.length ≤ 63) :
    { DhcpInfo.ofFields (grantFields type serverAddress offeredNetmask offeredGateway dns) with
      offeredAddress := offeredAddress } =
    (DhcpInfo.granted serverAddress offeredAddress offeredNetmask offeredGateway dns).misread := by
  have hshort : (dns.flatMap bytes32).length ≤ 255 := dnsField_value h ▸ (dnsField dns).short
  have hdns : dnsField dns = ⟨optDns, dns.flatMap bytes32, hshort⟩ :=
    Field.ext rfl (dnsField_value h)
  rw [grantFields, hdns]
  apply DhcpInfo.ext
  · rfl
  · rfl
  · calc swap32 (load32 (ofBytes (bytes32 kDefaultLeaseTime)) 0)
      _ = swap32 kDefaultLeaseTime := by rw [load32_ofBytes]
      _ = 0x58020000 := swap32_kDefaultLeaseTime
  · rfl
  · funext k
    exact read_dnsField k
  · exact load32_ofBytes offeredGateway
  · exact load32_ofBytes offeredNetmask
  · exact load32_ofBytes serverAddress
  · rfl

theorem grant_losesLeaseTime (h : dns.length ≤ 63) :
    LosesLeaseTime (Message.grant type source serverAddress offeredAddress offeredNetmask
      offeredGateway dns transactionId) source type
      (DhcpInfo.granted serverAddress offeredAddress offeredNetmask offeredGateway dns) := by
  have hread : ReadsBack (Message.grant type source serverAddress offeredAddress offeredNetmask
      offeredGateway dns transactionId) source type (DhcpInfo.granted serverAddress offeredAddress
      offeredNetmask offeredGateway dns).misread := by
    constructor
    · apply Message.grant_valid
    · apply Message.grant_type
    · apply Message.addressOption_of_finds
      exact Message.grant_finds _ _ _ _ _ _ _ optServerId
    · intro old
      rw [Message.grant_readOptions, ofFields_grantFields]
      exact h
  have hlease : (0x58020000 : UInt32) ≠ kDefaultLeaseTime := by decide
  exact ⟨hread, fun hgiven => hlease (congrArg DhcpInfo.leaseTime (hread.unique hgiven))⟩

/-- The client never recovers the lease time that `offer` and `ack` are built
with: six hundred seconds are sent as `0x258` in the order of the host and read
as `0x58020000`. The rest of the reply is recovered. -/
theorem reply_readsBack_but_leaseTime (h : dns.length ≤ 63) :
    LosesLeaseTime (Message.offer source serverAddress offeredAddress offeredNetmask offeredGateway
        dns transactionId) source dhcpOffer
        (DhcpInfo.granted serverAddress offeredAddress offeredNetmask offeredGateway dns) ∧
      LosesLeaseTime (Message.ack source serverAddress offeredAddress offeredNetmask offeredGateway
        dns transactionId) source dhcpAck
        (DhcpInfo.granted serverAddress offeredAddress offeredNetmask offeredGateway dns) := by
  constructor
  · apply grant_losesLeaseTime
    exact h
  · apply grant_losesLeaseTime
    exact h

end

/-- An emulated device, its first message and the addresses of its network. -/
def deviceMac : Mac := #v[0x52, 0x54, 0, 0x12, 0x34, 0x56]

def aDiscover : Message := Message.discover deviceMac 1

def routerAddress : InAddr := 0x0202000a

def deviceAddress : InAddr := 0x0f02000a

def networkMask : InAddr := 0x00ffffff

theorem reply_readsBack_one_dns :
    LosesLeaseTime (Message.offer aDiscover routerAddress deviceAddress networkMask routerAddress
        [0x0302000a] 1) aDiscover dhcpOffer
        (DhcpInfo.granted routerAddress deviceAddress networkMask routerAddress [0x0302000a]) ∧
      LosesLeaseTime (Message.ack aDiscover routerAddress deviceAddress networkMask routerAddress
        [0x0302000a] 1) aDiscover dhcpAck
        (DhcpInfo.granted routerAddress deviceAddress networkMask routerAddress [0x0302000a]) := by
  have hdns : [(0x0302000a : InAddr)].length ≤ 63 := by decide
  exact reply_readsBack_but_leaseTime aDiscover routerAddress deviceAddress networkMask
    routerAddress 1 hdns

/-- An ACK for ten minutes is read as one for more than forty-six years. -/
theorem ack_leaseTime_misread :
    ¬ ReadsBack (Message.ack aDiscover routerAddress deviceAddress networkMask routerAddress
      [0x0302000a] 1) aDiscover dhcpAck
      (DhcpInfo.granted routerAddress deviceAddress networkMask routerAddress [0x0302000a]) := by
  intro h
  have hlease := congrArg (fun read => read.2.map DhcpInfo.leaseTime) (h.options none)
  revert hlease
  decide +kernel

end AndroidX86Tv.Dhcp
