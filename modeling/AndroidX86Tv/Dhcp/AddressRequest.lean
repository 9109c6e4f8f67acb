import Mathlib.Logic.Function.Basic
import AndroidX86Tv.Dhcp.RouterAttributes

/-!
# The request for an address (client/interface.cpp)

`Interface::setAddress` builds an `RTM_NEWADDR` request, sends it and checks the answer.
For a kernel that reads requests and acknowledges them by the rules of netlink, this is
what `Host.setAddress` says for the interface of the index, and no other one changes.

## Implementation notes

The kernel is a parameter; what it refuses a request with is an input. The client does not
look at the `nlmsg_seq` of the answer.
-/

namespace AndroidX86Tv.Dhcp

open ByteMemory

def rtmNewAddr : UInt16 := 20
def nlmsgError : UInt16 := 2
def nlmFAck : UInt16 := 4
def ifaAddress : UInt16 := 1
def ifaLocal : UInt16 := 2
def ifaBroadcast : UInt16 := 4

def sizeofIfaddrmsg : Nat := 8
def sizeofNlmsgerr : Nat := 20

/-- The size of the buffer for the answer. -/
def sizeofBuffer : Nat := 8192

def broadcastFromNetmask (address netmask : InAddr) : InAddr := address ||| ~~~netmask

/-- The request without its attributes. -/
def addressHeader (subnetMask : InAddr) (mIndex : UInt32) : Memory :=
  let request := store (fun _ => 0) 0
    (bytes32 (UInt32.ofNat (sizeofNlmsghdr + sizeofIfaddrmsg)))
  let request := store request 4 (bytes16 rtmNewAddr)
  let request := store request 6
    (bytes16 (nlmFRequest ||| nlmFAck ||| nlmFCreate ||| nlmFReplace))
  let request := store request 16 [afInet]
  let request := store request 17 [UInt8.ofNat (Host.popcount subnetMask)]
  store request 20 (bytes32 mIndex)

/-- The attributes that `setAddress` adds, in their order. -/
def addressAttributes (address subnetMask : InAddr) : List RtAttr :=
  [⟨ifaAddress, bytes32 address⟩, ⟨ifaLocal, bytes32 address⟩,
    ⟨ifaBroadcast, bytes32 (broadcastFromNetmask address subnetMask)⟩]

def addressRequest (address subnetMask : InAddr) (mIndex : UInt32) : Memory :=
  addRouterAttributes sizeofIfaddrmsg (addressHeader subnetMask mIndex)
    (addressAttributes address subnetMask)

/-- The check of what `recv` returned, and left in the buffer. -/
def checkResponse (status : Int) (buffer : Memory) : Bool :=
  if status < 0 then false
  else if status.toNat < sizeofNlmsghdr then false
  else if load16 buffer 4 = nlmsgError then
    if status.toNat < sizeofNlmsghdr + sizeofNlmsgerr then false
    else load32 buffer sizeofNlmsghdr = 0
  else true

/-- What a request for an address asks for. -/
structure AddressChange where
  index : UInt32
  address : InAddr
  prefixLength : Nat
  broadcast : InAddr
  deriving DecidableEq

/-- An attribute of four bytes. -/
def wordOf (attrs : List RtAttr) (type : UInt16) : Option UInt32 :=
  (attrs.find? fun a => a.type = type).map fun a => load32 (ofBytes a.data) 0

/-- A request for an IPv4 address. -/
def IsNewAddr (request : Memory) : Prop :=
  load16 request 4 = rtmNewAddr ∧ load16 request 6 &&& nlmFRequest ≠ 0 ∧ request 16 = afInet

instance (request : Memory) : Decidable (IsNewAddr request) :=
  inferInstanceAs (Decidable (_ ∧ _))

/-- How a request of the length is read: the header, the message, and the attributes
behind them. -/
def readRequest (request : Memory) (length : Nat) : Option AddressChange :=
  if IsNewAddr request then do
    let attrs := walkAttributes request (attributeArea sizeofIfaddrmsg) length
    let address ← wordOf attrs ifaLocal
    let broadcast ← wordOf attrs ifaBroadcast
    return ⟨load32 request 20, address, (request 17).toNat, broadcast⟩
  else none

/-- The address that the interface is to have. -/
def AddressChange.asked (change : AddressChange) : IfAddress :=
  ⟨change.address, change.prefixLength, change.broadcast⟩

/-- The addresses of the interfaces, by their index. -/
abbrev Interfaces := UInt32 → List IfAddress

/-- The netlink side of a kernel, which carries a request out or refuses it with an
error, and acknowledges it where that is asked for. -/
structure AddressKernel (kernel : NetKernel) where
  handle : Interfaces → Memory → Nat → UInt32 → Interfaces × List UInt8
  refuses : ∀ held request length error, error ≠ 0 →
    (handle held request length error).1 = held
  carriesOut : ∀ held request length change, readRequest request length = some change →
    (handle held request length 0).1 =
      Function.update held change.index (kernel.newAddress (held change.index) change.asked)
  acknowledges : ∀ held request length error, load16 request 6 &&& nlmFAck ≠ 0 →
    sizeofNlmsghdr + sizeofNlmsgerr ≤ (handle held request length error).2.length ∧
      load16 (ofBytes (handle held request length error).2) 4 = nlmsgError ∧
      load32 (ofBytes (handle held request length error).2) sizeofNlmsghdr = error

/-- How the calls of `setAddress` go: whether `sendto` does, what the kernel refuses the
request with, and whether `recv` gets the answer. -/
structure AddressCalls where
  sent : Bool
  error : UInt32
  received : Bool

/-- What becomes of the request. -/
def AddressCalls.reply (calls : AddressCalls) : NetlinkReply :=
  if calls.sent then
    if calls.received then if calls.error = 0 then .done else .refused
    else .lost (calls.error = 0)
  else .refused

/-- `Interface::setAddress`: the result, and the addresses of the interfaces. -/
def setAddress {netKernel : NetKernel} (kernel : AddressKernel netKernel) (mIndex : UInt32)
    (held : Interfaces) (address subnetMask : InAddr) (calls : AddressCalls) : Bool × Interfaces :=
  let request := addressRequest address subnetMask mIndex
  if calls.sent then
    let (held, answer) := kernel.handle held request (nlmsgLen request).toNat calls.error
    if calls.received then
      let buffer := answer.take sizeofBuffer
      (checkResponse buffer.length (ofBytes buffer), held)
    else (checkResponse (-1) (ofBytes []), held)
  else (false, held)

section Request

variable (address subnetMask : InAddr) (mIndex : UInt32)

theorem popcount_le (v : UInt32) : Host.popcount v ≤ 32 := by
  have hle := List.length_filter_le v.toNat.testBit (List.range 32)
  rwa [List.length_range] at hle

theorem addressHeader_length :
    (nlmsgLen (addressHeader subnetMask mIndex)).toNat = offsetofBuf sizeofIfaddrmsg := by
  have hlen : nlmsgLen (addressHeader subnetMask mIndex) =
      UInt32.ofNat (sizeofNlmsghdr + sizeofIfaddrmsg) := by
    apply load32_of_holds
    exact (((((holds_store _ _ _).store (by simp)).store (by simp)).store (by simp)).store
      (by simp)).store (by simp)
  rw [hlen]
  rfl

theorem addressAttributes_extent : extent (addressAttributes address subnetMask) = 24 := by
  simp [addressAttributes, extent, RtAttr.size, sizeofRtattr, align4]

theorem attributeArea_ifaddrmsg : attributeArea sizeofIfaddrmsg = 24 := rfl

theorem addressRequest_built :
    Built sizeofIfaddrmsg (addressHeader subnetMask mIndex)
      (addressRequest address subnetMask mIndex) (addressAttributes address subnetMask) := by
  have hextent := addressAttributes_extent address subnetMask
  have harea := attributeArea_ifaddrmsg
  exact addRouterAttributes_built (addressHeader_length subnetMask mIndex) (by omega) (by omega)

/-- What stands in the header and the message of the request. -/
structure HeaderHolds (request : Memory) : Prop where
  type : load16 request 4 = rtmNewAddr
  flags : load16 request 6 = nlmFRequest ||| nlmFAck ||| nlmFCreate ||| nlmFReplace
  family : request 16 = afInet
  prefixLength : (request 17).toNat = Host.popcount subnetMask
  index : load32 request 20 = mIndex

theorem addressHeader_holds : HeaderHolds subnetMask mIndex (addressHeader subnetMask mIndex) := by
  have hfamily : Holds (addressHeader subnetMask mIndex) 16 [afInet] :=
    ((holds_store _ _ _).store (by simp)).store (by simp)
  have hlead : Holds (addressHeader subnetMask mIndex) 17
      [UInt8.ofNat (Host.popcount subnetMask)] := (holds_store _ _ _).store (by simp)
  constructor
  · apply load16_of_holds
    exact ((((holds_store _ _ _).store (by simp)).store (by simp)).store (by simp)).store (by simp)
  · apply load16_of_holds
    exact (((holds_store _ _ _).store (by simp)).store (by simp)).store (by simp)
  · exact hfamily.1
  · have hle := popcount_le subnetMask
    rw [hlead.1, UInt8.toNat_ofNat']
    omega
  · apply load32_of_holds
    exact holds_store _ _ _

/-- The attributes leave the header and the message as they are. -/
theorem addressRequest_holds :
    HeaderHolds subnetMask mIndex (addressRequest address subnetMask mIndex) := by
  have hframe : ∀ k, 4 ≤ k → k < 24 →
      addressRequest address subnetMask mIndex k = addressHeader subnetMask mIndex k := by
    intro k hfour hk
    exact (addressRequest_built address subnetMask mIndex).frame k hfour (Or.inl hk)
  have hheader := addressHeader_holds subnetMask mIndex
  constructor
  · rw [← hheader.type]
    exact load16_congr fun k hk => hframe (4 + k) (by omega) (by omega)
  · rw [← hheader.flags]
    exact load16_congr fun k hk => hframe (6 + k) (by omega) (by omega)
  · rw [← hheader.family]
    exact hframe 16 (by decide) (by decide)
  · rw [← hheader.prefixLength, hframe 17 (by decide) (by decide)]
  · refine Eq.trans ?_ hheader.index
    exact load32_congr fun k hk => hframe (20 + k) (by omega) (by omega)

/-- The request is read as what it was built from. -/
theorem readRequest_addressRequest :
    readRequest (addressRequest address subnetMask mIndex)
        (nlmsgLen (addressRequest address subnetMask mIndex)).toNat =
      some ⟨mIndex, address, Host.popcount subnetMask,
        broadcastFromNetmask address subnetMask⟩ := by
  have hextent := addressAttributes_extent address subnetMask
  have hheader := addressRequest_holds address subnetMask mIndex
  have hwalk := (addressRequest_built address subnetMask mIndex).walk (by omega)
  have hlocal : wordOf (addressAttributes address subnetMask) ifaLocal = some address := by
    simp [wordOf, addressAttributes, ifaAddress, ifaLocal, load32_ofBytes]
  have hbroadcast : wordOf (addressAttributes address subnetMask) ifaBroadcast =
      some (broadcastFromNetmask address subnetMask) := by
    simp [wordOf, addressAttributes, ifaAddress, ifaLocal, ifaBroadcast, load32_ofBytes]
  have hkind : IsNewAddr (addressRequest address subnetMask mIndex) := by
    refine ⟨hheader.type, ?_, hheader.family⟩
    rw [hheader.flags]
    decide
  rw [readRequest, if_pos hkind, hwalk]
  simp only [hlocal, hbroadcast, hheader.index, hheader.prefixLength]
  rfl

end Request

section Answer

/-- An acknowledgement passes the check exactly if it carries no error. -/
theorem checkResponse_acknowledged {answer : List UInt8}
    (hlength : sizeofNlmsghdr + sizeofNlmsgerr ≤ answer.length)
    (htype : load16 (ofBytes answer) 4 = nlmsgError) :
    checkResponse (answer.take sizeofBuffer).length (ofBytes (answer.take sizeofBuffer)) =
      decide (load32 (ofBytes answer) sizeofNlmsghdr = 0) := by
  have hlong : sizeofNlmsghdr + sizeofNlmsgerr ≤ (answer.take sizeofBuffer).length := by
    rw [List.length_take]
    exact Nat.le_min.mpr ⟨by decide, hlength⟩
  have hsame : ∀ k < 36, ofBytes (answer.take sizeofBuffer) k = ofBytes answer k := by
    intro k hk
    have hin : k < sizeofBuffer := Nat.lt_trans hk (by decide)
    rw [ofBytes, ofBytes, List.getD_eq_getElem?_getD, List.getD_eq_getElem?_getD,
      List.getElem?_take_of_lt hin]
  have htype' : load16 (ofBytes (answer.take sizeofBuffer)) 4 = nlmsgError := by
    rw [← htype]
    exact load16_congr fun k hk => hsame (4 + k) (by omega)
  have herror : load32 (ofBytes (answer.take sizeofBuffer)) sizeofNlmsghdr =
      load32 (ofBytes answer) sizeofNlmsghdr :=
    load32_congr fun k hk => hsame (sizeofNlmsghdr + k) (by rw [sizeofNlmsghdr]; omega)
  have hsizes : sizeofNlmsghdr = 16 ∧ sizeofNlmsgerr = 20 := ⟨rfl, rfl⟩
  rw [checkResponse, if_neg (by omega), if_neg (by omega), if_pos htype', if_neg (by omega),
    herror]

end Answer

/-- The result of `setAddress` and what becomes of the addresses. -/
theorem setAddress_result {netKernel : NetKernel} (kernel : AddressKernel netKernel)
    (mIndex : UInt32) (held : Interfaces) (address subnetMask : InAddr) (calls : AddressCalls) :
    setAddress kernel mIndex held address subnetMask calls =
      (decide (calls.reply = .done),
        if calls.sent = true ∧ calls.error = 0 then
          Function.update held mIndex
            (netKernel.newAddress (held mIndex) (Host.asked address subnetMask))
        else held) := by
  have hheader := addressRequest_holds address subnetMask mIndex
  have hack : load16 (addressRequest address subnetMask mIndex) 6 &&& nlmFAck ≠ 0 := by
    rw [hheader.flags]
    decide
  obtain ⟨hlength, htype, herror⟩ := kernel.acknowledges held
    (addressRequest address subnetMask mIndex)
    (nlmsgLen (addressRequest address subnetMask mIndex)).toNat calls.error hack
  have hchecked := checkResponse_acknowledged hlength htype
  have hcarried := kernel.carriesOut held _ _ _
    (readRequest_addressRequest address subnetMask mIndex)
  have hrefused := kernel.refuses held (addressRequest address subnetMask mIndex)
    (nlmsgLen (addressRequest address subnetMask mIndex)).toNat calls.error
  have hfailed : checkResponse (-1) (ofBytes []) = false := if_pos (by decide)
  rw [herror] at hchecked
  rw [AddressCalls.reply, setAddress]
  simp only [hchecked, hfailed]
  by_cases hsent : calls.sent = true
  · by_cases hzero : calls.error = 0
    · rw [if_pos hsent, if_pos (And.intro hsent hzero), hzero, hcarried]
      cases calls.received with
      | true => simp [hsent, AddressChange.asked, Host.asked, broadcastFromNetmask]
      | false => simp [hsent, AddressChange.asked, Host.asked, broadcastFromNetmask]
    · have hnot : ¬ (calls.sent = true ∧ calls.error = 0) := fun h => hzero h.2
      rw [if_pos hsent, if_neg hnot, hrefused hzero]
      cases calls.received with
      | true => simp [hsent, hzero]
      | false => simp [hsent, hzero]
  · have hnot : ¬ (calls.sent = true ∧ calls.error = 0) := fun h => hsent h.1
    rw [if_neg hsent, if_neg hnot]
    simp [hsent]

/-- `setAddress` is what the host says it is for the interface of the index, for the reply
that comes of its calls, and it leaves the other interfaces alone. -/
theorem setAddress_refines (host : Host) (kernel : AddressKernel host.kernel) (mIndex : UInt32)
    (held : Interfaces) (address subnetMask : InAddr) (calls : AddressCalls)
    {systemCalls : SystemCalls} (hheld : held mIndex = host.addresses)
    (h : systemCalls.newAddress = calls.reply) :
    host.setAddress address subnetMask systemCalls =
        ((setAddress kernel mIndex held address subnetMask calls).1,
          { host with
            addresses := (setAddress kernel mIndex held address subnetMask calls).2 mIndex }) ∧
      ∀ index, index ≠ mIndex →
        (setAddress kernel mIndex held address subnetMask calls).2 index = held index := by
  rw [setAddress_result kernel mIndex held address subnetMask calls]
  constructor
  · rw [Host.setAddress, h, AddressCalls.reply]
    by_cases hsent : calls.sent = true
    · by_cases hzero : calls.error = 0
      · cases calls.received with
        | true => simp [hsent, hzero, hheld, Host.withAddress]
        | false => simp [hsent, hzero, hheld, Host.withAddress]
      · cases calls.received with
        | true => simp [hsent, hzero, hheld]
        | false => simp [hsent, hzero, hheld]
    · simp [hsent, hheld]
  · intro index hindex
    split_ifs
    · exact Function.update_of_ne hindex _ _
    · rfl

/-- The acknowledgement of a request. -/
def acknowledgement (error : UInt32) : List UInt8 :=
  bytes32 36 ++ bytes16 nlmsgError ++ bytes16 0 ++ bytes32 0 ++ bytes32 0 ++ bytes32 error ++
    List.replicate 16 0

theorem acknowledgement_reads (error : UInt32) :
    load16 (ofBytes (acknowledgement error)) 4 = nlmsgError ∧
      load32 (ofBytes (acknowledgement error)) sizeofNlmsghdr = error := by
  have hholds := holds_ofBytes (acknowledgement error)
  simp only [acknowledgement, holds_append] at hholds
  exact ⟨load16_of_holds hholds.1.1.1.1.1.2, load32_of_holds hholds.1.2⟩

/-- A kernel that carries out what it can read. -/
def plainKernel (kernel : NetKernel) : AddressKernel kernel where
  handle held request length error :=
    (if error = 0 then
        (readRequest request length).elim held fun change =>
          Function.update held change.index (kernel.newAddress (held change.index) change.asked)
      else held,
      acknowledgement error)
  refuses held request length error herror := if_neg herror
  carriesOut held request length change hread := by
    simp only [if_true, hread]
    rfl
  acknowledges held request length error _ :=
    ⟨Nat.le_of_eq (by simp [acknowledgement, sizeofNlmsghdr, sizeofNlmsgerr]),
      acknowledgement_reads error⟩

/-- An interface that is up and has no address. -/
def plainHost : Host := ⟨linuxKernel, true, 1500, [], [], ⟨none, fun _ => none⟩⟩

/-- The interface of the index 3 gets its address, though the answer is lost. -/
theorem setAddress_refines_lost :
    plainHost.setAddress 0x0f02000a 0x00ffffff
          ⟨true, true, true, true, fun _ => true, .lost true, true, true⟩ =
        ((setAddress (plainKernel linuxKernel) 3 (fun _ => []) 0x0f02000a 0x00ffffff
            ⟨true, 0, false⟩).1,
          { plainHost with
            addresses := (setAddress (plainKernel linuxKernel) 3 (fun _ => []) 0x0f02000a
              0x00ffffff ⟨true, 0, false⟩).2 3 }) ∧
      ∀ index, index ≠ 3 → (setAddress (plainKernel linuxKernel) 3 (fun _ => []) 0x0f02000a
        0x00ffffff ⟨true, 0, false⟩).2 index = [] :=
  setAddress_refines plainHost (plainKernel linuxKernel) 3 (fun _ => []) 0x0f02000a 0x00ffffff
    ⟨true, 0, false⟩ rfl rfl

section Prefix

/-- The mask of a prefix, in the byte order of the network. -/
def prefixMask (n : Nat) : InAddr := swap32 (UInt32.ofNat (2 ^ 32 - 2 ^ (32 - n)))

theorem popcount_prefixMask : ∀ n ≤ 32, Host.popcount (prefixMask n) = n := by
  decide +kernel

/-- The length of the prefix stands for the mask exactly if the mask is one of a prefix. -/
theorem prefixMask_popcount_iff (subnetMask : InAddr) :
    prefixMask (Host.popcount subnetMask) = subnetMask ↔ ∃ n ≤ 32, subnetMask = prefixMask n := by
  constructor
  · intro h
    exact ⟨Host.popcount subnetMask, popcount_le subnetMask, h.symm⟩
  · rintro ⟨n, hn, rfl⟩
    rw [popcount_prefixMask n hn]

/-- Whoever reads the request gets the address, its broadcast address and the mask, the
mask exactly if its ones are the first bits. -/
theorem readRequest_mask_iff (address subnetMask : InAddr) (mIndex : UInt32) :
    ∃ change, readRequest (addressRequest address subnetMask mIndex)
        (nlmsgLen (addressRequest address subnetMask mIndex)).toNat = some change ∧
      change.index = mIndex ∧ change.address = address ∧
      change.broadcast = broadcastFromNetmask address subnetMask ∧
      (prefixMask change.prefixLength = subnetMask ↔ ∃ n ≤ 32, subnetMask = prefixMask n) :=
  ⟨_, readRequest_addressRequest address subnetMask mIndex, rfl, rfl, rfl,
    prefixMask_popcount_iff subnetMask⟩

end Prefix

end AndroidX86Tv.Dhcp
