import AndroidX86Tv.Dhcp.Checksum
import AndroidX86Tv.Dhcp.Message

/-!
# UDP datagrams on a raw socket (common/socket.cpp)

`sendRawUdp` puts an IP and a UDP header before the message; `receiveRawUdp` reads
a datagram into the two headers and the message. The structs lie in memory as the
host writes them, so what is sent in the order of the network goes through
`htons`, which is `swap16` here.
-/

namespace AndroidX86Tv.Dhcp

open ByteMemory OnesComplement

def ipVersion : Fin 16 := 4
def ipDefTtl : UInt8 := 64
def ipProtoUdp : UInt8 := 17

/-- `struct iphdr`; `version` and `ihl` share a byte. -/
structure IpHdr where
  ihl : Fin 16
  version : Fin 16
  tos : UInt8
  totLen : UInt16
  id : UInt16
  fragOff : UInt16
  ttl : UInt8
  protocol : UInt8
  check : UInt16
  saddr : InAddr
  daddr : InAddr

/-- `struct udphdr`. -/
structure UdpHdr where
  source : UInt16
  dest : UInt16
  len : UInt16
  check : UInt16

def IpHdr.bytes (ip : IpHdr) : List UInt8 :=
  UInt8.ofNat (ip.ihl + 16 * ip.version) :: ip.tos :: (bytes16 ip.totLen ++ bytes16 ip.id ++
    bytes16 ip.fragOff ++ [ip.ttl, ip.protocol] ++ bytes16 ip.check ++ bytes32 ip.saddr ++
    bytes32 ip.daddr)

def UdpHdr.bytes (udp : UdpHdr) : List UInt8 :=
  bytes16 udp.source ++ bytes16 udp.dest ++ bytes16 udp.len ++ bytes16 udp.check

/-- The `iphdr` that lies in memory. -/
def IpHdr.read (m : Memory) : IpHdr where
  ihl := ⟨(m 0).toNat % 16, Nat.mod_lt _ (by decide)⟩
  version := ⟨(m 0).toNat / 16, Nat.div_lt_of_lt_mul (m 0).toNat_lt⟩
  tos := m 1
  totLen := load16 m 2
  id := load16 m 4
  fragOff := load16 m 6
  ttl := m 8
  protocol := m 9
  check := load16 m 10
  saddr := load32 m 12
  daddr := load32 m 16

def UdpHdr.read (m : Memory) : UdpHdr where
  source := load16 m 0
  dest := load16 m 2
  len := load16 m 4
  check := load16 m 6

/-- The sizes of the two structs. -/
def sizeofIp : Nat := 20
def sizeofUdp : Nat := 8

namespace Message

/-- The bytes from `data()` to `end()`. -/
def bytes (m : Message) : List UInt8 := (List.range m.mSize).map m.dhcpData

@[simp] theorem bytes_length (m : Message) : m.bytes.length = m.mSize := by
  rw [bytes, List.length_map, List.length_range]

end Message

/-- `ip` of `sendRawUdp` before its checksum is taken. -/
def ipHeader (source destination : InAddr) (size : Nat) : IpHdr where
  version := ipVersion
  ihl := Fin.ofNat 16 (sizeofIp / 4)
  tos := 0
  totLen := swap16 (UInt16.ofNat (sizeofIp + sizeofUdp + size))
  id := 0
  fragOff := 0
  ttl := ipDefTtl
  protocol := ipProtoUdp
  check := 0
  saddr := source
  daddr := destination

/-- `udp` of `sendRawUdp` before its checksum is taken. -/
def udpHeader (sourcePort destinationPort : UInt16) (size : Nat) : UdpHdr where
  source := swap16 sourcePort
  dest := swap16 destinationPort
  len := swap16 (UInt16.ofNat (sizeofUdp + size))
  check := 0

def IpHdr.withChecksum (ip : IpHdr) : IpHdr :=
  { ip with check := (finishChecksum (addChecksum ip.bytes 0)).toUInt16 }

/-- The buffers that the UDP checksum is taken of: the pseudo header, piece by
piece, the header and the message. -/
def udpBuffers (ip : IpHdr) (udp : UdpHdr) (data : List UInt8) : List (List UInt8) :=
  [bytes32 ip.saddr, bytes32 ip.daddr, bytes16 (swap16 ipProtoUdp.toUInt16), bytes16 udp.len,
    udp.bytes, data]

def UdpHdr.withChecksum (udp : UdpHdr) (ip : IpHdr) (data : List UInt8) : UdpHdr :=
  { udp with check := (finishChecksum (addChecksums (udpBuffers ip udp data) 0)).toUInt16 }

/-- The datagram that `sendRawUdp` hands to `sendmsg`. -/
def sendRawUdp (source : InAddr) (sourcePort : UInt16) (destination : InAddr)
    (destinationPort : UInt16) (message : Message) : List UInt8 :=
  let ip := (ipHeader source destination message.mSize).withChecksum
  let udp := (udpHeader sourcePort destinationPort message.mSize).withChecksum ip message.bytes
  ip.bytes ++ udp.bytes ++ message.bytes

/-- What `receiveRawUdp` makes of a datagram: `isValid`, and the message. `readv`
fills the two headers and then the message, and drops what is left. -/
def receiveRawUdp (expectedPort : UInt16) (message : Message) (datagram : List UInt8) :
    Bool × Message :=
  let read := datagram.take (sizeofIp + sizeofUdp + Message.capacity)
  if read.length < sizeofIp + sizeofUdp then (false, message)
  else
    let ip := IpHdr.read (ofBytes read)
    let udp := UdpHdr.read (ofBytes (read.drop sizeofIp))
    (decide (ip.version = ipVersion ∧ ip.ihl.val = sizeofIp / 4 ∧ ip.protocol = ipProtoUdp ∧
        udp.dest = swap16 expectedPort),
      ⟨store message.dhcpData 0 (read.drop (sizeofIp + sizeofUdp)),
        read.length - sizeofIp - sizeofUdp⟩)

end AndroidX86Tv.Dhcp
