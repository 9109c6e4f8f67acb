import AndroidX86Tv.Dhcp.RawUdp

/-!
# The datagrams that `sendRawUdp` makes

Both checksums close their sums, the lengths are the true ones, and
`receiveRawUdp` gets the message back. The sums are taken over words of the host;
on the network their bytes come in the other order.
-/

namespace AndroidX86Tv.Dhcp

open ByteMemory OnesComplement

/-- The addresses, the protocol and the length of a datagram, as the UDP checksum
covers them. -/
def pseudoHeader (datagram : List UInt8) : List UInt8 :=
  (datagram.drop 12).take 8 ++ [0, ofBytes datagram 9] ++ (datagram.drop 24).take 2

/-- A 16-bit field in the order of the network. -/
def networkField (datagram : List UInt8) (p : Nat) : Nat :=
  networkWord (ofBytes datagram p) (ofBytes datagram (p + 1))

/-- Checksums and lengths of a datagram with the message. -/
structure WellFormed (datagram : List UInt8) (message : Message) : Prop where
  ipSum : onesSum (words networkWord (datagram.take sizeofIp)) = 0xFFFF
  udpSum : onesSum (words networkWord (pseudoHeader datagram ++ datagram.drop sizeofIp)) = 0xFFFF
  length : datagram.length = sizeofIp + sizeofUdp + message.mSize
  totLen : networkField datagram 2 = datagram.length
  len : networkField datagram 24 = datagram.length - sizeofIp

theorem hostWord_bytes16 (v : UInt16) :
    hostWord (UInt8.ofNat v.toNat) (UInt8.ofNat (v.toNat / 256)) = v.toNat := by
  have hv := v.toNat_lt
  rw [hostWord, UInt8.toNat_ofNat', UInt8.toNat_ofNat']
  omega

@[simp] theorem IpHdr.bytes_length (ip : IpHdr) : ip.bytes.length = sizeofIp := rfl

@[simp] theorem UdpHdr.bytes_length (udp : UdpHdr) : udp.bytes.length = sizeofUdp := rfl

/-- The words of a header in the order of its fields. -/
theorem IpHdr.words_bytes (ip : IpHdr) : words hostWord ip.bytes =
    [hostWord (UInt8.ofNat (ip.ihl + 16 * ip.version)) ip.tos, ip.totLen.toNat, ip.id.toNat,
      ip.fragOff.toNat, hostWord ip.ttl ip.protocol, ip.check.toNat] ++
    words hostWord (bytes32 ip.saddr ++ bytes32 ip.daddr) := by
  rw [← hostWord_bytes16 ip.totLen, ← hostWord_bytes16 ip.id, ← hostWord_bytes16 ip.fragOff,
    ← hostWord_bytes16 ip.check]
  rfl

theorem UdpHdr.words_bytes (udp : UdpHdr) : words hostWord udp.bytes =
    [udp.source.toNat, udp.dest.toNat, udp.len.toNat, udp.check.toNat] := by
  rw [← hostWord_bytes16 udp.source, ← hostWord_bytes16 udp.dest, ← hostWord_bytes16 udp.len,
    ← hostWord_bytes16 udp.check]
  rfl

/-- The sum of a header is that without its checksum and the checksum. -/
theorem IpHdr.sum_withChecksum {ip : IpHdr} (h : ip.check = 0) :
    (words hostWord ip.withChecksum.bytes).sum =
      (words hostWord ip.bytes).sum + ip.withChecksum.check.toNat := by
  rw [words_bytes, words_bytes, h, withChecksum]
  simp only [List.cons_append, List.nil_append, List.sum_cons, UInt16.toNat_zero]
  omega

theorem UdpHdr.sum_withChecksum {udp : UdpHdr} (h : udp.check = 0) (ip : IpHdr)
    (data : List UInt8) : (words hostWord (udp.withChecksum ip data).bytes).sum =
      (words hostWord udp.bytes).sum + (udp.withChecksum ip data).check.toNat := by
  rw [words_bytes, words_bytes, h, withChecksum]
  simp only [List.sum_cons, List.sum_nil, UInt16.toNat_zero]
  omega

/-- The checksum closes the sum of the IP header. -/
theorem IpHdr.onesSum_withChecksum {ip : IpHdr} (h : ip.check = 0)
    (hne : (words hostWord ip.bytes).sum ≠ 0) :
    onesSum (words networkWord ip.withChecksum.bytes) = 0xFFFF := by
  obtain ⟨hlt, hmod⟩ := addChecksum_toNat (show ip.bytes.length ≤ 65535 by
    rw [bytes_length]
    decide) (show (0 : UInt32).toNat < 65536 by decide)
  rw [UInt32.toNat_zero, Nat.zero_add] at hmod
  apply onesSum_eq_allOnes
  · rw [sum_withChecksum h]
    exact finishChecksum_closes hlt hmod
  · rw [sum_withChecksum h]
    omega

/-- What the UDP checksum covers, in one piece. -/
def covered (ip : IpHdr) (udp : UdpHdr) (data : List UInt8) : List UInt8 :=
  bytes32 ip.saddr ++ (bytes32 ip.daddr ++ (bytes16 (swap16 ipProtoUdp.toUInt16) ++
    (bytes16 udp.len ++ (udp.bytes ++ data))))

theorem sum_covered (ip : IpHdr) (udp : UdpHdr) (data : List UInt8) :
    (words hostWord (covered ip udp data)).sum =
      ((udpBuffers ip udp data).map fun buffer => (words hostWord buffer).sum).sum := by
  have hword : ∀ v : UInt32, (bytes32 v).length % 2 = 0 := fun _ => show 4 % 2 = 0 from rfl
  have hhalf : ∀ v : UInt16, (bytes16 v).length % 2 = 0 := fun _ => show 2 % 2 = 0 from rfl
  have hheader : udp.bytes.length % 2 = 0 := show 8 % 2 = 0 from rfl
  rw [covered, words_append (hword _), words_append (hword _), words_append (hhalf _),
    words_append (hhalf _), words_append hheader]
  simp only [List.sum_append, udpBuffers, List.map_cons, List.map_nil, List.sum_cons, List.sum_nil,
    Nat.add_zero]

/-- The sum covered grows by the checksum of the header. -/
theorem sum_covered_withChecksum {udp : UdpHdr} (h : udp.check = 0) (ip : IpHdr)
    (data : List UInt8) : (words hostWord (covered ip (udp.withChecksum ip data) data)).sum =
      (words hostWord (covered ip udp data)).sum + (udp.withChecksum ip data).check.toNat := by
  have hheader := UdpHdr.sum_withChecksum h ip data
  have hlen : (udp.withChecksum ip data).len = udp.len := rfl
  rw [sum_covered, sum_covered]
  simp only [udpBuffers, List.map_cons, List.map_nil, List.sum_cons, List.sum_nil, hheader, hlen]
  omega

/-- The protocol is among what is covered. -/
theorem sum_covered_ne_zero (ip : IpHdr) (udp : UdpHdr) (data : List UInt8) :
    (words hostWord (covered ip udp data)).sum ≠ 0 := by
  have hprotocol : (words hostWord (bytes16 (swap16 ipProtoUdp.toUInt16))).sum = 4352 := by decide
  rw [sum_covered]
  simp only [udpBuffers, List.map_cons, List.sum_cons, hprotocol]
  omega

/-- The checksum closes the sum of pseudo header, UDP header and message. -/
theorem UdpHdr.onesSum_withChecksum {udp : UdpHdr} (h : udp.check = 0) (ip : IpHdr)
    {data : List UInt8} (hdata : data.length ≤ 65535) :
    onesSum (words networkWord (covered ip (udp.withChecksum ip data) data)) = 0xFFFF := by
  have hshort : ∀ buffer ∈ udpBuffers ip udp data, buffer.length ≤ 65535 := by
    simp [udpBuffers, sizeofUdp, hdata]
  obtain ⟨hlt, hmod⟩ := addChecksums_toNat hshort (show (0 : UInt32).toNat < 65536 by decide)
  rw [UInt32.toNat_zero, Nat.zero_add, ← sum_covered] at hmod
  apply onesSum_eq_allOnes
  · rw [sum_covered_withChecksum h]
    exact finishChecksum_closes hlt hmod
  · exact sum_covered_ne_zero ip _ data

/-- The pseudo header of a datagram is taken from its IP header and its length. -/
theorem pseudoHeader_eq (ip : IpHdr) (udp : UdpHdr) (data : List UInt8) :
    pseudoHeader (ip.bytes ++ udp.bytes ++ data) =
      bytes32 ip.saddr ++ bytes32 ip.daddr ++ [0, ip.protocol] ++ bytes16 udp.len :=
  rfl

theorem drop_sizeofIp (ip : IpHdr) (udp : UdpHdr) (data : List UInt8) :
    (ip.bytes ++ udp.bytes ++ data).drop sizeofIp = udp.bytes ++ data := rfl

/-- What the checksum of the datagram has to cover is what it does cover. -/
theorem pseudoHeader_covered {ip : IpHdr} (h : ip.protocol = ipProtoUdp) (udp : UdpHdr)
    (data : List UInt8) : pseudoHeader (ip.bytes ++ udp.bytes ++ data) ++
      (ip.bytes ++ udp.bytes ++ data).drop sizeofIp = covered ip udp data := by
  have hprotocol : [0, ipProtoUdp] = bytes16 (swap16 ipProtoUdp.toUInt16) := by decide
  rw [pseudoHeader_eq, drop_sizeofIp, h, hprotocol, covered]
  simp only [List.append_assoc]

theorem swap16_toNat (v : UInt16) : (swap16 v).toNat = 256 * (v.toNat % 256) + v.toNat / 256 := by
  have hv := v.toNat_lt
  rw [swap16, UInt16.toNat_ofNat', Nat.mod_eq_of_lt]
  omega

/-- A field that was swapped for the network reads there as its value. -/
theorem networkWord_swap16 (v : UInt16) :
    networkWord (UInt8.ofNat (swap16 v).toNat) (UInt8.ofNat ((swap16 v).toNat / 256)) =
      v.toNat := by
  have hlow : v.toNat % 256 < 256 := Nat.mod_lt _ (by decide)
  have hhigh : v.toNat / 256 < 256 := Nat.div_lt_of_lt_mul v.toNat_lt
  have hpair : ∀ low high : Nat, low < 256 → high < 256 →
      256 * ((256 * low + high) % 256) + (256 * low + high) / 256 % 256 = 256 * high + low := by
    omega
  rw [networkWord, UInt8.toNat_ofNat', UInt8.toNat_ofNat', swap16_toNat]
  exact (hpair _ _ hlow hhigh).trans (Nat.div_add_mod v.toNat 256)

theorem networkWord_size {n : Nat} (h : n < 65536) :
    networkWord (UInt8.ofNat (swap16 (UInt16.ofNat n)).toNat)
      (UInt8.ofNat ((swap16 (UInt16.ofNat n)).toNat / 256)) = n := by
  rw [networkWord_swap16, UInt16.toNat_ofNat', Nat.mod_eq_of_lt h]

/-- The checks of `receiveRawUdp` on the headers of a datagram. -/
theorem IpHdr.read_bytes (ip : IpHdr) (rest : List UInt8) :
    (IpHdr.read (ofBytes (ip.bytes ++ rest))).version = ip.version ∧
      (IpHdr.read (ofBytes (ip.bytes ++ rest))).ihl = ip.ihl ∧
      (IpHdr.read (ofBytes (ip.bytes ++ rest))).protocol = ip.protocol := by
  have hfirst : (ofBytes (ip.bytes ++ rest) 0).toNat = ip.ihl + 16 * ip.version := by
    have hlow := ip.ihl.isLt
    have hhigh := ip.version.isLt
    rw [show ofBytes (ip.bytes ++ rest) 0 = UInt8.ofNat (ip.ihl + 16 * ip.version) from rfl,
      UInt8.toNat_ofNat', Nat.mod_eq_of_lt]
    omega
  refine ⟨Fin.ext ?_, Fin.ext ?_, rfl⟩
  · simp only [IpHdr.read, hfirst]
    omega
  · simp only [IpHdr.read, hfirst]
    omega

theorem store_bytes (m : Memory) (message : Message) {p : Nat} (hp : p < message.mSize) :
    store m 0 message.bytes p = message.dhcpData p := by
  have hlength : p < message.bytes.length := by rwa [Message.bytes_length]
  have hbyte : message.bytes[p]? = some (message.dhcpData p) := by
    simp [Message.bytes, List.getElem?_range hp]
  have hholds := (holds_iff _ _ _).mp (holds_store m 0 message.bytes) p hlength
  rw [Nat.zero_add, hbyte] at hholds
  exact (Option.some.inj hholds).symm

theorem UdpHdr.read_dest (udp : UdpHdr) (rest : List UInt8) :
    (UdpHdr.read (ofBytes (udp.bytes ++ rest))).dest = udp.dest :=
  load16_of_holds ⟨rfl, rfl, trivial⟩

section

variable (source destination : InAddr) (sourcePort destinationPort : UInt16) (message : Message)

theorem sendRawUdp_length :
    (sendRawUdp source sourcePort destination destinationPort message).length =
      sizeofIp + sizeofUdp + message.mSize := by
  rw [sendRawUdp, List.length_append, List.length_append, IpHdr.bytes_length, UdpHdr.bytes_length,
    Message.bytes_length]

/-- The checksums and the lengths of what `sendRawUdp` sends are right. -/
theorem sendRawUdp_wellFormed (hsize : message.mSize ≤ Message.capacity) :
    WellFormed (sendRawUdp source sourcePort destination destinationPort message) message := by
  have hcapacity : message.mSize ≤ 1260 := hsize
  have hlength := sendRawUdp_length source destination sourcePort destinationPort message
  have hfits : sizeofIp + sizeofUdp + message.mSize < 65536 := by
    rw [sizeofIp, sizeofUdp]
    omega
  have hversion : (words hostWord (ipHeader source destination message.mSize).bytes).sum ≠ 0 := by
    rw [IpHdr.words_bytes, List.cons_append, List.sum_cons,
      show hostWord _ (ipHeader source destination message.mSize).tos = 69 from rfl]
    omega
  have htotLen : networkField (sendRawUdp source sourcePort destination destinationPort message) 2 =
      sizeofIp + sizeofUdp + message.mSize := networkWord_size hfits
  have hlen : networkField (sendRawUdp source sourcePort destination destinationPort message) 24 =
      sizeofUdp + message.mSize := networkWord_size (by omega)
  constructor
  · exact IpHdr.onesSum_withChecksum rfl hversion
  · have hbytes : message.bytes.length ≤ 65535 := by
      rw [Message.bytes_length]
      omega
    rw [sendRawUdp, pseudoHeader_covered rfl]
    exact UdpHdr.onesSum_withChecksum rfl _ hbytes
  · exact hlength
  · exact htotLen.trans hlength.symm
  · rw [hlen, hlength]
    omega

/-- The checks of `receiveRawUdp` let a datagram for the port pass. -/
theorem receiveRawUdp_isValid (before : Message) (hread :
    (sendRawUdp source sourcePort destination destinationPort message).take
      (sizeofIp + sizeofUdp + Message.capacity) =
      sendRawUdp source sourcePort destination destinationPort message) :
    (receiveRawUdp destinationPort before
      (sendRawUdp source sourcePort destination destinationPort message)).1 = true := by
  have hlength := sendRawUdp_length source destination sourcePort destinationPort message
  have hlong : ¬ (sendRawUdp source sourcePort destination destinationPort message).length <
      sizeofIp + sizeofUdp := by omega
  obtain ⟨hversion, hihl, hprotocol⟩ := IpHdr.read_bytes
    (ipHeader source destination message.mSize).withChecksum
    (((udpHeader sourcePort destinationPort message.mSize).withChecksum
      (ipHeader source destination message.mSize).withChecksum message.bytes).bytes ++
      message.bytes)
  rw [receiveRawUdp, hread, if_neg hlong]
  apply decide_eq_true
  rw [sendRawUdp, drop_sizeofIp, UdpHdr.read_dest, List.append_assoc, hversion, hihl, hprotocol]
  exact ⟨rfl, rfl, rfl, rfl⟩

/-- For every message, addresses and ports: the datagram that is sent is well formed,
and on its port the message is received as it was, whatever was in the buffer. -/
theorem sendRawUdp_received (hsize : message.mSize ≤ Message.capacity) (before : Message) :
    WellFormed (sendRawUdp source sourcePort destination destinationPort message) message ∧
      (receiveRawUdp destinationPort before
        (sendRawUdp source sourcePort destination destinationPort message)).1 = true ∧
      message.Agrees (receiveRawUdp destinationPort before
        (sendRawUdp source sourcePort destination destinationPort message)).2 := by
  have hlength := sendRawUdp_length source destination sourcePort destinationPort message
  have hread : (sendRawUdp source sourcePort destination destinationPort message).take
      (sizeofIp + sizeofUdp + Message.capacity) =
      sendRawUdp source sourcePort destination destinationPort message := by
    apply List.take_of_length_le
    omega
  have hlong : ¬ (sendRawUdp source sourcePort destination destinationPort message).length <
      sizeofIp + sizeofUdp := by omega
  refine ⟨sendRawUdp_wellFormed _ _ _ _ _ hsize,
    receiveRawUdp_isValid source destination sourcePort destinationPort message before hread, ?_⟩
  rw [receiveRawUdp, hread, if_neg hlong]
  constructor
  · change (sendRawUdp source sourcePort destination destinationPort message).length - sizeofIp -
      sizeofUdp = message.mSize
    omega
  · exact fun p hp => store_bytes before.dhcpData message hp

end

/-- A message of three bytes. -/
def oddMessage : Message := ⟨ofBytes [1, 2, 3], 3⟩

theorem oddMessage_received :
    WellFormed (sendRawUdp 0 68 0xFFFFFFFF 67 oddMessage) oddMessage ∧
      (receiveRawUdp 67 Message.empty (sendRawUdp 0 68 0xFFFFFFFF 67 oddMessage)).1 = true ∧
      oddMessage.Agrees
        (receiveRawUdp 67 Message.empty (sendRawUdp 0 68 0xFFFFFFFF 67 oddMessage)).2 :=
  sendRawUdp_received 0 0xFFFFFFFF 68 67 oddMessage (by decide) Message.empty

/-- The IP checksum of a broadcast of 300 bytes. -/
example : (ipHeader 0 0xFFFFFFFF 300).withChecksum.check = swap16 0x79A6 := by
  decide +kernel

end AndroidX86Tv.Dhcp
