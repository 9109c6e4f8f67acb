import AndroidX86Tv.Dhcp.Datagram
import AndroidX86Tv.Dhcp.Reply

/-!
# UDP checksums that compute to zero

In a datagram a UDP checksum of zero says that there is none. `sendRawUdp` sends
what it computes, which is zero whenever the words that the checksum covers add
up to a multiple of 65535.
-/

namespace AndroidX86Tv.Dhcp

open ByteMemory OnesComplement

/-- The words that the checksum covers, added up: both addresses, the protocol,
the length (in the pseudo header and in the header), the ports and the message. -/
def udpTotal (source : InAddr) (sourcePort : UInt16) (destination : InAddr)
    (destinationPort : UInt16) (message : Message) : Nat :=
  (words networkWord (bytes32 source)).sum + (words networkWord (bytes32 destination)).sum +
    ipProtoUdp.toNat + 2 * (sizeofUdp + message.mSize) + sourcePort.toNat +
    destinationPort.toNat + (words networkWord message.bytes).sum

/-- The checksum is zero where what it covers vanishes modulo 65535. -/
theorem UdpHdr.check_eq_zero_iff (udp : UdpHdr) (ip : IpHdr) {data : List UInt8}
    (hdata : data.length ≤ 65535) : (udp.withChecksum ip data).check.toNat = 0 ↔
      (words networkWord (covered ip udp data)).sum % 65535 = 0 := by
  have hshort : ∀ buffer ∈ udpBuffers ip udp data, buffer.length ≤ 65535 := by
    simp [udpBuffers, sizeofUdp, hdata]
  have hstart : (0 : UInt32).toNat < 65536 := by decide
  obtain ⟨hlt, hmod⟩ := addChecksums_toNat hshort hstart
  have hzero := addChecksums_eq_zero_iff hshort hstart
  have hsome := sum_covered_ne_zero ip udp data
  rw [UInt32.toNat_zero, Nat.zero_add, ← sum_covered] at hmod hzero
  have hcheck : (udp.withChecksum ip data).check.toNat =
      65535 - (addChecksums (udpBuffers ip udp data) 0).toNat := by
    rw [withChecksum, UInt32.toNat_toUInt16, finishChecksum_toNat hlt]
    omega
  rw [hcheck, networkWords_sum_mod]
  omega

section

variable (source destination : InAddr) (sourcePort destinationPort : UInt16) (message : Message)

/-- A 16-bit value that was swapped for the network is one word there. -/
theorem words_swap16 (v : UInt16) : words networkWord (bytes16 (swap16 v)) = [v.toNat] := by
  rw [← networkWord_swap16 v]
  rfl

theorem udpHeader_len {size : Nat} (hsize : sizeofUdp + size < 65536) :
    words networkWord (bytes16 (udpHeader sourcePort destinationPort size).len) =
      [sizeofUdp + size] := by
  rw [udpHeader, words_swap16, UInt16.toNat_ofNat', Nat.mod_eq_of_lt hsize]

/-- The words of the header on the network, without its checksum. -/
theorem udpHeader_words {size : Nat} (hsize : sizeofUdp + size < 65536) :
    words networkWord (udpHeader sourcePort destinationPort size).bytes =
      [sourcePort.toNat, destinationPort.toNat, sizeofUdp + size, 0] := by
  have hhalf : ∀ v : UInt16, (bytes16 v).length % 2 = 0 := fun _ => show 2 % 2 = 0 from rfl
  have hlen := udpHeader_len sourcePort destinationPort hsize
  rw [UdpHdr.bytes, List.append_assoc, List.append_assoc, words_append (hhalf _),
    words_append (hhalf _), words_append (hhalf _), hlen]
  simp only [udpHeader, words_swap16]
  rfl

theorem sum_covered_eq (hsize : sizeofUdp + message.mSize < 65536) :
    (words networkWord (covered (ipHeader source destination message.mSize).withChecksum
        (udpHeader sourcePort destinationPort message.mSize) message.bytes)).sum =
      udpTotal source sourcePort destination destinationPort message := by
  have hword : ∀ v : UInt32, (bytes32 v).length % 2 = 0 := fun _ => show 4 % 2 = 0 from rfl
  have hhalf : ∀ v : UInt16, (bytes16 v).length % 2 = 0 := fun _ => show 2 % 2 = 0 from rfl
  have hheader : (udpHeader sourcePort destinationPort message.mSize).bytes.length % 2 = 0 :=
    show 8 % 2 = 0 from rfl
  have hprotocol : ipProtoUdp.toUInt16.toNat = ipProtoUdp.toNat := by decide
  rw [covered, words_append (hword _), words_append (hword _), words_append (hhalf _),
    words_append (hhalf _), words_append hheader, words_swap16, udpHeader_len _ _ hsize,
    udpHeader_words _ _ hsize]
  simp only [List.sum_append, List.sum_cons, List.sum_nil, hprotocol, udpTotal, IpHdr.withChecksum,
    ipHeader]
  omega

/-- A 16-bit value is zero in either order of its bytes. -/
theorem networkWord_bytes16_eq_zero_iff (v : UInt16) :
    networkWord (UInt8.ofNat v.toNat) (UInt8.ofNat (v.toNat / 256)) = 0 ↔ v.toNat = 0 := by
  have hv := v.toNat_lt
  rw [networkWord, UInt8.toNat_ofNat', UInt8.toNat_ofNat']
  omega

/-- The checksum of what `sendRawUdp` sends is zero, and so no checksum, exactly if
the words that it covers add up to a multiple of 65535. -/
theorem sendRawUdp_check_ne_zero_iff (hsize : message.mSize ≤ Message.capacity) :
    networkField (sendRawUdp source sourcePort destination destinationPort message) 26 ≠ 0 ↔
      ¬ 65535 ∣ udpTotal source sourcePort destination destinationPort message := by
  have hcapacity : message.mSize ≤ 1260 := hsize
  have hfits : sizeofUdp + message.mSize < 65536 := by
    rw [sizeofUdp]
    omega
  have hbytes : message.bytes.length ≤ 65535 := by
    rw [Message.bytes_length]
    omega
  have hzero := UdpHdr.check_eq_zero_iff (udpHeader sourcePort destinationPort message.mSize)
    (ipHeader source destination message.mSize).withChecksum hbytes
  rw [sum_covered_eq source destination sourcePort destinationPort message hfits] at hzero
  rw [Nat.dvd_iff_mod_eq_zero, ← hzero]
  exact not_congr (networkWord_bytes16_eq_zero_iff _)

end

theorem oddMessage_check_ne_zero :
    networkField (sendRawUdp 0 68 0xFFFFFFFF 67 oddMessage) 26 ≠ 0 :=
  (sendRawUdp_check_ne_zero_iff 0 0xFFFFFFFF 68 67 oddMessage (by decide)).mpr
    (by decide +kernel)

/-- The 34315th message of a client, if it is a DISCOVER, is sent without a checksum. -/
theorem discover_check_zero : ¬ ∀ (source : InAddr) (sourcePort : UInt16) (destination : InAddr)
    (destinationPort : UInt16) (message : Message), message.mSize ≤ Message.capacity →
      networkField (sendRawUdp source sourcePort destination destinationPort message) 26 ≠ 0 := by
  intro h
  exact h 0 68 0xFFFFFFFF 67 (Message.discover deviceMac 34315) (by decide +kernel)
    (by decide +kernel)

end AndroidX86Tv.Dhcp
