import AndroidX86Tv.Dhcp.Message

/-!
# Messages that carry an option list

`Carries m fs tail` relates a message to the fields in its options: the cookie,
the encoded fields and a tail, up to the end of the message. The builders
establish it and `getOption` is read off it.
-/

namespace AndroidX86Tv.Dhcp

open ByteMemory CodeFields

namespace Message

/-- The options are the cookie, the fields and the tail. -/
structure Carries (m : Message) (fs : List Field) (tail : List UInt8) : Prop where
  size : m.mSize = offsetOptions + (cookie ++ encode fs ++ tail).length
  bytes : Holds m.dhcpData offsetOptions (cookie ++ encode fs ++ tail)

/-- The option with a one-byte or four-byte value that the builders add. -/
def byteField (code v : UInt8) : Field := ⟨code, [v], by simp⟩

def wordField (code : UInt8) (v : UInt32) : Field := ⟨code, bytes32 v, by simp⟩

theorem bytes32_short (v : UInt32) : (bytes32 v).length ≤ 255 := by simp

theorem Carries.optionsSize {m : Message} {fs : List Field} {tail : List UInt8}
    (h : Carries m fs tail) : m.optionsSize = 4 + (encode fs).length + tail.length := by
  rw [Message.optionsSize, h.size]
  simp only [List.length_append, cookie, List.length_cons, List.length_nil]
  omega

theorem Carries.le_size {m : Message} {fs : List Field} {tail : List UInt8}
    (h : Carries m fs tail) : offsetOptions + 4 ≤ m.mSize := by
  rw [h.size]
  simp only [List.length_append, cookie, List.length_cons, List.length_nil]
  omega

theorem Carries.holds_fields {m : Message} {fs : List Field} {tail : List UInt8}
    (h : Carries m fs tail) : Holds m.dhcpData (offsetOptions + 4) (encode fs ++ tail) := by
  have hbytes := h.bytes
  rw [List.append_assoc] at hbytes
  exact ((holds_append _ _ cookie _).mp hbytes).2

theorem create_carries (operation : UInt8) (macAddress : Mac) (type : UInt8)
    (transactionId : UInt32) :
    Carries (create operation macAddress type transactionId) [byteField optMessageType type] [] :=
  ⟨rfl, holds_store _ _ _⟩

/-- A store in front of the options leaves what they carry. -/
theorem Carries.store_header {m : Message} {fs : List Field} {tail : List UInt8}
    (h : Carries m fs tail) {p : Nat} {bytes : List UInt8} (hp : p + bytes.length ≤ 236) :
    Carries { m with dhcpData := store m.dhcpData p bytes } fs tail :=
  ⟨h.size, h.bytes.store (Or.inl (offsetOptions_eq ▸ hp))⟩

theorem Carries.setXid {m : Message} {fs : List Field} {tail : List UInt8}
    (h : Carries m fs tail) (v : UInt32) : Carries (m.setXid v) fs tail :=
  h.store_header (by simp)

theorem Carries.setFlags {m : Message} {fs : List Field} {tail : List UInt8}
    (h : Carries m fs tail) (v : UInt16) : Carries (m.setFlags v) fs tail :=
  h.store_header (by simp)

theorem Carries.setYiaddr {m : Message} {fs : List Field} {tail : List UInt8}
    (h : Carries m fs tail) (v : InAddr) : Carries (m.setYiaddr v) fs tail :=
  h.store_header (by simp)

theorem Carries.setGiaddr {m : Message} {fs : List Field} {tail : List UInt8}
    (h : Carries m fs tail) (v : InAddr) : Carries (m.setGiaddr v) fs tail :=
  h.store_header (by simp)

theorem addOption_carries {m : Message} {fs : List Field} (h : Carries m fs []) (code : UInt8)
    {data : List UInt8} {size : UInt8} (hsize : size.toNat ≤ data.length) :
    Carries (m.addOption code data size)
      (fs ++ [⟨code, data.take size.toNat, by
        have := size.toNat_lt
        rw [List.length_take]
        omega⟩]) [] := by
  have hlen : (data.take size.toNat).length = size.toNat := by
    rw [List.length_take]
    omega
  have hopts : code :: size :: data.take size.toNat =
      Field.bytes ⟨code, data.take size.toNat, by rw [hlen]; have := size.toNat_lt; omega⟩ := by
    simp [Field.bytes, hlen]
  have hend : m.mSize = offsetOptions + (cookie ++ encode fs).length := by
    rw [h.size, List.append_nil]
  constructor
  · simp only [addOption, hopts, h.size, List.append_nil, encode_append, encode_cons, encode_nil,
      List.length_append]
    omega
  · simp only [addOption, hopts, List.append_nil, encode_append, encode_cons, encode_nil]
    rw [← List.append_assoc]
    apply (holds_append _ _ _ _).mpr
    constructor
    · have hold : Holds m.dhcpData offsetOptions (cookie ++ encode fs) := by simpa using h.bytes
      exact hold.store (Or.inr (Nat.le_of_eq hend.symm))
    · rw [← hend]
      apply holds_store

theorem addOptionOf_carries {m : Message} {fs : List Field} (h : Carries m fs []) (code : UInt8)
    {data : List UInt8} (hdata : data.length ≤ 255) :
    Carries (m.addOptionOf code data) (fs ++ [⟨code, data, hdata⟩]) [] := by
  have hsize : (UInt8.ofNat data.length).toNat = data.length := by
    rw [UInt8.toNat_ofNat']
    omega
  have hadd := addOption_carries h code (Nat.le_of_eq hsize)
  simpa only [addOptionOf, hsize, List.take_length] using hadd

theorem endOptions_carries {m : Message} {fs : List Field} (h : Carries m fs []) :
    Carries m.endOptions fs [optEnd] := by
  have hend : m.mSize = offsetOptions + (cookie ++ encode fs).length := by
    rw [h.size, List.append_nil]
  constructor
  · simp only [endOptions, hend, List.length_append, List.length_cons, List.length_nil]
    omega
  · simp only [endOptions]
    apply (holds_append _ _ _ _).mpr
    constructor
    · have hold : Holds m.dhcpData offsetOptions (cookie ++ encode fs) := by simpa using h.bytes
      exact hold.store (Or.inr (Nat.le_of_eq hend.symm))
    · rw [← hend]
      apply holds_store

/-- The bytes stand inside the message, where the builders do not write again. -/
structure HasBytes (m : Message) (p : Nat) (bytes : List UInt8) : Prop where
  inside : p + bytes.length ≤ m.mSize
  holds : Holds m.dhcpData p bytes

theorem HasBytes.addOption {m : Message} {p : Nat} {bytes : List UInt8} (h : HasBytes m p bytes)
    (code : UInt8) (data : List UInt8) (size : UInt8) :
    HasBytes (m.addOption code data size) p bytes :=
  ⟨Nat.le_add_right_of_le h.inside, h.holds.store (Or.inr h.inside)⟩

theorem HasBytes.addOptionOf {m : Message} {p : Nat} {bytes : List UInt8} (h : HasBytes m p bytes)
    (code : UInt8) (data : List UInt8) : HasBytes (m.addOptionOf code data) p bytes :=
  h.addOption code data _

theorem HasBytes.endOptions {m : Message} {p : Nat} {bytes : List UInt8}
    (h : HasBytes m p bytes) : HasBytes m.endOptions p bytes :=
  ⟨Nat.le_add_right_of_le h.inside, h.holds.store (Or.inr h.inside)⟩

/-- The result of `getOption` is the expected value, or there is none. -/
def Finds (m : Message) (expected : Option (List UInt8)) (result : Option (Nat × UInt8)) : Prop :=
  match expected with
  | none => result = none
  | some value => ∃ opt, result = some (opt, UInt8.ofNat value.length) ∧
      Holds m.dhcpData (offsetOptions + opt) value

/-- One turn of the walk over a field. -/
theorem getOptionFrom_field {m : Message} {i : Nat} {f : Field} {rest : List UInt8}
    (hbytes : Holds m.dhcpData (offsetOptions + i) (f.bytes ++ rest))
    (hroom : i + 2 < m.optionsSize) (hcode : f.code ≠ optEnd) (c : UInt8) :
    m.getOptionFrom c i = if f.code = c then some (i + 2, UInt8.ofNat f.value.length)
      else m.getOptionFrom c (i + 2 + f.value.length) := by
  obtain ⟨hc, hl, -, -⟩ := holds_encode_cons hbytes
  have hopt : m.option i = f.code := by rw [option, hc]
  have hlen : m.option (i + 1) = UInt8.ofNat f.value.length := by
    rw [option, ← Nat.add_assoc, hl]
  rw [getOptionFrom, if_pos hroom, hopt, hlen, if_neg hcode, f.toNat_length]

theorem getOptionFrom_short {m : Message} {i : Nat} (h : m.optionsSize ≤ i + 2) (c : UInt8) :
    m.getOptionFrom c i = none := by
  rw [getOptionFrom, if_neg (by omega)]

theorem getOptionFrom_end {m : Message} {i : Nat} (h : m.option i = optEnd) (c : UInt8) :
    m.getOptionFrom c i = none := by
  rw [getOptionFrom, if_pos h]
  exact ite_self none

/-- Every field but an empty one at the end of the message is looked at. -/
def Seen (fs : List Field) (rest : List UInt8) : Prop :=
  rest ≠ [] ∨ ∀ f, fs.getLast? = some f → f.value ≠ []

theorem Seen.tail {f : Field} {fs : List Field} {rest : List UInt8} (h : Seen (f :: fs) rest) :
    Seen fs rest := by
  refine h.imp id fun hlast g hg => hlast g ?_
  cases fs with
  | nil => simp at hg
  | cons g' fs => simpa using hg

theorem Seen.pos {f : Field} {fs : List Field} {rest : List UInt8} (h : Seen (f :: fs) rest) :
    0 < f.value.length + (encode fs).length + rest.length := by
  cases h with
  | inl hrest =>
      have := List.length_pos_iff.mpr hrest
      omega
  | inr hlast =>
      cases fs with
      | nil =>
          have := List.length_pos_iff.mpr (hlast f rfl)
          omega
      | cons g fs =>
          rw [encode_cons, List.length_append, Field.bytes_length]
          omega

/-- The walk over encoded fields finds the first one with the code, or goes on
behind them. -/
theorem getOptionFrom_fields {m : Message} {fs : List Field} {rest : List UInt8} {i : Nat}
    (hbytes : Holds m.dhcpData (offsetOptions + i) (encode fs ++ rest))
    (hsize : m.optionsSize = i + (encode fs).length + rest.length)
    (hcodes : ∀ f ∈ fs, f.code ≠ optEnd) (hseen : Seen fs rest) (c : UInt8) :
    match lookup c fs with
    | some value => Finds m (some value) (m.getOptionFrom c i)
    | none => m.getOptionFrom c i = m.getOptionFrom c (i + (encode fs).length) := by
  induction fs generalizing i with
  | nil => rfl
  | cons f fs ih =>
      rw [encode_cons, List.append_assoc] at hbytes
      obtain ⟨-, -, hvalue, hrest⟩ := holds_encode_cons hbytes
      rw [encode_cons, List.length_append, Field.bytes_length] at hsize
      have hpos := hseen.pos
      rw [getOptionFrom_field hbytes (by omega) (hcodes f (by simp))]
      split_ifs with heq
      · rw [lookup_cons_self heq]
        exact ⟨i + 2, rfl, hvalue⟩
      · rw [lookup_cons_ne heq, encode_cons, List.length_append, Field.bytes_length,
          ← Nat.add_assoc i, ← Nat.add_assoc i]
        apply ih
        · rwa [Nat.add_assoc (offsetOptions + i), Nat.add_assoc offsetOptions, ← Nat.add_assoc i]
            at hrest
        · omega
        · exact fun g hg => hcodes g (by simp [hg])
        · exact hseen.tail

/-- `getOption` on a message that carries fields, if the walk stops behind them. -/
theorem getOption_finds {m : Message} {fs : List Field} {tail : List UInt8}
    (h : Carries m fs tail) (hcodes : ∀ f ∈ fs, f.code ≠ optEnd) (hseen : Seen fs tail) (c : UInt8)
    (hstop : m.getOptionFrom c (4 + (encode fs).length) = none) :
    Finds m (lookup c fs) (m.getOption c) := by
  have hwalk := getOptionFrom_fields h.holds_fields h.optionsSize hcodes hseen c
  cases hlookup : lookup c fs with
  | some value =>
      rw [hlookup] at hwalk
      exact hwalk
  | none =>
      rw [hlookup] at hwalk
      exact hwalk.trans hstop

/-- What follows the fields stands behind them in the options. -/
theorem Carries.option_tail {m : Message} {fs : List Field} {b : UInt8} {tail : List UInt8}
    (h : Carries m fs (b :: tail)) : m.option (4 + (encode fs).length) = b := by
  have htail := ((holds_append _ _ (encode fs) _).mp h.holds_fields).2.1
  rwa [Nat.add_assoc] at htail

theorem getOption_end {m : Message} {fs : List Field} {trailing : List UInt8}
    (h : Carries m fs (optEnd :: trailing)) (hcodes : ∀ f ∈ fs, f.code ≠ optEnd) (c : UInt8) :
    Finds m (lookup c fs) (m.getOption c) :=
  getOption_finds h hcodes (Or.inl (List.cons_ne_nil _ _)) c (getOptionFrom_end h.option_tail c)

theorem type_of_finds {m : Message} {t : UInt8}
    (h : Finds m (some [t]) (m.getOption optMessageType)) : m.type = t := by
  obtain ⟨opt, hget, hvalue⟩ := h
  rw [type, hget]
  exact hvalue.1

theorem addressOption_of_finds {m : Message} {code : UInt8} {address : InAddr}
    (h : Finds m (some (bytes32 address)) (m.getOption code)) : m.addressOption code = address := by
  obtain ⟨opt, hget, hvalue⟩ := h
  rw [addressOption, hget]
  exact load32_of_holds hvalue

/-- The checks that `isValidDhcpMessage` makes. -/
theorem isValidDhcpMessage_of_carries {m : Message} {fs : List Field} {tail : List UInt8}
    (h : Carries m fs tail) {operation : UInt8}
    (hstart : Holds m.dhcpData 0 [operation, htypeEther, ethAlen, 0]) :
    m.isValidDhcpMessage operation m.xid = true := by
  have hcookie := h.bytes
  rw [List.append_assoc] at hcookie
  obtain ⟨h0, h1, h2, h3, -⟩ := ((holds_append _ _ cookie _).mp hcookie).1
  obtain ⟨hop, htype, hlen, -⟩ := hstart
  have hsize := h.le_size
  have hoptions : [m.option 0, m.option 1, m.option 2, m.option 3] = cookie := by
    simp only [option, Nat.add_zero, h0, h1, h2, h3, cookie]
  have hbig : ¬ offsetOptions + 4 > m.mSize := by omega
  rw [isValidDhcpMessage, isValidDhcpOp, if_neg hbig, op, hop, Message.htype, htype, Message.hlen,
    hlen, hoptions]
  simp

theorem create_hasXid (operation : UInt8) (macAddress : Mac) (type : UInt8)
    (transactionId : UInt32) : HasBytes (create operation macAddress type transactionId) 4
      (bytes32 (swap32 transactionId)) := by
  constructor
  · simp [create, offsetOptions_eq]
  · exact ((holds_store _ _ _).store (by simp)).store (by simp [offsetOptions_eq])

section

variable (sourceMac : Mac) (transactionId : UInt32)

theorem discover_xid : (discover sourceMac transactionId).xid = swap32 transactionId := by
  apply load32_of_holds
  exact ((create_hasXid _ _ _ _).addOptionOf _ _).endOptions.holds

theorem discover_carries : Carries (discover sourceMac transactionId)
    [byteField optMessageType dhcpDiscover, ⟨optParameterList, kRequestParameters, by decide⟩]
    [optEnd] :=
  endOptions_carries (addOptionOf_carries
    (create_carries opBootRequest sourceMac dhcpDiscover transactionId) optParameterList
    (by decide))

theorem discover_type : (discover sourceMac transactionId).type = dhcpDiscover := by
  apply type_of_finds
  exact getOption_end (discover_carries sourceMac transactionId)
    (by simp [byteField, optMessageType, optParameterList, optEnd]) optMessageType

/-- The options of a REQUEST, in their order. -/
def requestFields (requestAddress serverAddress : InAddr) : List Field :=
  [byteField optMessageType dhcpRequest, ⟨optParameterList, kRequestParameters, by decide⟩,
    wordField optRequestedIp requestAddress, wordField optServerId serverAddress]

variable (requestAddress serverAddress : InAddr)

theorem request_xid : (request sourceMac requestAddress serverAddress transactionId).xid =
    swap32 transactionId := by
  apply load32_of_holds
  exact ((((create_hasXid _ _ _ _).addOptionOf _ _).addOptionOf _ _).addOptionOf
    _ _).endOptions.holds

theorem request_carries : Carries (request sourceMac requestAddress serverAddress transactionId)
    (requestFields requestAddress serverAddress) [optEnd] := by
  have htype := create_carries opBootRequest sourceMac dhcpRequest transactionId
  have hshort : kRequestParameters.length ≤ 255 := by decide
  have hparameters := addOptionOf_carries htype optParameterList hshort
  have hip := addOptionOf_carries hparameters optRequestedIp (bytes32_short requestAddress)
  exact endOptions_carries (addOptionOf_carries hip optServerId (bytes32_short serverAddress))

theorem request_finds (c : UInt8) :
    Finds (request sourceMac requestAddress serverAddress transactionId)
      (lookup c (requestFields requestAddress serverAddress))
      ((request sourceMac requestAddress serverAddress transactionId).getOption c) :=
  getOption_end (request_carries sourceMac transactionId requestAddress serverAddress)
    (by simp [requestFields, byteField, wordField, optMessageType, optParameterList,
      optRequestedIp, optServerId, optEnd]) c

theorem request_type :
    (request sourceMac requestAddress serverAddress transactionId).type = dhcpRequest :=
  type_of_finds (request_finds sourceMac transactionId requestAddress serverAddress optMessageType)

theorem request_requestedIp :
    (request sourceMac requestAddress serverAddress transactionId).requestedIp =
      requestAddress :=
  addressOption_of_finds
    (request_finds sourceMac transactionId requestAddress serverAddress optRequestedIp)

theorem request_serverId :
    (request sourceMac requestAddress serverAddress transactionId).serverId = serverAddress :=
  addressOption_of_finds
    (request_finds sourceMac transactionId requestAddress serverAddress optServerId)

end

end Message

end AndroidX86Tv.Dhcp
