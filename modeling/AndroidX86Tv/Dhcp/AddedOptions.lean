import AndroidX86Tv.Dhcp.Carries

/-!
# Options that are added are found

A message is built by the constructor, calls of `addOption` and `endOptions`. By
induction on the calls it carries the options that they add, in their order, so
`getOption` finds the first one with a code.
-/

namespace AndroidX86Tv.Dhcp

open ByteMemory CodeFields

/-- A call of one of the overloads of `addOption`. What a pointer points to is at
least as long as the size that is given with it. -/
inductive OptionCall where
  | pointer (type : UInt8) (data : List UInt8) (size : UInt8) (readable : size.toNat ≤ data.length)
  | value (type : UInt8) (data : List UInt8) (short : data.length ≤ 255)
  | array (type : UInt8) (items : List (List UInt8)) (short : items.flatten.length ≤ 255)

namespace OptionCall

/-- The option that the call adds. -/
def field : OptionCall → Field
  | pointer type data size readable => ⟨type, data.take size.toNat, by
      have := size.toNat_lt
      rw [List.length_take]
      omega⟩
  | value type data short => ⟨type, data, short⟩
  | array type items short => ⟨type, items.flatten, short⟩

def apply (m : Message) : OptionCall → Message
  | pointer type data size _ => m.addOption type data size
  | value type data _ => m.addOptionOf type data
  | array type items _ => m.addOptionOf type items.flatten

end OptionCall

namespace Message

def addOptions (m : Message) (calls : List OptionCall) : Message := calls.foldl OptionCall.apply m

/-- The options of a message, that of the constructor first. -/
def addedFields (type : UInt8) (calls : List OptionCall) : List Field :=
  byteField optMessageType type :: calls.map OptionCall.field

/-- The message ends in its options array, and every code finds the first option
with it, as it was added. -/
structure ReadsBack (m : Message) (fs : List Field) : Prop where
  fits : m.mSize ≤ capacity
  finds : ∀ c, Finds m (lookup c fs) (m.getOption c)

/-- A valid REQUEST for the address from the server. -/
structure IsRequest (m : Message) (requestAddress serverAddress : InAddr) : Prop where
  valid : m.isValidDhcpOp opBootRequest = true
  type : m.type = dhcpRequest
  requestedIp : m.requestedIp = requestAddress
  serverId : m.serverId = serverAddress

theorem apply_carries {m : Message} {fs : List Field} (h : Carries m fs [])
    (call : OptionCall) : Carries (call.apply m) (fs ++ [call.field]) [] := by
  cases call with
  | pointer type data size readable => exact addOption_carries h type readable
  | value type data short => exact addOptionOf_carries h type short
  | array type items short => exact addOptionOf_carries h type short

theorem addOptions_carries {m : Message} {fs : List Field} (h : Carries m fs [])
    (calls : List OptionCall) :
    Carries (m.addOptions calls) (fs ++ calls.map OptionCall.field) [] := by
  induction calls generalizing m fs with
  | nil => simpa [addOptions] using h
  | cons call calls ih =>
      have hrest := ih (apply_carries h call)
      rwa [List.append_assoc, List.singleton_append, ← List.map_cons] at hrest

section

variable (operation : UInt8) (macAddress : Mac) (type : UInt8) (transactionId : UInt32)

theorem closed_carries (calls : List OptionCall) :
    Carries ((create operation macAddress type transactionId).addOptions calls).endOptions
      (addedFields type calls) [optEnd] :=
  endOptions_carries (addOptions_carries (create_carries operation macAddress type transactionId)
    calls)

theorem addedFields_code {calls : List OptionCall}
    (hcodes : ∀ call ∈ calls, call.field.code ≠ optEnd) :
    ∀ f ∈ addedFields type calls, f.code ≠ optEnd := by
  intro f hf
  rcases List.mem_cons.mp hf with rfl | hcall
  · simp [byteField, optMessageType, optEnd]
  · obtain ⟨call, hmem, rfl⟩ := List.mem_map.mp hcall
    exact hcodes call hmem

theorem create_start : HasBytes (create operation macAddress type transactionId) 0
    [operation, htypeEther, ethAlen, 0] := by
  constructor
  · simp [create, offsetOptions_eq]
  · exact ((((holds_store _ _ _).store (by simp)).store (by simp)).store (by simp)).store
      (by simp [offsetOptions_eq])

theorem request_isRequest (sourceMac : Mac) (requestAddress serverAddress : InAddr) :
    IsRequest (request sourceMac requestAddress serverAddress transactionId) requestAddress
      serverAddress := by
  have hstart : HasBytes (request sourceMac requestAddress serverAddress transactionId) 0
      [opBootRequest, htypeEther, ethAlen, 0] :=
    ((((create_start _ _ _ _).addOptionOf _ _).addOptionOf _ _).addOptionOf _ _).endOptions
  have hvalid := isValidDhcpMessage_of_carries
    (request_carries sourceMac transactionId requestAddress serverAddress) hstart.holds
  rw [isValidDhcpMessage, Bool.and_eq_true] at hvalid
  constructor
  · exact hvalid.1
  · exact request_type sourceMac transactionId requestAddress serverAddress
  · exact request_requestedIp sourceMac transactionId requestAddress serverAddress
  · exact request_serverId sourceMac transactionId requestAddress serverAddress

/-- What the calls add is read back, and so is every REQUEST. -/
theorem addOptions_readsBack {calls : List OptionCall}
    (hcodes : ∀ call ∈ calls, call.field.code ≠ optEnd)
    (hfits : 4 + (encode (addedFields type calls)).length + 1 ≤ 1024) :
    ReadsBack ((create operation macAddress type transactionId).addOptions calls).endOptions
        (addedFields type calls) ∧
      ∀ (sourceMac : Mac) (requestAddress serverAddress : InAddr) (transactionId : UInt32),
        IsRequest (request sourceMac requestAddress serverAddress transactionId) requestAddress
          serverAddress := by
  have hcarries := closed_carries operation macAddress type transactionId calls
  refine ⟨⟨?_, getOption_end hcarries (addedFields_code type hcodes)⟩, fun sourceMac
    requestAddress serverAddress transactionId =>
      request_isRequest transactionId sourceMac requestAddress serverAddress⟩
  have hsize := hcarries.size
  simp only [List.length_append, cookie, List.length_cons, List.length_nil, offsetOptions_eq]
    at hsize
  rw [hsize, capacity]
  omega

end

/-- An empty option, one whose value looks like options, and a second one with its
code. -/
def lookalikes : List OptionCall :=
  [.value optPad [] (by decide), .pointer 12 [optServerId, 4, optEnd, 9] 3 (by decide),
    .array 12 [[1, 2], [3, 4]] (by decide)]

theorem lookalikes_readsBack :
    ReadsBack ((create opBootReply (Vector.replicate 6 0) dhcpAck 7).addOptions
      lookalikes).endOptions (addedFields dhcpAck lookalikes) :=
  have hcodes : ∀ call ∈ lookalikes, call.field.code ≠ optEnd := by decide
  (addOptions_readsBack opBootReply (Vector.replicate 6 0) dhcpAck 7 hcodes (by decide)).1

/-- The second option with the code is not the one that is found. -/
example : ((create opBootReply (Vector.replicate 6 0) dhcpAck 7).addOptions
    lookalikes).endOptions.getOption 12 = some (11, 3) := by decide +kernel

end Message

end AndroidX86Tv.Dhcp
