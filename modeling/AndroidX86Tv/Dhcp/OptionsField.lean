import AndroidX86Tv.Dhcp.DhcpInfo

/-!
# Options fields in the format of dhcp.h

An options field is the cookie, a sequence of pads and options, and `OPT_END`
or the end of the message. `getOption` and the loop of `configureDhcp` are
compared with it. Neither knows `OPT_PAD`: both take the byte behind a pad for
a length.
-/

namespace AndroidX86Tv.Dhcp

open ByteMemory CodeFields

inductive Item where
  | pad
  | option (f : Field)

namespace Item

def bytes : Item → List UInt8
  | pad => [optPad]
  | option f => f.bytes

def field? : Item → Option Field
  | pad => none
  | option f => some f

/-- The options in front of the first pad. -/
theorem split_at_pad (items : List Item) :
    ∃ (fs : List Field) (rest : List Item), items = fs.map option ++ rest ∧
      (rest = [] ∨ ∃ rest', rest = pad :: rest') := by
  induction items with
  | nil => exact ⟨[], [], rfl, Or.inl rfl⟩
  | cons item items ih =>
      cases item with
      | pad => exact ⟨[], pad :: items, rfl, Or.inr ⟨items, rfl⟩⟩
      | option f =>
          obtain ⟨fs, rest, rfl, hrest⟩ := ih
          exact ⟨f :: fs, rest, rfl, hrest⟩

theorem bytes_pos (item : Item) : 0 < item.bytes.length := by
  cases item with
  | pad => exact Nat.one_pos
  | option f => apply Nat.succ_pos

/-- Less than two bytes hold a pad at most. -/
theorem of_short {items : List Item} (h : (items.flatMap bytes).length < 2) :
    items = [] ∨ items = [pad] := by
  cases items with
  | nil => exact Or.inl rfl
  | cons item rest =>
      rw [List.flatMap_cons, List.length_append] at h
      cases item with
      | option f =>
          rw [bytes, Field.bytes_length] at h
          omega
      | pad =>
          cases rest with
          | nil => exact Or.inr rfl
          | cons item rest =>
              have hpos := bytes_pos item
              rw [List.flatMap_cons, List.length_append, bytes, List.length_singleton] at h
              omega

@[simp] theorem flatMap_options (fs : List Field) :
    (fs.map option).flatMap bytes = encode fs := by
  rw [List.flatMap_map]
  rfl

@[simp] theorem filterMap_options (fs : List Field) :
    (fs.map option).filterMap field? = fs := by
  rw [List.filterMap_map]
  exact List.filterMap_some

end Item

structure OptionsField where
  items : List Item
  /-- What follows `OPT_END`; none if the message ends without it. -/
  trailing : Option (List UInt8)
  codes : ∀ f ∈ items.filterMap Item.field?, f.code ≠ optPad ∧ f.code ≠ optEnd
  nodup : ((items.filterMap Item.field?).map Field.code).Nodup

namespace OptionsField

def fields (o : OptionsField) : List Field := o.items.filterMap Item.field?

theorem codes_fields (o : OptionsField) : ∀ f ∈ o.fields, f.code ≠ optPad ∧ f.code ≠ optEnd :=
  o.codes

theorem nodup_fields (o : OptionsField) : (o.fields.map Field.code).Nodup := o.nodup

def ending (o : OptionsField) : List UInt8 :=
  match o.trailing with
  | some bytes => optEnd :: bytes
  | none => []

def bytes (o : OptionsField) : List UInt8 := cookie ++ o.items.flatMap Item.bytes ++ o.ending

/-- No pad, and no empty option that ends the message; or one or two pads that
end the message. -/
def Plain (o : OptionsField) : Prop :=
  (o.items = o.fields.map Item.option ∧
      (o.trailing = none → ∀ f, o.fields.getLast? = some f → f.value ≠ [])) ∨
    (o.trailing = none ∧ (o.items = o.fields.map Item.option ++ [Item.pad] ∨
      o.items = o.fields.map Item.option ++ [Item.pad, Item.pad]))

end OptionsField

/-- The options of the message are the field, up to the end of the message. -/
structure Message.HasOptions (m : Message) (o : OptionsField) : Prop where
  size : m.mSize = offsetOptions + o.bytes.length
  bytes : Holds m.dhcpData offsetOptions o.bytes

/-- `getOption` finds the options that are there and no others, and
`configureDhcp` stores the values of those it knows. -/
structure ReadsOptions (m : Message) (o : OptionsField) : Prop where
  getOption : ∀ c, m.Finds (lookup c o.fields) (m.getOption c)
  configureDhcp : ∀ old, m.readOptions old =
    (true, some { DhcpInfo.ofFields o.fields with offeredAddress := m.yiaddr })

section

variable {m : Message} {o : OptionsField}

theorem Message.HasOptions.carries (h : m.HasOptions o) {fs : List Field} {rest : List Item}
    (hitems : o.items = fs.map Item.option ++ rest) :
    Message.Carries m fs (rest.flatMap Item.bytes ++ o.ending) := by
  have hbytes : o.bytes = cookie ++ encode fs ++ (rest.flatMap Item.bytes ++ o.ending) := by
    rw [OptionsField.bytes, hitems, List.flatMap_append, Item.flatMap_options]
    simp only [List.append_assoc]
  exact ⟨hbytes ▸ h.size, hbytes ▸ h.bytes⟩

theorem fields_of_items {fs : List Field} {rest : List Item}
    (hitems : o.items = fs.map Item.option ++ rest) :
    o.fields = fs ++ rest.filterMap Item.field? := by
  rw [OptionsField.fields, hitems, List.filterMap_append, Item.filterMap_options]

theorem codes_of_items {fs : List Field} {rest : List Item}
    (hitems : o.items = fs.map Item.option ++ rest) :
    ∀ f ∈ fs, f.code ≠ optPad ∧ f.code ≠ optEnd := by
  intro f hf
  apply o.codes_fields
  rw [fields_of_items hitems]
  exact List.mem_append_left _ hf

theorem optionLoop_two_pads {fs : List Field} (h : m.Carries fs [optPad, optPad])
    (info : DhcpInfo) : m.optionLoop info (4 + (encode fs).length) = (true, info) := by
  have hpads := ((holds_append _ _ (encode fs) _).mp h.holds_fields).2
  rw [Nat.add_assoc] at hpads
  have hsize : m.mSize = offsetOptions + (4 + (encode fs).length) + 2 := by
    rw [h.size]
    simp only [List.length_append, cookie, List.length_cons, List.length_nil]
    omega
  -- the two pads are taken for an empty option with code zero
  let pad : Field := ⟨optPad, [], by simp⟩
  have hpad : Holds m.dhcpData (offsetOptions + (4 + (encode fs).length)) (pad.bytes ++ []) := hpads
  rw [Message.optionLoop_field hpad hsize (by decide)]
  apply Message.optionLoop_short
  rw [Message.optionsSize, hsize]
  omega

/-- One or two pads at the end of the message are passed over. -/
theorem readsOptions_of_pads {fs : List Field} {n : Nat} (hn : n ≤ 2)
    (h : m.Carries fs (List.replicate n optPad)) (hseen : Message.Seen fs (List.replicate n optPad))
    (hcodes : ∀ f ∈ fs, f.code ≠ optEnd) (hnodup : (fs.map Field.code).Nodup) :
    (∀ c, m.Finds (lookup c fs) (m.getOption c)) ∧ ∀ old, m.readOptions old =
      (true, some { DhcpInfo.ofFields fs with offeredAddress := m.yiaddr }) := by
  have hsize := h.optionsSize
  rw [List.length_replicate] at hsize
  constructor
  · intro c
    exact Message.getOption_finds h hcodes hseen c (Message.getOptionFrom_short (by omega) c)
  · have hstop : m.optionLoop (DhcpInfo.ofFields fs) (4 + (encode fs).length) =
        (true, DhcpInfo.ofFields fs) := by
      cases Nat.lt_or_ge n 2 with
      | inl hlt => exact Message.optionLoop_short (by omega) _
      | inr hge =>
          obtain rfl : n = 2 := Nat.le_antisymm hn hge
          exact optionLoop_two_pads h _
    exact Message.readOptions_fields h hcodes hnodup hstop

theorem OptionsField.Plain.readsOptions (hplain : o.Plain) (h : m.HasOptions o) :
    ReadsOptions m o := by
  have hcodes : ∀ f ∈ o.fields, f.code ≠ optEnd := fun f hf => (o.codes_fields f hf).2
  rcases hplain with ⟨hitems, hlast⟩ | ⟨hnone, hitems | hitems⟩
  · have hcarries := h.carries (hitems.trans (List.append_nil _).symm)
    cases htrailing : o.trailing with
    | some trailing =>
        rw [OptionsField.ending, htrailing] at hcarries
        exact ⟨Message.getOption_end hcarries hcodes,
          Message.readOptions_end hcarries hcodes o.nodup_fields⟩
    | none =>
        rw [OptionsField.ending, htrailing] at hcarries
        obtain ⟨hget, hread⟩ := readsOptions_of_pads (n := 0) (by omega) hcarries
          (Or.inr (hlast htrailing)) hcodes o.nodup_fields
        exact ⟨hget, hread⟩
  · have hcarries := h.carries hitems
    rw [OptionsField.ending, hnone] at hcarries
    obtain ⟨hget, hread⟩ := readsOptions_of_pads (n := 1) (by omega) hcarries
      (Or.inl (List.cons_ne_nil _ _)) hcodes o.nodup_fields
    exact ⟨hget, hread⟩
  · have hcarries := h.carries hitems
    rw [OptionsField.ending, hnone] at hcarries
    obtain ⟨hget, hread⟩ := readsOptions_of_pads (n := 2) (by omega) hcarries
      (Or.inl (List.cons_ne_nil _ _)) hcodes o.nodup_fields
    exact ⟨hget, hread⟩

/-- An empty option that ends the message is not seen. -/
theorem getOption_empty_last {fs : List Field} {f : Field} (h : m.Carries (fs ++ [f]) [])
    (hempty : f.value = []) (hcodes : ∀ g ∈ fs, g.code ≠ optEnd)
    (hother : ∀ g ∈ fs, g.code ≠ f.code) : m.getOption f.code = none := by
  have hbytes : encode (fs ++ [f]) ++ [] = encode fs ++ f.bytes := by simp
  have hlen : f.bytes.length = 2 := by rw [Field.bytes_length, hempty, List.length_nil]
  have hfields := h.holds_fields
  have hsize := h.optionsSize
  rw [hbytes] at hfields
  rw [encode_append, List.length_append, encode_cons, encode_nil, List.append_nil, hlen,
    List.length_nil, ← Nat.add_assoc] at hsize
  have hwalk := Message.getOptionFrom_fields (i := 4) hfields (by omega) hcodes
    (Or.inl (List.cons_ne_nil _ _)) f.code
  rw [lookup_eq_none hother] at hwalk
  exact hwalk.trans (Message.getOptionFrom_short (by omega) _)

/-- A pad with two more bytes behind it is taken for an option with code zero. -/
theorem getOption_pad {fs : List Field} {tail : List UInt8} (h : m.Carries fs (optPad :: tail))
    (htail : 2 ≤ tail.length) (hcodes : ∀ f ∈ fs, f.code ≠ optPad ∧ f.code ≠ optEnd) :
    m.getOption optPad ≠ none := by
  have hsize := h.optionsSize
  rw [List.length_cons] at hsize
  have hwalk := Message.getOptionFrom_fields h.holds_fields h.optionsSize
    (fun f hf => (hcodes f hf).2) (Or.inl (List.cons_ne_nil _ _)) optPad
  rw [lookup_eq_none fun f hf => (hcodes f hf).1] at hwalk
  rw [Message.getOption, hwalk, Message.getOptionFrom, if_pos (by omega), h.option_tail,
    if_neg (by decide), if_pos rfl]
  apply Option.some_ne_none

/-- A pad in front of an `OPT_END` that ends the message makes the loop give up. -/
theorem optionLoop_pad_end {fs : List Field} (h : m.Carries fs [optPad, optEnd])
    (info : DhcpInfo) : m.optionLoop info (4 + (encode fs).length) = (false, info) := by
  have hsize := h.optionsSize
  have hpad := h.option_tail
  have hend : m.option (4 + (encode fs).length + 1) = optEnd := by
    have htail := ((holds_append _ _ (encode fs) _).mp h.holds_fields).2.2.1
    rwa [Nat.add_assoc, Nat.add_assoc] at htail
  have hpast : offsetOptions + optEnd.toNat + (4 + (encode fs).length) ≥ m.mSize := by
    have hlen : optEnd.toNat = 255 := rfl
    rw [Message.optionsSize, List.length_cons, List.length_cons, List.length_nil] at hsize
    omega
  rw [List.length_cons, List.length_cons, List.length_nil] at hsize
  rw [Message.optionLoop, if_pos (by omega), hpad, if_neg (by decide), hend, if_pos hpast]

theorem ReadsOptions.last_not_empty (hreads : ReadsOptions m o) (h : m.HasOptions o)
    (hitems : o.items = o.fields.map Item.option) (hnone : o.trailing = none) {f : Field}
    (hlast : o.fields.getLast? = some f) : f.value ≠ [] := by
  intro hempty
  obtain ⟨fs, hfs⟩ := List.getLast?_eq_some_iff.mp hlast
  have hcarries := h.carries (hitems.trans (List.append_nil _).symm)
  rw [OptionsField.ending, hnone, hfs] at hcarries
  have hother : ∀ g ∈ fs, g.code ≠ f.code := by
    have hnodup := o.nodup_fields
    rw [hfs, List.map_append] at hnodup
    exact fun g hg heq => (List.nodup_append.mp hnodup).2.2 g.code
      (List.mem_map_of_mem hg) f.code (by simp) heq
  have hcodes : ∀ g ∈ fs, g.code ≠ optEnd := fun g hg =>
    (o.codes_fields g (hfs ▸ List.mem_append_left _ hg)).2
  have hfinds := hreads.getOption f.code
  have hlookup : lookup f.code o.fields = some f.value := by
    rw [hfs, lookup_append_of_none (lookup_eq_none hother), lookup_cons_self rfl]
  rw [getOption_empty_last hcarries hempty hcodes hother, hlookup] at hfinds
  obtain ⟨opt, hopt, -⟩ := hfinds
  exact absurd hopt (Option.some_ne_none _).symm

/-- With a single pad in front of a last `OPT_END` the loop takes that for a length. -/
theorem ReadsOptions.not_pad_end (hreads : ReadsOptions m o) (h : m.HasOptions o)
    {fs : List Field} (hitems : o.items = fs.map Item.option ++ [Item.pad]) :
    o.trailing ≠ some [] := by
  intro htrailing
  have hcarries := h.carries hitems
  rw [OptionsField.ending, htrailing] at hcarries
  have hcodes := codes_of_items hitems
  have hnodup : (fs.map Field.code).Nodup := by
    have hall := o.nodup_fields
    rw [fields_of_items hitems, List.map_append] at hall
    exact (List.nodup_append.mp hall).1
  have hread := hreads.configureDhcp none
  rw [Message.readOptions_fields hcarries (fun f hf => (hcodes f hf).2) hnodup
    (optionLoop_pad_end hcarries _)] at hread
  exact absurd (congrArg Prod.fst hread) Bool.false_ne_true

theorem ReadsOptions.pads_last (hreads : ReadsOptions m o) (h : m.HasOptions o) {fs : List Field}
    {rest : List Item} (hitems : o.items = fs.map Item.option ++ Item.pad :: rest) :
    o.trailing = none ∧ (rest = [] ∨ rest = [Item.pad]) := by
  have hcarries := h.carries hitems
  rw [List.flatMap_cons, Item.bytes, List.append_assoc, List.singleton_append] at hcarries
  have hshort : (rest.flatMap Item.bytes ++ o.ending).length < 2 := by
    by_contra hlong
    have hfinds := hreads.getOption optPad
    rw [lookup_eq_none fun f hf => (o.codes_fields f hf).1] at hfinds
    exact getOption_pad hcarries (Nat.le_of_not_lt hlong) (codes_of_items hitems) hfinds
  rw [List.length_append] at hshort
  have hrest := Item.of_short (Nat.lt_of_le_of_lt (Nat.le_add_right _ _) hshort)
  refine ⟨?_, hrest⟩
  cases htrailing : o.trailing with
  | none => rfl
  | some trailing =>
      rw [OptionsField.ending, htrailing, List.length_cons] at hshort
      obtain rfl : trailing = [] := List.length_eq_zero_iff.mp (by omega)
      cases hrest with
      | inl hempty => exact absurd htrailing (hreads.not_pad_end h (hempty ▸ hitems))
      | inr hpad =>
          rw [hpad] at hshort
          exact absurd hshort (by decide)

/-- The two loops read an options field as dhcp.h describes it exactly when it
has no pads and no empty option at the end of the message, or one or two pads
there. -/
theorem readsOptions_iff (h : m.HasOptions o) : ReadsOptions m o ↔ o.Plain := by
  refine ⟨fun hreads => ?_, fun hplain => hplain.readsOptions h⟩
  obtain ⟨fs, rest, hitems, rfl | ⟨rest, rfl⟩⟩ := Item.split_at_pad o.items
  · have hfields : o.fields = fs := (fields_of_items hitems).trans (List.append_nil fs)
    rw [List.append_nil, ← hfields] at hitems
    exact Or.inl ⟨hitems, fun hnone f hlast => hreads.last_not_empty h hitems hnone hlast⟩
  · obtain ⟨hnone, rfl | rfl⟩ := hreads.pads_last h hitems
    · have hfields : o.fields = fs := (fields_of_items hitems).trans (List.append_nil fs)
      exact Or.inr ⟨hnone, Or.inl (hfields ▸ hitems)⟩
    · have hfields : o.fields = fs := (fields_of_items hitems).trans (List.append_nil fs)
      exact Or.inr ⟨hnone, Or.inr (hfields ▸ hitems)⟩

end

/-- A message with these options that is zero in front of them. -/
def OptionsField.message (o : OptionsField) : Message :=
  ⟨store (fun _ => 0) offsetOptions o.bytes, offsetOptions + o.bytes.length⟩

theorem OptionsField.message_hasOptions (o : OptionsField) : o.message.HasOptions o :=
  ⟨rfl, holds_store _ _ _⟩

def ackType : Field := ⟨optMessageType, [dhcpAck], by decide⟩

theorem readsOptions_without_pad :
    let o : OptionsField := ⟨[.option ackType], some [], by decide, by decide⟩
    ReadsOptions o.message o := by
  intro o
  exact (readsOptions_iff o.message_hasOptions).mpr (Or.inl ⟨rfl, fun h => nomatch h⟩)

/-- A pad in front of the message type hides it. -/
theorem pad_hides_messageType :
    let o : OptionsField := ⟨[.pad, .option ackType], some [], by decide, by decide⟩
    o.message.HasOptions o ∧ ¬ ReadsOptions o.message o := by
  intro o
  refine ⟨o.message_hasOptions, fun h => ?_⟩
  have hnone : o.message.getOption optMessageType = none := by decide +kernel
  obtain ⟨opt, hopt, -⟩ := h.getOption optMessageType
  rw [hnone] at hopt
  exact absurd hopt (Option.some_ne_none _).symm

end AndroidX86Tv.Dhcp
