import AndroidX86Tv.Wacom.Serial

/-!
# The packets that reach the parser (wacom/wacserial.c, wacom/wacom-input.c)

Passes of the main loop hand over the packets of the stream on the line, one pass
after the other, so that junk before them costs at most the first.
-/

namespace AndroidX86Tv.Wacom

open ByteMemory StreamFraming

/-- The parser is called with what is in the buffer if that is a well-formed packet. -/
theorem serialParseData_fst {s : Serial} {puchData : Memory} {packet : List UInt8}
    (h : Holds puchData 0 packet) (hne : packet ≠ []) (hparser : s.pfnParse.isSome = true) :
    (serialParseData s puchData packet.length).1 =
      if wellFormed highBit packet = true then
        { s with nBitErrors := 0, parsed := s.parsed ++ [packet] }
      else { s with nBitErrors := s.nBitErrors + 1 } := by
  have hwhole := h.bytesAt_eq
  obtain ⟨parse, hparse⟩ := Option.isSome_iff_exists.mp hparser
  cases packet with
  | nil => exact absurd rfl hne
  | cons a rest =>
      have hfirst : puchData 0 = a := h.1
      have hothers := h.2.bytesAt_eq
      rw [Nat.zero_add] at hothers
      rw [serialParseData, hfirst, hwhole, List.length_cons, Nat.add_sub_cancel, hothers,
        wellFormed]
      by_cases ha : highBit a = true
      · by_cases hrest : rest.any highBit = true
        · have hsecond : rest.all (fun b => !highBit b) = false := by
            simpa using hrest
          rw [if_neg (not_not_intro ha), if_pos hrest, hsecond, Bool.and_false, if_neg (by decide)]
        · have hclear : rest.all (fun b => !highBit b) = true := by
            simpa using hrest
          rw [if_neg (not_not_intro ha), if_neg hrest, ha, hclear, if_pos (by decide)]
          split
          · rfl
          · next hnone => rw [hparse] at hnone; cases hnone
      · rw [if_pos ha, if_neg (by simp [ha])]

/-- The packets that are due: those the parser was called with, and those that the
stream still on the line holds. -/
def Due (due : List (List UInt8)) (left : Nat) (w : WacomInput) : Prop :=
  w.tablet.pfnParse.isSome = true ∧ ∃ stream, Feeds w.tablet.port stream ∧ stream.length ≤ left ∧
    w.tablet.parsed ++ deframe highBit w.tablet.uPacketLength stream = due

theorem pass_eq {w : WacomInput} (herrors : w.tablet.nBitErrors ≤ 3) (reset : Serial → Serial)
    {filled : Filled} (hfilled :
      fill w.tablet.uPacketLength w.uchBuf w.tablet.nBitErrors 0 w.tablet.port = filled) :
    w.pass reset =
      if filled.returned < 0 then ⟨w.tablet.afterFill filled, filled.puchData⟩
      else
        ⟨(serialParseData (w.tablet.afterFill filled) filled.puchData
          filled.returned.toNat).1, filled.puchData⟩ := by
  have hfits := w.tablet.fits
  rw [← hfilled, WacomInput.pass, serialReadRaw, if_neg (by rw [sizeofUchBuf]; omega),
    if_neg (by omega)]

/-- What a pass makes of the stream on the line: it hands over the next packet if that is
well formed, or drops what is too short for one. -/
structure Handed (w w' : WacomInput) (stream rest : List UInt8) : Prop where
  length : w'.tablet.uPacketLength = w.tablet.uPacketLength
  parser : w'.tablet.pfnParse = w.tablet.pfnParse
  feeds : Feeds w'.tablet.port rest
  whole : w.tablet.uPacketLength ≤ (seek highBit stream).length →
    rest = (seek highBit stream).drop w.tablet.uPacketLength ∧
      w'.tablet.parsed = w.tablet.parsed ++
        [(seek highBit stream).take w.tablet.uPacketLength].filter (wellFormed highBit)
  short : (seek highBit stream).length < w.tablet.uPacketLength →
    rest = [] ∧ w'.tablet.parsed = w.tablet.parsed

theorem pass_hands {w : WacomInput} {stream : List UInt8}
    (hparser : w.tablet.pfnParse.isSome = true) (hfeeds : Feeds w.tablet.port stream)
    (herrors : w.tablet.nBitErrors ≤ 3) (reset : Serial → Serial) :
    ∃ rest, Handed w (w.pass reset) stream rest := by
  have hpos := w.tablet.positive
  have hfills := fill_fills hpos hfeeds (holds_nil w.uchBuf 0) rfl (Nat.zero_le _)
    w.tablet.nBitErrors
  rw [List.nil_append, List.length_nil] at hfills
  generalize hfilled : fill w.tablet.uPacketLength w.uchBuf w.tablet.nBitErrors 0 w.tablet.port =
    filled at hfills
  rw [pass_eq herrors reset hfilled]
  by_cases hlong : w.tablet.uPacketLength ≤ (seek highBit stream).length
  · obtain ⟨hreturned, hholds, hrest⟩ := hfills.whole hlong
    have hlength := List.length_take_of_le hlong
    have hnotShort : ¬ (seek highBit stream).length < w.tablet.uPacketLength := Nat.not_lt.mpr hlong
    rw [hreturned, if_neg (by omega), Int.toNat_natCast]
    have hcall := serialParseData_fst (s := w.tablet.afterFill filled) hholds
      (List.ne_nil_of_length_pos (by omega)) hparser
    rw [hlength] at hcall
    rw [hcall]
    by_cases hwell : wellFormed highBit ((seek highBit stream).take w.tablet.uPacketLength) = true
    · rw [if_pos hwell]
      refine ⟨_, rfl, rfl, hrest, fun _ => ⟨rfl, ?_⟩, fun hshort => absurd hshort hnotShort⟩
      rw [List.filter_cons_of_pos hwell]
      rfl
    · rw [if_neg hwell]
      refine ⟨_, rfl, rfl, hrest, fun _ => ⟨rfl, ?_⟩, fun hshort => absurd hshort hnotShort⟩
      rw [List.filter_cons_of_neg hwell, List.filter_nil, List.append_nil]
      rfl
  · obtain ⟨hreturned, hport⟩ := hfills.short (by omega)
    rw [hreturned, if_pos (by decide), Serial.afterFill, hport]
    exact ⟨[], rfl, rfl, .done, fun hwhole => absurd hwhole hlong, fun _ => ⟨rfl, rfl⟩⟩

/-- A pass hands over a packet or drops bytes; the packets that are due stay. -/
theorem Due.pass {due : List (List UInt8)} {left : Nat} {w : WacomInput} (h : Due due left w)
    (herrors : w.tablet.nBitErrors ≤ 3) (reset : Serial → Serial) :
    Due due (left - 1) (w.pass reset) := by
  obtain ⟨hparser, stream, hfeeds, hleft, hdue⟩ := h
  have hpos := w.tablet.positive
  have hseek := (seek_sublist highBit stream).length_le
  obtain ⟨rest, hhanded⟩ := pass_hands hparser hfeeds herrors reset
  refine ⟨hhanded.parser ▸ hparser, rest, hhanded.feeds, ?_⟩
  by_cases hlong : w.tablet.uPacketLength ≤ (seek highBit stream).length
  · obtain ⟨hrest, hparsed⟩ := hhanded.whole hlong
    rw [deframe_of_le hpos hlong, ← List.append_assoc] at hdue
    rw [hhanded.length, hparsed, hrest]
    refine ⟨?_, hdue⟩
    rw [List.length_drop]
    omega
  · obtain ⟨hrest, hparsed⟩ := hhanded.short (by omega)
    rw [deframe_of_lt (by omega)] at hdue
    rw [hparsed, hrest, deframe_of_lt (by rw [seek_nil]; exact (w.pass reset).tablet.positive)]
    exact ⟨Nat.zero_le _, hdue⟩

/-- So do passes one after the other. -/
theorem Due.passes {due : List (List UInt8)} {left : Nat} {w : WacomInput} (h : Due due left w)
    (reset : Serial → Serial) {k : Nat}
    (herrors : ∀ j < k, ((WacomInput.pass reset)^[j] w).tablet.nBitErrors ≤ 3) :
    Due due (left - k) ((WacomInput.pass reset)^[k] w) := by
  induction k with
  | zero => exact h
  | succ k ih =>
      have hpass := (ih fun j hj => herrors j (Nat.lt_succ_of_lt hj)).pass
        (herrors k (Nat.lt_succ_self k)) reset
      rwa [Nat.sub_sub, ← Function.iterate_succ_apply' (WacomInput.pass reset)] at hpass

/-- Every packet after junk reaches the parser once, whole and in its place, but for
the first, as long as no reset is due. -/
theorem WacomInput.passes_resynchronise (reset : Serial → Serial) (w : WacomInput)
    {junk : List UInt8} {packets : List (List UInt8)}
    (hpackets : ∀ packet ∈ packets,
      packet.length = w.tablet.uPacketLength ∧ wellFormed highBit packet = true)
    (hfeeds : Feeds w.tablet.port (junk ++ packets.flatten))
    (hparser : w.tablet.pfnParse.isSome = true) :
    ∃ inJunk delivered, inJunk.flatten.Sublist junk ∧
      (delivered = packets ∨ delivered = packets.tail) ∧
      ∀ k, (∀ j < k, ((WacomInput.pass reset)^[j] w).tablet.nBitErrors ≤ 3) →
        ((WacomInput.pass reset)^[k] w).tablet.parsed <+:
            w.tablet.parsed ++ (inJunk ++ delivered) ∧
          ((junk ++ packets.flatten).length ≤ k →
            ((WacomInput.pass reset)^[k] w).tablet.parsed =
              w.tablet.parsed ++ (inJunk ++ delivered)) := by
  have hstart : Due (w.tablet.parsed ++
      deframe highBit w.tablet.uPacketLength (junk ++ packets.flatten))
      (junk ++ packets.flatten).length w := ⟨hparser, _, hfeeds, le_rfl, rfl⟩
  obtain ⟨inJunk, delivered, hjunk, hdelivered, hframes⟩ :=
    deframe_resynchronises w.tablet.positive junk hpackets
  rw [hframes] at hstart
  refine ⟨inJunk, delivered, hjunk, hdelivered, fun k herrors => ?_⟩
  obtain ⟨-, stream, -, hleft, hdue⟩ := hstart.passes reset herrors
  rw [← hdue]
  refine ⟨List.prefix_append _ _, fun hlong => ?_⟩
  have hnil : stream = [] := List.length_eq_zero_iff.mp (by omega)
  rw [hnil, deframe_of_lt (by rw [seek_nil]; exact Serial.positive _), List.append_nil]

/-- Packets of three bytes behind junk that runs into the first of them. -/
def lateStart : WacomInput where
  tablet :=
    { uPacketLength := 3, positive := by decide, fits := by decide, nBitErrors := 0
      pfnParse := some fun _ => 0
      port := [.data [1, 0x85], .data [2, 0x80, 1, 2, 0x81], .data [3, 4]], parsed := [] }
  uchBuf := fun _ => 0

theorem lateStart_resynchronises : ∃ inJunk delivered : List (List UInt8),
    inJunk.flatten.Sublist [1, 0x85, 2] ∧
      (delivered = [[0x80, 1, 2], [0x81, 3, 4]] ∨ delivered = [[0x81, 3, 4]]) ∧
      ((WacomInput.pass id)^[9] lateStart).tablet.parsed = inJunk ++ delivered := by
  have hfeeds : Feeds lateStart.tablet.port
      ([1, 0x85, 2] ++ [[0x80, 1, 2], [0x81, 3, 4]].flatten) :=
    .chunk (by decide) (.chunk (by decide) (.chunk (by decide) .done))
  obtain ⟨inJunk, delivered, hjunk, hdelivered, hruns⟩ :=
    WacomInput.passes_resynchronise id lateStart (by decide) hfeeds rfl
  exact ⟨inJunk, delivered, hjunk, hdelivered, (hruns 9 (by decide +kernel)).2 (by decide)⟩

end AndroidX86Tv.Wacom
