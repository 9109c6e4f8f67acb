import AndroidX86Tv.Wacom.ChosenParser
import AndroidX86Tv.Wacom.Packets

/-!
# Open handles as tablets on a line (wacom/wacserial.c)

What the packets of an open handle look like from outside is said by `Serial`: an open
handle has packets of 7 or 9 bytes, and reads and checks them as `Serial` does.
-/

namespace AndroidX86Tv.Wacom

open ByteMemory

namespace SerialTablet

variable {t identified : SerialTablet} {line line' : Line} {pModel : Option WacomModel}

theorem serialIdentWacom_packetLength
    (h : t.serialIdentWacom line = (identified, line', .success)) :
    identified.uPacketLength = 7 ∨ identified.uPacketLength = 9 := by
  obtain ⟨chResp, device, subType, -, hfound, hversion⟩ := serialIdentWacom_success h
  obtain ⟨major, minor, release, hframe⟩ :=
    (t.setFound device subType).readVersion_frame (versionPart chResp)
  rw [hversion] at hframe
  have hlength : identified.uPacketLength = device.uPacketLength :=
    congrArg SerialTablet.uPacketLength hframe
  rw [hlength]
  cases listed_protocol device (findIdent_listed hfound).1 with
  | inl hfour => exact Or.inl hfour.2
  | inr hfive => exact Or.inr hfive.2

theorem serialIdentTabletPC_packetLength {device : SerialDevice} (hdevice : IsTabletPC t device)
    (h : t.serialIdentTabletPC line = (identified, line', .success)) :
    identified.uPacketLength = 9 := by
  rw [serialIdentTabletPC_eq hdevice] at h
  obtain ⟨rfl, -⟩ := Prod.mk.inj h
  rfl

/-- The packets of an open handle have 7 or 9 bytes. -/
theorem open_packetLength (h : wacomOpenSerialTablet pModel line = some t) :
    t.uPacketLength = 7 ∨ t.uPacketLength = 9 := by
  obtain ⟨identified, chosen, line', line'', hran⟩ := open_ran h
  obtain ⟨-, -, hident⟩ := resetRan_ident hran
  have hlength : identified.uPacketLength = 7 ∨ identified.uPacketLength = 9 := by
    cases hident with
    | inl hwacom => exact serialIdentWacom_packetLength hwacom.2
    | inr htpc =>
        obtain ⟨-, device, hdevice, hidentified⟩ := htpc
        exact Or.inr (serialIdentTabletPC_packetLength hdevice hidentified)
  have hinit := (identified.init_frame line'').length
  rw [hran.initialises.1] at hinit
  cases hinit with
  | inl hsame => rwa [hsame]
  | inr hnine => exact Or.inr hnine

/-- An open handle has met no errors yet. -/
theorem open_errors (h : wacomOpenSerialTablet pModel line = some t) : t.nBitErrors = 0 := by
  obtain ⟨identified, chosen, line', line'', hran⟩ := open_ran h
  obtain ⟨pVendor, pDevice, pSubType, -, hset⟩ := hran.found
  have hchosen := serialSetDevice_eq hset
  have hident := chosen.ident_frame line'
  obtain ⟨pfnParse, uPacketLength, state, hinit⟩ := (identified.init_frame line'').frame
  rw [hran.identifies] at hident
  rw [hran.initialises.1] at hinit
  rw [hinit]
  refine hident.errors.trans ?_
  rw [hchosen]
  rfl

/-- What a tablet on a line says of a handle. -/
structure Views (t : SerialTablet) (s : Serial) : Prop where
  length : s.uPacketLength = t.uPacketLength
  errors : s.nBitErrors = t.nBitErrors
  parser : s.pfnParse.isSome = t.pfnParse.isSome

/-- Every open handle is such a tablet, whatever is on its line. -/
theorem open_viewed (h : wacomOpenSerialTablet pModel line = some t) (port : List Turn) :
    ∃ s, Views t s ∧ s.port = port ∧ s.parsed = [] := by
  have hlength := open_packetLength h
  exact ⟨{ uPacketLength := t.uPacketLength
           positive := by omega
           fits := by omega
           nBitErrors := t.nBitErrors
           pfnParse := t.pfnParse.map fun _ _ => 0
           port := port
           parsed := [] }, ⟨rfl, rfl, Option.isSome_map⟩, rfl, rfl⟩

/-- Without a reset both read the same. -/
theorem Views.serialReadRaw {s : Serial} (h : Views t s) (herrors : t.nBitErrors ≤ 3)
    (reset : Serial → Serial) (call : ReadCall) (hport : s.port = call.port) :
    (Wacom.serialReadRaw reset s call.puchData call.uSize).2 = (t.serialReadRaw call).2 ∧
      Views (t.serialReadRaw call).1
        (Wacom.serialReadRaw reset s call.puchData call.uSize).1 := by
  have hnone : ¬ s.nBitErrors > 3 := by
    rw [h.errors]
    omega
  have hkept : t.resetIfErrors call.line = t := if_neg (by omega)
  have hfilled : fill s.uPacketLength call.puchData s.nBitErrors 0 s.port =
      fill t.uPacketLength call.puchData t.nBitErrors 0 call.port := by
    rw [h.length, h.errors, hport]
  by_cases hsmall : call.uSize < t.uPacketLength
  · rw [SerialTablet.serialReadRaw, Wacom.serialReadRaw, if_pos hsmall,
      if_pos (by rw [h.length]; exact hsmall)]
    exact ⟨rfl, h⟩
  · rw [SerialTablet.serialReadRaw, Wacom.serialReadRaw, if_neg hsmall,
      if_neg (by rw [h.length]; exact hsmall)]
    simp only [if_neg hnone, hkept, hfilled]
    exact ⟨trivial, h.length, rfl, h.parser⟩

/-- What a check of a packet leaves in the handle. -/
theorem serialParseData_frame (t : SerialTablet) (puchData : Memory) (uLength : Nat)
    (pState : Option WacomState) : ∃ nToolID state,
      (t.serialParseData puchData uLength pState).1 =
        { t with
          nToolID := nToolID
          state := state
          nBitErrors := if Synchronised puchData uLength then 0 else t.nBitErrors + 1 } := by
  by_cases hsync : Synchronised puchData uLength
  · rw [serialParseData, if_neg (not_not_intro hsync), if_pos hsync]
    split
    · next parser hparser => exact { t with nBitErrors := 0 }.parse_frame parser _ _ _
    · exact ⟨_, _, rfl⟩
  · rw [serialParseData, if_pos hsync, if_neg hsync]
    exact ⟨_, _, rfl⟩

/-- And in the tablet on the line. -/
theorem checked_frame (s : Serial) (puchData : Memory) (uLength : Nat) : ∃ parsed,
    (Wacom.serialParseData s puchData uLength).1 =
      { s with
        nBitErrors := if Synchronised puchData uLength then 0 else s.nBitErrors + 1
        parsed := parsed } := by
  rw [Wacom.serialParseData]
  by_cases hfirst : highBit (puchData 0)
  · by_cases hother : (bytesAt puchData 1 (uLength - 1)).any highBit
    · rw [if_neg (not_not_intro hfirst), if_pos hother, if_neg fun hsync => hsync.2 hother]
      exact ⟨_, rfl⟩
    · rw [if_neg (not_not_intro hfirst), if_neg hother, if_pos ⟨hfirst, hother⟩]
      split
      · exact ⟨_, rfl⟩
      · exact ⟨_, rfl⟩
  · rw [if_pos hfirst, if_neg fun hsync => hfirst hsync.1]
    exact ⟨_, rfl⟩

/-- Both check a packet the same way. -/
theorem Views.serialParseData {s : Serial} (h : Views t s) (puchData : Memory) (uLength : Nat)
    (pState : Option WacomState) :
    Views (t.serialParseData puchData uLength pState).1
      (Wacom.serialParseData s puchData uLength).1 := by
  obtain ⟨nToolID, state, hframe⟩ := t.serialParseData_frame puchData uLength pState
  obtain ⟨parsed, hchecked⟩ := checked_frame s puchData uLength
  rw [hframe, hchecked]
  exact ⟨h.length, by simp only [h.errors], h.parser⟩

end SerialTablet

end AndroidX86Tv.Wacom
