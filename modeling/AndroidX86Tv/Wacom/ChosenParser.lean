import AndroidX86Tv.Wacom.Parsers

/-!
# The parser that a reset chooses (wacom/wacserial.c)

`SerialInitWacom` chooses the parser of protocol IV by the version that the tablet
reports. For a major version other than one it chooses none and succeeds all the same.
-/

namespace AndroidX86Tv.Wacom

open ByteMemory

/-- The check of the length at the start of a parser. -/
def ParseFunc.accepts : ParseFunc → Nat → Prop
  | serialParseWacomV, uLength => uLength = 9
  | serialParseWacomIV14, uLength => uLength = 7 ∨ uLength = 9
  | serialParseWacomIV13, uLength => uLength = 7
  | serialParseWacomIV12, uLength => uLength = 7
  | serialParseTabletPC, uLength => uLength = 9

namespace SerialTablet

/-- There is a parser, and it accepts packets of the length that is read. -/
def CanParse (t : SerialTablet) : Prop :=
  ∃ parser, t.pfnParse = some parser ∧ parser.accepts t.uPacketLength

section Accepts

variable {t : SerialTablet} {d : Memory} {uLength : Nat} {parser : ParseFunc}

/-- A packet of another length is rejected. -/
theorem parse_short (h : ¬ parser.accepts uLength) :
    t.parse parser d uLength none = (t, none, 1) := by
  cases parser with
  | serialParseWacomV => exact if_pos h
  | serialParseWacomIV14 => exact if_pos (not_or.mp h)
  | serialParseWacomIV13 => exact if_pos h
  | serialParseWacomIV12 => exact if_pos h
  | serialParseTabletPC => exact if_pos h

/-- An in packet, and for the other protocols a packet without a tool. -/
def firstPacket : Memory := ofBytes [0xC0]

theorem parse_firstPacket (h : parser.accepts uLength) :
    (t.parse parser firstPacket uLength none).2.2 = 0 := by
  cases parser with
  | serialParseWacomV => cases h; rfl
  | serialParseWacomIV14 =>
      cases h with
      | inl hseven => cases hseven; rfl
      | inr hnine => cases hnine; rfl
  | serialParseWacomIV13 => cases h; rfl
  | serialParseWacomIV12 => cases h; rfl
  | serialParseTabletPC => cases h; rfl

theorem firstPacket_synchronised (uLength : Nat) : Synchronised firstPacket uLength := by
  refine ⟨by decide, ?_⟩
  rw [List.any_eq_true]
  rintro ⟨b, hb, hhigh⟩
  obtain ⟨k, -, rfl⟩ := List.mem_map.mp hb
  have hzero : firstPacket (1 + k) = 0 := by
    rw [firstPacket, ofBytes, Nat.add_comm]
    rfl
  rw [hzero] at hhigh
  exact absurd hhigh (by decide)

/-- A handle can parse what it reads exactly if some packet of that length is taken. -/
theorem canParse_iff : t.CanParse ↔
    ∃ d, (t.serialParseData d t.uPacketLength none).2.2 = 0 := by
  constructor
  · rintro ⟨parser, hparser, haccepts⟩
    refine ⟨firstPacket, ?_⟩
    rw [serialParseData, if_neg (not_not_intro (firstPacket_synchronised _)), hparser]
    exact parse_firstPacket haccepts
  · rintro ⟨d, htaken⟩
    rw [serialParseData] at htaken
    split at htaken
    · cases htaken
    · split at htaken
      · next parser hparser =>
          refine ⟨parser, hparser, ?_⟩
          by_contra hother
          rw [parse_short hother] at htaken
          cases htaken
      · cases htaken

end Accepts

/-- The device of the requested model, if it names one. -/
def requestedDevice (pModel : Option WacomModel) : Option SerialDevice :=
  match pModel.map serialFindModel with
  | some (.found _ pDevice _) => pDevice
  | _ => none

/-- The answer to the identification request of a reset. -/
def identAnswer (pDevice : Option SerialDevice) (line : Line) : Option (List UInt8) :=
  (identRequest (serialConfigTTY (pDevice.map SerialDevice.nMinBaudRate) line).1).2

/-- The major version number in an answer. -/
def majorNumber (chResp : List UInt8) : Option Int32 :=
  (scanInt (versionPart chResp)).map Prod.fst

/-- An answer that is not from a tablet of protocol IV, or has one as its major version
number. -/
def VersionKnown (chResp : List UInt8) : Prop :=
  ∀ device subType, findIdent chResp = some (device, subType) →
    device.nProtocol = protocol4 → majorNumber chResp = some 1

/-- The tablet PC is requested, or the tablet answers with a version that is known. -/
def ParserKnown (pModel : Option WacomModel) (line : Line) : Prop :=
  (requestedDevice pModel).bind SerialDevice.pfnIdent = some .serialIdentTabletPC ∨
    ∀ chResp, identAnswer (requestedDevice pModel) line = some chResp → VersionKnown chResp

section Initialisation

variable {t reset : SerialTablet} {line line' : Line}

/-- Of protocol IV only the major version one has parsers. -/
theorem initProtocol4_canParse (h : (t.initProtocol4 line).2.2 = .success)
    (hlength : t.uPacketLength = 7) (hnone : t.pfnParse = none) :
    (t.initProtocol4 line).1.CanParse ↔ t.nVerMajor = 1 := by
  rw [initProtocol4] at h ⊢
  by_cases hmajor : t.nVerMajor = 1
  · refine iff_of_true ?_ hmajor
    rw [if_pos hmajor] at h ⊢
    split at h
    · next hfour =>
        rw [if_pos hfour]
        simp only at h ⊢
        split at h
        · cases h
        · next hsent =>
            rw [if_neg hsent]
            exact ⟨.serialParseWacomIV14, rfl, Or.inr rfl⟩
    · next hfour =>
        rw [if_neg hfour]
        split
        · exact ⟨.serialParseWacomIV13, rfl, hlength⟩
        · next hthree =>
            split
            · exact ⟨.serialParseWacomIV12, rfl, hlength⟩
            · next htwo =>
                rw [if_pos (by grind)]
                exact ⟨.serialParseWacomIV12, rfl, hlength⟩
  · rw [if_neg hmajor]
    refine iff_of_false ?_ hmajor
    rintro ⟨parser, hparser, -⟩
    rw [hnone] at hparser
    cases hparser

/-- The lengths of the packets of the two protocols. -/
theorem listed_protocol : ∀ device ∈ xWacomDevices,
    device.nProtocol = protocol4 ∧ device.uPacketLength = 7 ∨
      device.nProtocol = protocol5 ∧ device.uPacketLength = 9 := by
  decide

/-- Of the tablet that an answer names, and its major version number. -/
theorem versionKnown_iff {chResp : List UInt8} {device : SerialDevice} {subType : SerialSubType}
    (hfound : findIdent chResp = some (device, subType)) {major : Int32}
    (hmajor : majorNumber chResp = some major) :
    VersionKnown chResp ↔ (device.nProtocol = protocol4 → major = 1) := by
  constructor
  · intro hknown hfour
    exact Option.some.inj (hmajor.symm.trans (hknown device subType hfound hfour))
  · intro hone other otherType hother hfour
    cases hfound.symm.trans hother
    rw [hmajor, hone hfour]

/-- A tablet that was identified on the line gets a parser exactly if its version is
known. -/
theorem identWacom_canParse (hnone : t.pfnParse = none)
    (hident : t.serialIdentWacom line = (reset, line', .success))
    (hinit : (reset.init line').2.2 = .success) :
    (reset.init line').1.CanParse ↔
      ∀ chResp, (identRequest line).2 = some chResp → VersionKnown chResp := by
  obtain ⟨chResp, device, subType, hrequest, hfound, hversion⟩ := serialIdentWacom_success hident
  obtain ⟨hlisted, hsubType⟩ := findIdent_listed hfound
  have hmajor := readVersion_success hversion
  obtain ⟨major, minor, release, hframe⟩ :=
    (t.setFound device subType).readVersion_frame (versionPart chResp)
  rw [hversion] at hframe
  simp only [setFound, listed_pfnInit device hlisted subType hsubType] at hframe
  have hall : (∀ answer, (identRequest line).2 = some answer → VersionKnown answer) ↔
      (device.nProtocol = protocol4 → reset.nVerMajor = 1) := by
    rw [hrequest, ← versionKnown_iff hfound hmajor]
    constructor
    · intro hknown
      exact hknown chResp rfl
    · intro hknown answer hanswer
      cases hanswer
      exact hknown
  have hchosen : reset.init line' = reset.serialInitWacom line' := by
    rw [init, hframe]
    rfl
  rw [hchosen] at hinit ⊢
  have hdevice : reset.pDevice = some device := by rw [hframe]
  obtain ⟨state, line₂, -, hprotocol⟩ := serialInitWacom_success hdevice hinit
  rw [hprotocol] at hinit
  rw [hprotocol, hall]
  rw [initProtocol] at hinit ⊢
  cases listed_protocol device hlisted with
  | inl hfour =>
      rw [if_pos hfour.1] at hinit ⊢
      rw [initProtocol4_canParse hinit (by rw [hframe]; exact hfour.2)
        (by rw [hframe]; exact hnone)]
      exact (imp_iff_right hfour.1).symm
  | inr hfive =>
      have hother : device.nProtocol ≠ protocol4 := by
        rw [hfive.1]
        decide
      rw [if_neg hother, if_pos hfive.1]
      refine iff_of_true ⟨.serialParseWacomV, rfl, ?_⟩ fun hfour => absurd hfour hother
      rw [hframe]
      exact hfive.2

theorem requestedDevice_eq {pModel : Option WacomModel} {pVendor : Option SerialVendor}
    {pDevice : Option SerialDevice} {pSubType : Option SerialSubType}
    (h : (pModel.map serialFindModel).getD (.found none none none) =
      .found pVendor pDevice pSubType) : requestedDevice pModel = pDevice := by
  cases pModel with
  | none =>
      cases h
      rfl
  | some model =>
      have hmodel : serialFindModel model = .found pVendor pDevice pSubType := h
      rw [requestedDevice, Option.map_some, hmodel]

/-- Nothing is requested, or a listed device. -/
theorem lookup_found {pModel : Option WacomModel} {pVendor : Option SerialVendor}
    {pDevice : Option SerialDevice} {pSubType : Option SerialSubType}
    (h : (pModel.map serialFindModel).getD (.found none none none) =
      .found pVendor pDevice pSubType) :
    pDevice = none ∨
      ∃ vendor device, Listed vendor device ∧ pVendor = some vendor ∧ pDevice = some device := by
  cases pModel with
  | none =>
      cases h
      exact Or.inl rfl
  | some model =>
      have hmodel : serialFindModel model = .found pVendor pDevice pSubType := h
      cases serialFindModel_found hmodel with
      | inl hnone => exact Or.inl hnone.2.1
      | inr hlisted => exact Or.inr hlisted

/-- The tablet PC gets its parser. -/
theorem identTabletPC_canParse {device : SerialDevice} (h : IsTabletPC t device)
    (hident : t.serialIdentTabletPC line = (reset, line', .success)) :
    (reset.init line').1.CanParse := by
  rw [serialIdentTabletPC_eq h] at hident
  obtain ⟨rfl, -⟩ := Prod.mk.inj hident
  exact ⟨.serialParseTabletPC, rfl, rfl⟩

/-- How a reset identifies the tablet: on the line, unless the tablet PC is requested. -/
theorem resetRan_ident {pModel : Option WacomModel} {identified chosen : SerialTablet}
    {line'' : Line} (hran : ResetRan t pModel line reset identified chosen line' line'') :
    chosen.pDevice = requestedDevice pModel ∧ chosen.pfnParse = t.pfnParse ∧
      ((requestedDevice pModel).bind SerialDevice.pfnIdent ≠ some .serialIdentTabletPC ∧
          chosen.serialIdentWacom line' = (identified, line'', .success) ∨
        (requestedDevice pModel).bind SerialDevice.pfnIdent = some .serialIdentTabletPC ∧
          ∃ device, IsTabletPC chosen device ∧
            chosen.serialIdentTabletPC line' = (identified, line'', .success)) := by
  obtain ⟨pVendor, pDevice, pSubType, hfound, hset⟩ := hran.found
  have hchosen := serialSetDevice_eq hset
  have hdevice : chosen.pDevice = pDevice := by rw [hchosen]
  have hfunc : chosen.pfnIdent =
      (pDevice.map SerialDevice.pfnIdent).getD (some .serialIdentDefault) := by rw [hchosen]
  have hident := hran.identifies
  rw [requestedDevice_eq hfound]
  refine ⟨hdevice, by rw [hchosen], ?_⟩
  cases lookup_found hfound with
  | inl hdefault =>
      subst hdefault
      rw [ident, hfunc] at hident
      exact Or.inl ⟨by simp, hident⟩
  | inr hlisted =>
      obtain ⟨vendor, device, ⟨hvendor, hmem⟩, rfl, rfl⟩ := hlisted
      rw [Option.map_some, Option.getD_some] at hfunc
      rw [Option.bind_some]
      cases listed_pfnIdent vendor hvendor device hmem with
      | inl hwacom =>
          rw [ident, hfunc, hwacom] at hident
          exact Or.inl ⟨by rw [hwacom]; decide, hident⟩
      | inr htpc =>
          obtain ⟨rfl, hsubTypes, hlength⟩ := listed_tabletPC vendor hvendor device hmem htpc
          rw [ident, hfunc, htpc] at hident
          exact Or.inr ⟨htpc, device, ⟨by rw [hchosen], hdevice, hsubTypes, hlength⟩, hident⟩

/-- A reset that succeeds on a new handle leaves it with a parser for the packets that are
read exactly if the tablet PC is requested or the version that the tablet reports is known. -/
theorem serialReset_canParse_iff (pModel : Option WacomModel) (line : Line) {t : SerialTablet}
    (h : (newTablet pModel).serialReset pModel line = (t, .success)) :
    t.CanParse ↔ ParserKnown pModel line := by
  obtain ⟨identified, chosen, line', line'', hran⟩ := serialReset_success h
  obtain ⟨hdevice, hnone, hident⟩ := resetRan_ident hran
  obtain ⟨hreset, hsuccess⟩ := hran.initialises
  have hanswer : identAnswer (requestedDevice pModel) line = (identRequest line').2 := by
    rw [identAnswer, ← hdevice, hran.configures]
  rw [ParserKnown, hanswer, ← hreset]
  cases hident with
  | inl hwacom =>
      rw [identWacom_canParse hnone hwacom.2 hsuccess]
      exact (or_iff_right hwacom.1).symm
  | inr htpc =>
      obtain ⟨hfunc, device, hdevice, hidentified⟩ := htpc
      exact iff_of_true (identTabletPC_canParse hdevice hidentified) (Or.inl hfunc)

/-- The line of a Graphire with a ROM of the version. -/
def romLine (version : String) : Line :=
  answeringLine [3, 2, 3, 2, 3, 2, 4, 3, 3, 3] ("~#ET-0405-R00,V" ++ version ++ "\r~C5103,3711\r")

/-- A Graphire with ROM 1.3. -/
theorem serialReset_canParse_rom13 :
    ((newTablet none).serialReset none (romLine "1.3-5")).1.CanParse := by
  apply (serialReset_canParse_iff none (romLine "1.3-5") (Prod.ext rfl (by decide +kernel))).mpr
  refine Or.inr fun chResp hanswer _ _ _ _ => ?_
  have hsent : identAnswer none (romLine "1.3-5") = some (chars "ET-0405-R00,V1.3-5") := by
    decide +kernel
  cases hanswer.symm.trans hsent
  decide

/-- A tablet of protocol IV with ROM 2.0 is opened without a parser. -/
theorem not_canParse : ¬ ∀ (pModel : Option WacomModel) (line : Line) (t : SerialTablet),
    (newTablet pModel).serialReset pModel line = (t, .success) → t.CanParse := by
  intro h
  obtain ⟨parser, hparser, -⟩ := h none (romLine "2.0-5") _ (Prod.ext rfl (by decide +kernel))
  have hnone : ((newTablet none).serialReset none (romLine "2.0-5")).1.pfnParse = none := by
    decide +kernel
  cases hparser.symm.trans hnone

end Initialisation

end SerialTablet

end AndroidX86Tv.Wacom
