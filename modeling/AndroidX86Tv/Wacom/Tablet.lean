import AndroidX86Tv.Wacom.Line
import AndroidX86Tv.Wacom.Models
import AndroidX86Tv.Wacom.Serial

/-!
# Opening and resetting a serial tablet (wacom/wacserial.c)

`SerialReset` sets up a handle for the requested model, configures the line, has the
tablet identify itself and initialises the handle for what it is. `SerialReadRaw`
does the same again after four bit errors.

## Implementation notes

`hEngine` and the descriptor are left out. Log messages are left out.
-/

namespace AndroidX86Tv.Wacom

open ByteMemory

/-- The functions that may stand in `pfnParse`. -/
inductive ParseFunc where
  | serialParseWacomV
  | serialParseWacomIV14
  | serialParseWacomIV13
  | serialParseWacomIV12
  | serialParseTabletPC
  deriving DecidableEq

/-- `struct _SERIALTABLET`. -/
structure SerialTablet where
  pVendor : Option SerialVendor
  pDevice : Option SerialDevice
  pSubType : Option SerialSubType
  uPacketLength : Nat
  nVerMajor : Int32
  nVerMinor : Int32
  nVerRelease : Int32
  pfnIdent : Option IdentFunc
  pfnInit : Option InitFunc
  pfnParse : Option ParseFunc
  nToolID : Int32
  state : WacomState
  nBitErrors : Nat
  modelRequested : WacomModel

/-- What a function of the handle returns, unless it follows a `NULL` pointer. -/
inductive Outcome where
  | success
  | failure
  | nullDereference
  deriving DecidableEq

/-- The handle that `WacomOpenSerialTablet` allocates. -/
def newTablet (pModel : Option WacomModel) : SerialTablet where
  pVendor := none
  pDevice := none
  pSubType := none
  uPacketLength := 0
  nVerMajor := 0
  nVerMinor := 0
  nVerRelease := 0
  pfnIdent := none
  pfnInit := none
  pfnParse := none
  nToolID := 0
  state := ⟨wacomFieldMax, 0, fun _ => .zero⟩
  nBitErrors := 0
  modelRequested := pModel.getD .zero

namespace SerialTablet

section Identification

def serialSetDevice (t : SerialTablet) (pVendor : Option SerialVendor)
    (pDevice : Option SerialDevice) (pSubType : Option SerialSubType) : SerialTablet × Outcome :=
  let t := { t with pVendor := pVendor, pDevice := pDevice, pSubType := pSubType }
  match pDevice with
  | some device =>
      ({ t with pfnIdent := device.pfnIdent },
        if device.pfnIdent = none then .failure else .success)
  | none => ({ t with pfnIdent := some .serialIdentDefault }, .success)

/-- The identification request, made again if the first was answered too late. -/
def identRequest (line : Line) : Line × Option (List UInt8) :=
  match serialSendRequest 126 (chars "#") 64 line with
  | (line, some chResp) => (line, some chResp)
  | (line, none) =>
      if line.errno ≠ etimedout then (line, none)
      else serialSendRequest 126 (chars "#") 64 line

/-- The search through the device table. -/
def findIdent (chResp : List UInt8) : Option (SerialDevice × SerialSubType) :=
  xWacomVendor.pDevices.findSome? fun device =>
    ((device.pSubTypes.getD []).find? fun subType =>
      (chars subType.pszIdent).isPrefixOf chResp).map fun subType => (device, subType)

/-- What follows the last `V`, or the whole string. -/
def versionPart (chResp : List UInt8) : List UInt8 :=
  (chResp.reverse.takeWhile (· ≠ 86)).reverse

/-- The stores of `sscanf` into the version numbers. -/
def storeVersion (t : SerialTablet) : List Int32 → SerialTablet
  | [] => t
  | [major] => { t with nVerMajor := major }
  | [major, minor] => { t with nVerMajor := major, nVerMinor := minor }
  | major :: minor :: release :: _ =>
      { t with nVerMajor := major, nVerMinor := minor, nVerRelease := release }

def readVersion (t : SerialTablet) (pszPos : List UInt8) : SerialTablet × Outcome :=
  let scanned := scanInts (chars ".-") pszPos
  let t := t.storeVersion scanned
  if scanned.length = 3 then (t, .success)
  else
    let t := { t with nVerRelease := 0 }
    let scanned := scanInts (chars ".") pszPos
    (t.storeVersion scanned, if scanned.length = 2 then .success else .failure)

/-- The handle for a subtype that was found in the table. -/
def setFound (t : SerialTablet) (pDev : SerialDevice) (pSub : SerialSubType) : SerialTablet :=
  { t with
    pVendor := some xWacomVendor
    pDevice := some pDev
    pSubType := some pSub
    state := { t.state with uValid := pDev.uCaps }
    uPacketLength := pDev.uPacketLength
    pfnInit := some (pSub.pfnInit.getD .serialInitWacom) }

def serialIdentWacom (t : SerialTablet) (line : Line) : SerialTablet × Line × Outcome :=
  match identRequest line with
  | (line, none) => (t, line, .failure)
  | (line, some chResp) =>
      match findIdent chResp with
      | none => (t, line, .failure)
      | some (pDev, pSub) =>
          let (t, outcome) := (t.setFound pDev pSub).readVersion (versionPart chResp)
          (t, line, outcome)

def serialIdentDefault : SerialTablet → Line → SerialTablet × Line × Outcome := serialIdentWacom

def serialIdentTabletPC (t : SerialTablet) (line : Line) : SerialTablet × Line × Outcome :=
  match t.pVendor, t.pDevice with
  | some vendor, some device =>
      if vendor ≠ xtpcVendor then (t, line, .failure)
      else
        match device.pSubTypes with
        | none => ({ t with pSubType := none }, line, .nullDereference)
        -- no table of subtypes is empty
        | some [] => (t, line, .failure)
        | some (subType :: _) =>
            ({ t with
                pSubType := some subType
                state := { t.state with uValid := device.uCaps }
                uPacketLength := device.uPacketLength
                pfnInit := subType.pfnInit
                nVerMajor := 0
                nVerMinor := 0
                nVerRelease := 0 }, line, .success)
  | _, _ => (t, line, .failure)

end Identification

section Initialisation

/-- The stores of `sscanf` into the dimensions. -/
def storeDimensions (state : WacomState) : List Int32 → WacomState
  | [] => state
  | [x] => state.setMax .positionX x
  | x :: y :: _ => (state.setMax .positionX x).setMax .positionY y

/-- What a device is sent first, whether or not it can be sent. -/
def sendSettings (uDevice : UInt32) (line : Line) : Line :=
  if uDevice = wacomDevicePenPartner then (serialSend "PH1\r" line).1
  else if uDevice = wacomDeviceIntuos ∨ uDevice = wacomDeviceIntuos2 then
    (serialSend "MT1\rID1\rIT0\r" line).1
  else line

/-- The ranges of both tilt fields. -/
def setTilt (state : WacomState) : WacomState :=
  (((state.setMin .tiltX (-64)).setMax .tiltX 63).setMin .tiltY (-64)).setMax .tiltY 63

/-- The parser for protocol IV, by the version. -/
def initProtocol4 (t : SerialTablet) (line : Line) : SerialTablet × Line × Outcome :=
  if t.nVerMajor = 1 then
    if t.nVerMinor ≥ 4 then
      let (line, failed) := serialSend "FM1\r" line
      if failed ≠ 0 then (t, line, .failure)
      else
        ({ t with
            pfnParse := some .serialParseWacomIV14
            uPacketLength := 9
            state := setTilt (t.state.setMax .pressure 255) }, line, .success)
    else if t.nVerMinor = 3 then
      ({ t with
          pfnParse := some .serialParseWacomIV13
          state := t.state.setMax .pressure 255 }, line, .success)
    else if t.nVerMinor = 2 then
      ({ t with
          pfnParse := some .serialParseWacomIV12
          state := t.state.setMax .pressure 255 }, line, .success)
    else if t.nVerMinor < 2 then
      ({ t with
          pfnParse := some .serialParseWacomIV12
          state := t.state.setMax .pressure 120 }, line, .success)
    else (t, line, .success)
  else (t, line, .success)

/-- The ranges for protocol V. -/
def setRangesV (state : WacomState) : WacomState :=
  let state := (state.setMax .pressure 1023).setMax .absWheel 1023
  let state := (state.setMin .rotationZ (-900)).setMax .rotationZ 899
  setTilt ((state.setMin .throttle (-1023)).setMax .throttle 1023)

/-- The part of `SerialInitWacom` after the dimensions. -/
def initProtocol (t : SerialTablet) (device : SerialDevice) (line : Line) :
    SerialTablet × Line × Outcome :=
  if device.nProtocol = protocol4 then t.initProtocol4 line
  else if device.nProtocol = protocol5 then
    ({ t with pfnParse := some .serialParseWacomV, state := setRangesV t.state }, line, .success)
  else (t, line, .failure)

def serialInitWacom (t : SerialTablet) (line : Line) : SerialTablet × Line × Outcome :=
  match serialSendRequest 126 (chars "C") 32 line with
  | (line, none) => (t, line, .failure)
  | (line, some chResp) =>
      let scanned := scanInts (chars ",") chResp
      let t := { t with state := storeDimensions t.state scanned }
      if scanned.length ≠ 2 then (t, line, .failure)
      else
        match t.pDevice with
        | none => (t, line, .nullDereference)
        | some device => t.initProtocol device (sendSettings device.uDevice line)

def serialInitTabletPC (t : SerialTablet) (line : Line) : SerialTablet × Line × Outcome :=
  ({ t with
      pfnParse := some .serialParseTabletPC
      state := ((t.state.setMax .positionX 0x6000).setMax .positionY 0x4800).setMax .pressure 255 },
    line, .success)

end Initialisation

/-- A call of `pfnIdent`. -/
def ident (t : SerialTablet) (line : Line) : SerialTablet × Line × Outcome :=
  match t.pfnIdent with
  | none => (t, line, .failure)
  | some .serialIdentDefault => t.serialIdentDefault line
  | some .serialIdentWacom => t.serialIdentWacom line
  | some .serialIdentTabletPC => t.serialIdentTabletPC line

/-- A call of `pfnInit`. -/
def init (t : SerialTablet) (line : Line) : SerialTablet × Line × Outcome :=
  match t.pfnInit with
  | none => (t, line, .failure)
  | some .serialInitWacom => t.serialInitWacom line
  | some .serialInitTabletPC => t.serialInitTabletPC line

/-- `SerialReset` from the identification on. -/
def identAndInit (t : SerialTablet) (line : Line) : SerialTablet × Outcome :=
  match t.ident line with
  | (t, line, .success) => ((t.init line).1, (t.init line).2.2)
  | (t, _, outcome) => (t, outcome)

/-- `SerialReset` for what `SerialFindModel` found. The result of `SerialSendStart` does
not matter. -/
def resetFor (t : SerialTablet) (pVendor : Option SerialVendor) (pDevice : Option SerialDevice)
    (pSubType : Option SerialSubType) (line : Line) : SerialTablet × Outcome :=
  match t.serialSetDevice pVendor pDevice pSubType with
  | (t, .success) =>
      let (line, failed) := serialConfigTTY (t.pDevice.map SerialDevice.nMinBaudRate) line
      if failed ≠ 0 then (t, .failure) else t.identAndInit line
  | (t, outcome) => (t, outcome)

/-- `SerialReset`: the handle and the outcome. -/
def serialReset (t : SerialTablet) (pModel : Option WacomModel) (line : Line) :
    SerialTablet × Outcome :=
  match pModel.map serialFindModel with
  | none => t.resetFor none none none line
  | some .noMatch => (t, .failure)
  | some .nullDereference => (t, .nullDereference)
  | some (.found pVendor pDevice pSubType) => t.resetFor pVendor pDevice pSubType line

section Frames

variable (t : SerialTablet)

theorem serialSetDevice_eq {pVendor : Option SerialVendor} {pDevice : Option SerialDevice}
    {pSubType : Option SerialSubType} {t chosen : SerialTablet} {outcome : Outcome}
    (h : t.serialSetDevice pVendor pDevice pSubType = (chosen, outcome)) :
    chosen = { t with
      pVendor := pVendor
      pDevice := pDevice
      pSubType := pSubType
      pfnIdent := (pDevice.map SerialDevice.pfnIdent).getD (some .serialIdentDefault) } := by
  cases pDevice with
  | none => exact (Prod.mk.inj h).1.symm
  | some device => exact (Prod.mk.inj h).1.symm

theorem storeVersion_frame (scanned : List Int32) : ∃ major minor release,
    t.storeVersion scanned =
      { t with nVerMajor := major, nVerMinor := minor, nVerRelease := release } := by
  match scanned with
  | [] => exact ⟨_, _, _, rfl⟩
  | [_] => exact ⟨_, _, _, rfl⟩
  | [_, _] => exact ⟨_, _, _, rfl⟩
  | _ :: _ :: _ :: _ => exact ⟨_, _, _, rfl⟩

/-- Reading the version changes nothing but the version numbers. -/
theorem readVersion_frame (pszPos : List UInt8) : ∃ major minor release,
    (t.readVersion pszPos).1 =
      { t with nVerMajor := major, nVerMinor := minor, nVerRelease := release } := by
  obtain ⟨major, minor, release, hfirst⟩ := t.storeVersion_frame (scanInts (chars ".-") pszPos)
  rw [readVersion, hfirst]
  split
  · exact ⟨_, _, _, rfl⟩
  · exact storeVersion_frame _ _

/-- The identification changes nothing but what the tablet is and how it is initialised. -/
structure IdentFrame (t t' : SerialTablet) : Prop where
  parser : t'.pfnParse = t.pfnParse
  requested : t'.modelRequested = t.modelRequested
  count : t'.state.uValueCnt = t.state.uValueCnt
  errors : t'.nBitErrors = t.nBitErrors

theorem serialIdentWacom_frame (line : Line) : IdentFrame t (t.serialIdentWacom line).1 := by
  rcases hrequest : identRequest line with ⟨line', answer⟩
  rw [serialIdentWacom, hrequest]
  cases answer with
  | none => exact ⟨rfl, rfl, rfl, rfl⟩
  | some chResp =>
      simp only
      split
      · exact ⟨rfl, rfl, rfl, rfl⟩
      · next pDev pSub _ =>
          obtain ⟨major, minor, release, hversion⟩ :=
            (t.setFound pDev pSub).readVersion_frame (versionPart chResp)
          rw [hversion]
          exact ⟨rfl, rfl, rfl, rfl⟩

theorem serialIdentTabletPC_frame (line : Line) :
    IdentFrame t (t.serialIdentTabletPC line).1 := by
  rw [serialIdentTabletPC]
  split
  · split
    · exact ⟨rfl, rfl, rfl, rfl⟩
    · split
      · exact ⟨rfl, rfl, rfl, rfl⟩
      · exact ⟨rfl, rfl, rfl, rfl⟩
      · exact ⟨rfl, rfl, rfl, rfl⟩
  · exact ⟨rfl, rfl, rfl, rfl⟩

theorem ident_frame (line : Line) : IdentFrame t (t.ident line).1 := by
  rw [ident]
  split
  · exact ⟨rfl, rfl, rfl, rfl⟩
  · exact t.serialIdentWacom_frame line
  · exact t.serialIdentWacom_frame line
  · exact t.serialIdentTabletPC_frame line

/-- The initialisation changes nothing but the parser, the length of its packets and the
state, and with the parser of protocol V it sets the range of the pressure. -/
structure InitFrame (t t' : SerialTablet) : Prop where
  frame : ∃ pfnParse uPacketLength state,
    t' = { t with pfnParse := pfnParse, uPacketLength := uPacketLength, state := state }
  length : t'.uPacketLength = t.uPacketLength ∨ t'.uPacketLength = 9
  count : t'.state.uValueCnt = t.state.uValueCnt
  pressure : t'.pfnParse = some .serialParseWacomV →
    t.pfnParse = some .serialParseWacomV ∨ (t'.state.values .pressure).nMax = 1023

theorem InitFrame.refl : InitFrame t t := ⟨⟨_, _, _, rfl⟩, Or.inl rfl, rfl, Or.inl⟩

/-- Nothing but the parser of another protocol is set, and the state. -/
theorem InitFrame.other {parser : ParseFunc} (h : parser ≠ .serialParseWacomV)
    {uPacketLength : Nat} (hlength : uPacketLength = t.uPacketLength ∨ uPacketLength = 9)
    {state : WacomState} (hcount : state.uValueCnt = t.state.uValueCnt) :
    InitFrame t
      { t with pfnParse := some parser, uPacketLength := uPacketLength, state := state } :=
  ⟨⟨_, _, _, rfl⟩, hlength, hcount, fun hparser => absurd (Option.some.inj hparser) h⟩

theorem initProtocol4_frame (line : Line) : InitFrame t (t.initProtocol4 line).1 := by
  rw [initProtocol4]
  split
  · split
    · simp only
      split
      · exact .refl t
      · exact .other t (by decide) (Or.inr rfl) rfl
    · split
      · exact .other t (by decide) (Or.inl rfl) rfl
      · split
        · exact .other t (by decide) (Or.inl rfl) rfl
        · split
          · exact .other t (by decide) (Or.inl rfl) rfl
          · exact .refl t
  · exact .refl t

theorem setRangesV_pressure (state : WacomState) :
    ((setRangesV state).values .pressure).nMax = 1023 := by
  simp [setRangesV, setTilt, WacomState.setMax, WacomState.setMin, WacomState.update]

theorem setRangesV_count (state : WacomState) :
    (setRangesV state).uValueCnt = state.uValueCnt := by
  simp [setRangesV, setTilt]

theorem initProtocol_frame (device : SerialDevice) (line : Line) :
    InitFrame t (t.initProtocol device line).1 := by
  rw [initProtocol]
  split
  · exact t.initProtocol4_frame line
  · split
    · exact ⟨⟨_, _, _, rfl⟩, Or.inl rfl, setRangesV_count t.state,
        fun _ => Or.inr (setRangesV_pressure t.state)⟩
    · exact .refl t

theorem storeDimensions_count (state : WacomState) (scanned : List Int32) :
    (storeDimensions state scanned).uValueCnt = state.uValueCnt := by
  match scanned with
  | [] => rfl
  | [_] => rfl
  | _ :: _ :: _ => rfl

theorem serialInitWacom_frame (line : Line) : InitFrame t (t.serialInitWacom line).1 := by
  rcases hrequest : serialSendRequest 126 (chars "C") 32 line with ⟨line', answer⟩
  rw [serialInitWacom, hrequest]
  cases answer with
  | none => exact .refl t
  | some chResp =>
      have hcount := storeDimensions_count t.state (scanInts (chars ",") chResp)
      simp only
      split
      · exact ⟨⟨_, _, _, rfl⟩, Or.inl rfl, hcount, Or.inl⟩
      · split
        · exact ⟨⟨_, _, _, rfl⟩, Or.inl rfl, hcount, Or.inl⟩
        · next device _ =>
            have hinit := initProtocol_frame
              { t with state := storeDimensions t.state (scanInts (chars ",") chResp) } device
              (sendSettings device.uDevice line')
            exact ⟨hinit.frame, hinit.length, hinit.count.trans hcount, hinit.pressure⟩

theorem init_frame (line : Line) : InitFrame t (t.init line).1 := by
  rw [init]
  split
  · exact .refl t
  · exact t.serialInitWacom_frame line
  · exact .other t (by decide) (Or.inl rfl) rfl

end Frames

/-- What the functions called by a reset that succeeds did, one after the other. -/
structure ResetRan (t : SerialTablet) (pModel : Option WacomModel) (line : Line)
    (reset identified chosen : SerialTablet) (line' line'' : Line) : Prop where
  found : ∃ pVendor pDevice pSubType,
    (pModel.map serialFindModel).getD (.found none none none) =
        .found pVendor pDevice pSubType ∧
      t.serialSetDevice pVendor pDevice pSubType = (chosen, .success)
  configures : serialConfigTTY (chosen.pDevice.map SerialDevice.nMinBaudRate) line = (line', 0)
  identifies : chosen.ident line' = (identified, line'', .success)
  initialises : (identified.init line'').1 = reset ∧ (identified.init line'').2.2 = .success

variable {t reset : SerialTablet} {line : Line}

theorem identAndInit_success (h : t.identAndInit line = (reset, .success)) :
    ∃ identified line', t.ident line = (identified, line', .success) ∧
      (identified.init line').1 = reset ∧ (identified.init line').2.2 = .success := by
  rcases hident : t.ident line with ⟨identified, line', outcome⟩
  rw [identAndInit, hident] at h
  cases outcome with
  | success =>
      obtain ⟨hreset, hsuccess⟩ := Prod.mk.inj h
      exact ⟨identified, line', rfl, hreset, hsuccess⟩
  | failure => cases h
  | nullDereference => cases h

theorem resetFor_success {pVendor : Option SerialVendor} {pDevice : Option SerialDevice}
    {pSubType : Option SerialSubType}
    (h : t.resetFor pVendor pDevice pSubType line = (reset, .success)) :
    ∃ chosen line', t.serialSetDevice pVendor pDevice pSubType = (chosen, .success) ∧
      serialConfigTTY (chosen.pDevice.map SerialDevice.nMinBaudRate) line = (line', 0) ∧
      chosen.identAndInit line' = (reset, .success) := by
  rcases hset : t.serialSetDevice pVendor pDevice pSubType with ⟨chosen, outcome⟩
  rw [resetFor, hset] at h
  cases outcome with
  | success =>
      rcases hconfig : serialConfigTTY (chosen.pDevice.map SerialDevice.nMinBaudRate) line with
        ⟨line', failed⟩
      simp only [hconfig] at h
      by_cases hfailed : failed = 0
      · rw [if_neg (not_not_intro hfailed)] at h
        exact ⟨chosen, line', rfl, by rw [hconfig, hfailed], h⟩
      · rw [if_pos hfailed] at h
        cases h
  | failure => cases h
  | nullDereference => cases h

theorem serialReset_success {pModel : Option WacomModel}
    (h : t.serialReset pModel line = (reset, .success)) :
    ∃ identified chosen line' line'',
      ResetRan t pModel line reset identified chosen line' line'' := by
  have hfor : ∃ pVendor pDevice pSubType,
      (pModel.map serialFindModel).getD (.found none none none) =
          .found pVendor pDevice pSubType ∧
        t.resetFor pVendor pDevice pSubType line = (reset, .success) := by
    rw [serialReset] at h
    split at h
    · next hnone => exact ⟨none, none, none, by rw [hnone]; rfl, h⟩
    · cases h
    · cases h
    · next pVendor pDevice pSubType hfound =>
        exact ⟨pVendor, pDevice, pSubType, by rw [hfound]; rfl, h⟩
  obtain ⟨pVendor, pDevice, pSubType, hfound, hreset⟩ := hfor
  obtain ⟨chosen, line', hset, hconfig, hrest⟩ := resetFor_success hreset
  obtain ⟨identified, line'', hident, hinit⟩ := identAndInit_success hrest
  exact ⟨identified, chosen, line', line'', ⟨pVendor, pDevice, pSubType, hfound, hset⟩, hconfig,
    hident, hinit⟩

section Success

variable {t' : SerialTablet} {line' : Line}

/-- A listed name that an answer begins with. -/
theorem findIdent_listed {chResp : List UInt8} {device : SerialDevice} {subType : SerialSubType}
    (h : findIdent chResp = some (device, subType)) :
    device ∈ xWacomDevices ∧ subType ∈ device.pSubTypes.getD [] := by
  obtain ⟨other, hmem, hother⟩ := List.exists_of_findSome?_eq_some h
  obtain ⟨found, hfound, heq⟩ := Option.map_eq_some_iff.mp hother
  cases heq
  exact ⟨hmem, List.mem_of_find?_eq_some hfound⟩

/-- The subtypes that answer on the line are all initialised the same way. -/
theorem listed_pfnInit : ∀ device ∈ xWacomDevices, ∀ subType ∈ device.pSubTypes.getD [],
    subType.pfnInit = some .serialInitWacom := by
  decide

theorem serialIdentWacom_success (h : t.serialIdentWacom line = (t', line', .success)) :
    ∃ chResp device subType, identRequest line = (line', some chResp) ∧
      findIdent chResp = some (device, subType) ∧
      (t.setFound device subType).readVersion (versionPart chResp) = (t', .success) := by
  rcases hrequest : identRequest line with ⟨line₁, answer⟩
  rw [serialIdentWacom, hrequest] at h
  cases answer with
  | none => cases h
  | some chResp =>
      simp only at h
      split at h
      · cases h
      · next device subType hfound =>
          obtain ⟨hversion, hrest⟩ := Prod.mk.inj h
          obtain ⟨hline, hsuccess⟩ := Prod.mk.inj hrest
          exact ⟨chResp, device, subType, by rw [hline], hfound, Prod.ext hversion hsuccess⟩

theorem storeVersion_major {scanned : List Int32} {major : Int32}
    (h : scanned.head? = some major) : (t.storeVersion scanned).nVerMajor = major := by
  match scanned with
  | [] => cases h
  | [_] => exact Option.some.inj h
  | [_, _] => exact Option.some.inj h
  | _ :: _ :: _ :: _ => exact Option.some.inj h

/-- The major version number is the first number that is scanned. -/
theorem readVersion_success {pszPos : List UInt8} (h : t.readVersion pszPos = (t', .success)) :
    (scanInt pszPos).map Prod.fst = some t'.nVerMajor := by
  have hhead : ∀ separators, (scanInts separators pszPos).length ≠ 0 →
      ∃ major, (scanInts separators pszPos).head? = some major ∧
        (scanInt pszPos).map Prod.fst = some major := by
    intro separators hne
    cases hscan : scanInts separators pszPos with
    | nil => rw [hscan] at hne; exact absurd rfl hne
    | cons major rest => exact ⟨major, rfl, by rw [← scanInts_head? separators, hscan]; rfl⟩
  simp only [readVersion] at h
  split at h
  · next hthree =>
      obtain ⟨major, hfirst, hscan⟩ := hhead (chars ".-") (by omega)
      rw [hscan, ← (Prod.mk.inj h).1, storeVersion_major hfirst]
  · split at h
    · next htwo =>
        obtain ⟨major, hfirst, hscan⟩ := hhead (chars ".") (by omega)
        rw [hscan, ← (Prod.mk.inj h).1, storeVersion_major hfirst]
    · cases (Prod.mk.inj h).2

/-- The handle of a tablet PC before it is identified. -/
structure IsTabletPC (t : SerialTablet) (d : SerialDevice) : Prop where
  vendor : t.pVendor = some xtpcVendor
  device : t.pDevice = some d
  subTypes : d.pSubTypes = some xTabletPC
  length : d.uPacketLength = 9

/-- A tablet PC is identified without the line. -/
theorem serialIdentTabletPC_eq {d : SerialDevice} (h : IsTabletPC t d) (line : Line) :
    t.serialIdentTabletPC line =
      ({ t with
          pSubType := some (tpcSubType "tpc" "Tablet PC Screen" 1)
          state := { t.state with uValid := d.uCaps }
          uPacketLength := 9
          pfnInit := some .serialInitTabletPC
          nVerMajor := 0
          nVerMinor := 0
          nVerRelease := 0 }, line, .success) := by
  rw [serialIdentTabletPC, h.vendor, h.device]
  simp only [ne_eq, not_true_eq_false, if_false, h.subTypes, xTabletPC, h.length]
  rfl

/-- After the dimensions the initialisation goes on by the protocol. -/
theorem serialInitWacom_success {device : SerialDevice} (hdevice : t.pDevice = some device)
    (h : (t.serialInitWacom line).2.2 = .success) :
    ∃ state line', state.uValueCnt = t.state.uValueCnt ∧
      t.serialInitWacom line = { t with state := state }.initProtocol device line' := by
  rcases hrequest : serialSendRequest 126 (chars "C") 32 line with ⟨line₁, answer⟩
  rw [serialInitWacom, hrequest] at h ⊢
  cases answer with
  | none => cases h
  | some chResp =>
      simp only at h ⊢
      split at h
      · cases h
      · next htwo =>
          rw [if_neg htwo, hdevice]
          exact ⟨_, _, storeDimensions_count t.state _, rfl⟩

end Success

end SerialTablet

/-- `WacomOpenSerialTablet`: the handle, if there is one. -/
def wacomOpenSerialTablet (pModel : Option WacomModel) (line : Line) : Option SerialTablet :=
  match (newTablet pModel).serialReset pModel line with
  | (t, .success) => some t
  | _ => none

namespace SerialTablet

/-- What ran when a handle was opened. -/
theorem open_ran {pModel : Option WacomModel} {line : Line} {t : SerialTablet}
    (h : wacomOpenSerialTablet pModel line = some t) :
    ∃ identified chosen line' line'',
      ResetRan (newTablet pModel) pModel line t identified chosen line' line'' := by
  rw [wacomOpenSerialTablet] at h
  split at h
  · next reset hreset =>
      cases h
      exact serialReset_success hreset
  · cases h

end SerialTablet

/-- A call of `SerialReadRaw`: the buffer and its size, the line while the tablet is
reset, if it is, and what there is to read after that. -/
structure ReadCall where
  puchData : Memory
  uSize : Nat
  line : Line
  port : List Turn

namespace SerialTablet

/-- The check for bit errors at the start of `SerialReadRaw`. -/
def resetIfErrors (t : SerialTablet) (line : Line) : SerialTablet :=
  if t.nBitErrors > 3 then
    ({ t with nBitErrors := 0 }.serialReset (some t.modelRequested) line).1
  else t

/-- `SerialReadRaw`: the handle, the buffer and the number returned. -/
def serialReadRaw (t : SerialTablet) (call : ReadCall) : SerialTablet × Memory × Int :=
  if call.uSize < t.uPacketLength then (t, call.puchData, 0)
  else
    let filled := fill t.uPacketLength call.puchData (t.resetIfErrors call.line).nBitErrors 0
      call.port
    ({ t.resetIfErrors call.line with nBitErrors := filled.nBitErrors }, filled.puchData,
      filled.returned)

end SerialTablet

end AndroidX86Tv.Wacom
