import AndroidX86Tv.Lib.History
import AndroidX86Tv.Wacom.Parsers

/-!
# The identity of an open tablet (wacom/wacserial.c)

The getters follow `pVendor`, `pDevice` and `pSubType` without a check. The pointers
are set when the handle is opened, but the reset after bit errors starts from the
requested model again, and may leave it at that.
-/

namespace AndroidX86Tv.Wacom

open ByteMemory EventHistory

def wacomClassSerial : UInt32 := 0x0001

namespace SerialTablet

section Getters

variable (t : SerialTablet)

/-- `SerialGetModel`; a getter gives nothing where it follows a `NULL` pointer. -/
def serialGetModel : Option WacomModel := do
  let vendor ← t.pVendor
  let device ← t.pDevice
  let subType ← t.pSubType
  return ⟨wacomClassSerial, vendor.uVendor, device.uDevice, subType.uSubType⟩

def serialGetVendorName : Option String := t.pVendor.map SerialVendor.pszDesc

def serialGetDeviceName : Option String := t.pDevice.map SerialDevice.pszDesc

def serialGetSubTypeName : Option String := t.pSubType.map SerialSubType.pszName

def serialGetModelName : Option String := t.pSubType.map SerialSubType.pszDesc

def serialGetCaps : Option UInt32 := t.pDevice.map SerialDevice.uCaps

/-- No getter follows a `NULL` pointer. -/
structure GettersSafe : Prop where
  model : t.serialGetModel.isSome
  vendorName : t.serialGetVendorName.isSome
  deviceName : t.serialGetDeviceName.isSome
  subTypeName : t.serialGetSubTypeName.isSome
  modelName : t.serialGetModelName.isSome
  caps : t.serialGetCaps.isSome

/-- The tablet is known. -/
structure Identified : Prop where
  vendor : t.pVendor.isSome
  device : t.pDevice.isSome
  subType : t.pSubType.isSome

/-- The pointers into the tables. -/
def identity : Option SerialVendor × Option SerialDevice × Option SerialSubType :=
  (t.pVendor, t.pDevice, t.pSubType)

end Getters

/-- A call for an open handle. -/
inductive Call where
  | readRaw (call : ReadCall)
  | parseData (puchData : Memory) (uLength : Nat) (pState : Option WacomState)

def step (t : SerialTablet) : Call → SerialTablet
  | .readRaw call => (t.serialReadRaw call).1
  | .parseData puchData uLength pState => (t.serialParseData puchData uLength pState).1

/-- The tablet answers the identification request with a listed name. -/
def AnswersListed (line : Line) : Prop :=
  ∃ chResp, (identRequest line).2 = some chResp ∧ (findIdent chResp).isSome

/-- The line can be configured, and the tablet is a tablet PC or answers with a listed
name. -/
def LineIdentifies (pDevice : Option SerialDevice) (line : Line) : Prop :=
  (serialConfigTTY (pDevice.map SerialDevice.nMinBaudRate) line).2 = 0 ∧
    (pDevice.bind SerialDevice.pfnIdent = some .serialIdentTabletPC ∨
      AnswersListed (serialConfigTTY (pDevice.map SerialDevice.nMinBaudRate) line).1)

/-- A reset for the requested model ends with a known tablet: the model names a subtype,
or the tablet is identified on the line. -/
def ResetIdentifies (requested : WacomModel) (line : Line) : Prop :=
  ∃ pVendor pDevice pSubType, serialFindModel requested = .found pVendor pDevice pSubType ∧
    (pSubType.isSome ∨ LineIdentifies pDevice line)

/-- The call does not reset the tablet, or the reset ends with a known tablet. -/
def KeepsIdentity (t : SerialTablet) : Call → Prop
  | .readRaw call =>
      t.uPacketLength ≤ call.uSize → 3 < t.nBitErrors → ResetIdentifies t.modelRequested call.line
  | .parseData _ _ _ => True

variable {t : SerialTablet} {line : Line}

theorem identified_iff_identity :
    t.Identified ↔ t.identity.1.isSome ∧ t.identity.2.1.isSome ∧ t.identity.2.2.isSome :=
  ⟨fun h => ⟨h.vendor, h.device, h.subType⟩, fun h => ⟨h.1, h.2.1, h.2.2⟩⟩

theorem Identified.congr {t' : SerialTablet} (h : t.Identified)
    (heq : t'.identity = t.identity) : t'.Identified := by
  rw [identified_iff_identity, heq]
  exact identified_iff_identity.mp h

/-- The getters are safe exactly on a known tablet. -/
theorem gettersSafe_iff : t.GettersSafe ↔ t.Identified := by
  constructor
  · intro h
    have hvendor := h.vendorName
    have hdevice := h.deviceName
    have hsubType := h.modelName
    rw [serialGetVendorName, Option.isSome_map] at hvendor
    rw [serialGetDeviceName, Option.isSome_map] at hdevice
    rw [serialGetModelName, Option.isSome_map] at hsubType
    exact ⟨hvendor, hdevice, hsubType⟩
  · rintro ⟨hvendor, hdevice, hsubType⟩
    obtain ⟨vendor, hv⟩ := Option.isSome_iff_exists.mp hvendor
    obtain ⟨device, hd⟩ := Option.isSome_iff_exists.mp hdevice
    obtain ⟨subType, hs⟩ := Option.isSome_iff_exists.mp hsubType
    constructor
    · rw [serialGetModel, hv, hd, hs]
      rfl
    · rw [serialGetVendorName, hv]
      rfl
    · rw [serialGetDeviceName, hd]
      rfl
    · rw [serialGetSubTypeName, hs]
      rfl
    · rw [serialGetModelName, hs]
      rfl
    · rw [serialGetCaps, hd]
      rfl

section Initialisation

/-- What neither the version numbers nor the initialisation touch. -/
structure SameModel (t' t : SerialTablet) : Prop where
  identity : t'.identity = t.identity
  requested : t'.modelRequested = t.modelRequested

theorem SameModel.refl (t : SerialTablet) : SameModel t t := ⟨rfl, rfl⟩

theorem readVersion_same (t : SerialTablet) (pszPos : List UInt8) :
    SameModel (t.readVersion pszPos).1 t := by
  obtain ⟨major, minor, release, hframe⟩ := t.readVersion_frame pszPos
  rw [hframe]
  exact ⟨rfl, rfl⟩

theorem init_same (t : SerialTablet) (line : Line) : SameModel (t.init line).1 t := by
  obtain ⟨pfnParse, uPacketLength, state, hframe⟩ := (t.init_frame line).frame
  rw [hframe]
  exact ⟨rfl, rfl⟩

end Initialisation

section Identification

theorem serialIdentWacom_listed (h : AnswersListed line) :
    (t.serialIdentWacom line).1.Identified := by
  obtain ⟨chResp, hanswer, hlisted⟩ := h
  obtain ⟨⟨pDev, pSub⟩, hfound⟩ := Option.isSome_iff_exists.mp hlisted
  rcases hrequest : identRequest line with ⟨line', answer⟩
  rw [hrequest] at hanswer
  cases hanswer
  rw [serialIdentWacom, hrequest]
  simp only [hfound]
  have hset : (t.setFound pDev pSub).Identified := ⟨rfl, rfl, rfl⟩
  exact hset.congr (readVersion_same (t.setFound pDev pSub) (versionPart chResp)).identity

/-- Without such an answer the identification fails and changes nothing. -/
theorem serialIdentWacom_unlisted (h : ¬ AnswersListed line) :
    (t.serialIdentWacom line).1 = t ∧ (t.serialIdentWacom line).2.2 = .failure := by
  rcases hrequest : identRequest line with ⟨line', answer⟩
  rw [serialIdentWacom, hrequest]
  cases answer with
  | none => exact ⟨rfl, rfl⟩
  | some chResp =>
      have hfound : findIdent chResp = none := by
        rw [← Option.not_isSome_iff_eq_none]
        intro hlisted
        exact h ⟨chResp, by rw [hrequest], hlisted⟩
      simp only [hfound, and_self]

theorem identAndInit_same (t : SerialTablet) (line : Line) :
    SameModel (t.identAndInit line).1 (t.ident line).1 := by
  rcases hident : t.ident line with ⟨t', line', outcome⟩
  rw [identAndInit, hident]
  cases outcome with
  | success => exact t'.init_same line'
  | failure => exact .refl t'
  | nullDereference => exact .refl t'

/-- The identification over the line leaves a known tablet if the tablet was known or answers
with a listed name. -/
theorem serialIdentWacom_identified_iff :
    (t.serialIdentWacom line).1.Identified ↔ t.Identified ∨ AnswersListed line := by
  by_cases hanswer : AnswersListed line
  · exact iff_of_true (serialIdentWacom_listed hanswer) (Or.inr hanswer)
  · rw [(serialIdentWacom_unlisted hanswer).1]
    exact (or_iff_left hanswer).symm

theorem serialIdentTabletPC_identified {d : SerialDevice} (h : IsTabletPC t d) :
    (t.serialIdentTabletPC line).1.Identified := by
  rw [serialIdentTabletPC_eq h]
  exact ⟨by rw [h.vendor]; rfl, by rw [h.device]; rfl, rfl⟩

end Identification

section Reset

variable {model : WacomModel} {pVendor : Option SerialVendor} {pDevice : Option SerialDevice}
  {pSubType : Option SerialSubType}

/-- A device that `SerialFindModel` found can be set. -/
theorem serialSetDevice_found (h : serialFindModel model = .found pVendor pDevice pSubType)
    (t : SerialTablet) : (t.serialSetDevice pVendor pDevice pSubType).2 = .success := by
  cases serialFindModel_found h with
  | inl hnone =>
      rw [hnone.2.1]
      rfl
  | inr hlisted =>
      obtain ⟨vendor, device, ⟨hvendor, hdevice⟩, -, rfl⟩ := hlisted
      have hident : device.pfnIdent ≠ none := by
        cases listed_pfnIdent vendor hvendor device hdevice with
        | inl hwacom => rw [hwacom]; exact Option.some_ne_none _
        | inr htpc => rw [htpc]; exact Option.some_ne_none _
      exact if_neg hident

/-- A handle for a model that was found is known if the model names a subtype. -/
theorem identified_found_iff (h : serialFindModel model = .found pVendor pDevice pSubType)
    (hidentity : t.identity = (pVendor, pDevice, pSubType)) : t.Identified ↔ pSubType.isSome := by
  rw [identified_iff_identity, hidentity]
  cases serialFindModel_found h with
  | inl hnone => simp [hnone]
  | inr hlisted =>
      obtain ⟨vendor, device, -, rfl, rfl⟩ := hlisted
      simp

/-- What the identification makes of a handle for a model that was found. -/
theorem ident_found_iff (h : serialFindModel model = .found pVendor pDevice pSubType)
    (hidentity : t.identity = (pVendor, pDevice, pSubType))
    (hpfnIdent : t.pfnIdent =
      (pDevice.map SerialDevice.pfnIdent).getD (some .serialIdentDefault)) :
    (t.ident line).1.Identified ↔ pSubType.isSome ∨
      (pDevice.bind SerialDevice.pfnIdent = some .serialIdentTabletPC ∨ AnswersListed line) := by
  have hline : (t.serialIdentWacom line).1.Identified ↔ pSubType.isSome ∨ AnswersListed line := by
    rw [serialIdentWacom_identified_iff, identified_found_iff h hidentity]
  cases serialFindModel_found h with
  | inl hnone =>
      obtain ⟨rfl, rfl, rfl⟩ := hnone
      have hident : t.ident line = t.serialIdentWacom line := by
        rw [ident, hpfnIdent]
        rfl
      rw [hident, hline]
      simp
  | inr hlisted =>
      obtain ⟨vendor, device, ⟨hvendor, hdevice⟩, rfl, rfl⟩ := hlisted
      have hfunc : t.pfnIdent = device.pfnIdent := hpfnIdent
      rw [Option.bind_some]
      cases listed_pfnIdent vendor hvendor device hdevice with
      | inl hwacom =>
          rw [ident, hfunc, hwacom]
          simpa using hline
      | inr htpc =>
          obtain ⟨rfl, hsubTypes, hlength⟩ := listed_tabletPC vendor hvendor device hdevice htpc
          have htablet : IsTabletPC t device := ⟨congrArg Prod.fst hidentity,
            congrArg (fun identity => identity.2.1) hidentity, hsubTypes, hlength⟩
          rw [ident, hfunc, htpc]
          exact iff_of_true (serialIdentTabletPC_identified htablet) (Or.inr (Or.inl rfl))

/-- A reset leaves a known tablet exactly if the requested model names a subtype or the
tablet is identified on the line. -/
theorem serialReset_identified_iff (h : serialFindModel model = .found pVendor pDevice pSubType)
    (t : SerialTablet) (line : Line) :
    (t.serialReset (some model) line).1.Identified ↔ ResetIdentifies model line := by
  have hset := serialSetDevice_found h t
  rcases hresult : t.serialSetDevice pVendor pDevice pSubType with ⟨t', outcome⟩
  have hchosen := serialSetDevice_eq hresult
  rw [hresult] at hset
  cases hset
  have hidentity : t'.identity = (pVendor, pDevice, pSubType) := by
    rw [hchosen]
    rfl
  have hmeets : ResetIdentifies model line ↔ pSubType.isSome ∨ LineIdentifies pDevice line := by
    constructor
    · rintro ⟨vendor, device, subType, hfound, hor⟩
      cases hfound.symm.trans h
      exact hor
    · intro hor
      exact ⟨pVendor, pDevice, pSubType, h, hor⟩
  have hdevice : t'.pDevice = pDevice := congrArg (fun identity => identity.2.1) hidentity
  have hpfnIdent : t'.pfnIdent =
      (pDevice.map SerialDevice.pfnIdent).getD (some .serialIdentDefault) := by rw [hchosen]
  rw [hmeets, serialReset, Option.map_some, h]
  simp only [resetFor, hresult, hdevice]
  rcases hconfig : serialConfigTTY (pDevice.map SerialDevice.nMinBaudRate) line with
    ⟨line', failed⟩
  rw [LineIdentifies, hconfig]
  by_cases hfailed : failed = 0
  · have hsame := (t'.identAndInit_same line').identity
    rw [if_neg (not_not_intro hfailed), and_iff_right hfailed,
      ← ident_found_iff h hidentity hpfnIdent]
    exact ⟨fun hknown => hknown.congr hsame.symm, fun hknown => hknown.congr hsame⟩
  · rw [if_pos hfailed, or_iff_left fun hline => hfailed hline.1]
    exact identified_found_iff h hidentity

theorem serialReset_requested (t : SerialTablet) (pModel : Option WacomModel) (line : Line) :
    (t.serialReset pModel line).1.modelRequested = t.modelRequested := by
  have hfor : ∀ pVendor pDevice pSubType,
      (t.resetFor pVendor pDevice pSubType line).1.modelRequested = t.modelRequested := by
    intro pVendor pDevice pSubType
    rcases hresult : t.serialSetDevice pVendor pDevice pSubType with ⟨chosen, outcome⟩
    have hset : chosen.modelRequested = t.modelRequested := by rw [serialSetDevice_eq hresult]
    rw [resetFor, hresult]
    cases outcome with
    | success =>
        simp only
        split
        · exact hset
        · exact ((chosen.identAndInit_same _).requested.trans
            (chosen.ident_frame _).requested).trans hset
    | failure => exact hset
    | nullDereference => exact hset
  rw [serialReset]
  split
  · exact hfor none none none
  · rfl
  · rfl
  · exact hfor _ _ _

/-- An identification that succeeds leaves a known tablet. -/
theorem ident_success {t' : SerialTablet} {line' : Line}
    (h : t.ident line = (t', line', .success)) : t'.Identified := by
  have hwacom : t.serialIdentWacom line = (t', line', .success) → t'.Identified := by
    intro hident
    by_cases hanswer : AnswersListed line
    · have hknown := serialIdentWacom_listed (t := t) hanswer
      rwa [hident] at hknown
    · have hfailed := (serialIdentWacom_unlisted (t := t) hanswer).2
      rw [hident] at hfailed
      cases hfailed
  rw [ident] at h
  split at h
  · cases h
  · exact hwacom h
  · exact hwacom h
  · rw [serialIdentTabletPC] at h
    split at h
    · next vendor device hvendor hdevice =>
        split at h
        · cases h
        · split at h
          · cases h
          · cases h
          · cases h
            exact ⟨by rw [hvendor]; rfl, by rw [hdevice]; rfl, rfl⟩
    · cases h

end Reset

section Calls

theorem parse_same (t : SerialTablet) (parser : ParseFunc) (puchData : Memory) (uLength : Nat)
    (pState : Option WacomState) : SameModel (t.parse parser puchData uLength pState).1 t := by
  obtain ⟨nToolID, state, hframe⟩ := t.parse_frame parser puchData uLength pState
  rw [hframe]
  exact ⟨rfl, rfl⟩

theorem serialParseData_same (t : SerialTablet) (puchData : Memory) (uLength : Nat)
    (pState : Option WacomState) : SameModel (t.serialParseData puchData uLength pState).1 t := by
  rw [serialParseData]
  split
  · exact ⟨rfl, rfl⟩
  · split
    · next parser _ =>
        have hparse := parse_same { t with nBitErrors := 0 } parser puchData uLength pState
        exact ⟨hparse.identity, hparse.requested⟩
    · exact ⟨rfl, rfl⟩

/-- The requested model can be found, as at the opening. -/
def RequestFound (t : SerialTablet) : Prop :=
  ∃ pVendor pDevice pSubType,
    serialFindModel t.modelRequested = .found pVendor pDevice pSubType

theorem step_requested (t : SerialTablet) (call : Call) :
    (t.step call).modelRequested = t.modelRequested := by
  cases call with
  | readRaw call =>
      rw [step, serialReadRaw]
      split
      · rfl
      · rw [resetIfErrors]
        split
        · exact serialReset_requested { t with nBitErrors := 0 } _ _
        · rfl
  | parseData puchData uLength pState => exact (t.serialParseData_same _ _ _).requested

/-- A call leaves a known tablet exactly if it does not reset it, or the reset ends with a
known one. -/
theorem step_identified_iff (hfound : t.RequestFound) (hknown : t.Identified) (call : Call) :
    (t.step call).Identified ↔ t.KeepsIdentity call := by
  cases call with
  | readRaw call =>
      obtain ⟨pVendor, pDevice, pSubType, hmodel⟩ := hfound
      rw [step, serialReadRaw, KeepsIdentity]
      by_cases hsize : call.uSize < t.uPacketLength
      · rw [if_pos hsize]
        exact iff_of_true hknown fun hle => absurd hle (by omega)
      · rw [if_neg hsize, resetIfErrors]
        by_cases herrors : t.nBitErrors > 3
        · have hreset := serialReset_identified_iff hmodel { t with nBitErrors := 0 } call.line
          rw [if_pos herrors]
          constructor
          · intro hafter _ _
            exact hreset.mp (hafter.congr rfl)
          · intro hmeets
            exact (hreset.mpr (hmeets (by omega) herrors)).congr rfl
        · rw [if_neg herrors]
          exact iff_of_true (hknown.congr rfl) fun _ hmore => absurd hmore herrors
  | parseData puchData uLength pState =>
      exact iff_of_true (hknown.congr (t.serialParseData_same _ _ _).identity) trivial

variable {pModel : Option WacomModel}

theorem open_requestFound (h : wacomOpenSerialTablet pModel line = some t) :
    t.RequestFound := by
  obtain ⟨identified, chosen, line', line'', hran⟩ := open_ran h
  obtain ⟨pVendor, pDevice, pSubType, hmodel, hset⟩ := hran.found
  have hrequested : t.modelRequested = (newTablet pModel).modelRequested := by
    have hinit := (identified.init_same line'').requested
    have hident := (chosen.ident_frame line').requested
    rw [hran.initialises.1] at hinit
    rw [hran.identifies] at hident
    rw [hinit, hident, serialSetDevice_eq hset]
  rw [RequestFound, hrequested]
  cases pModel with
  | none => exact ⟨none, none, none, rfl⟩
  | some model => exact ⟨pVendor, pDevice, pSubType, hmodel⟩

theorem open_identified (h : wacomOpenSerialTablet pModel line = some t) : t.Identified := by
  obtain ⟨identified, _, _, line'', hran⟩ := open_ran h
  have hsame := (identified.init_same line'').identity
  rw [hran.initialises.1] at hsame
  exact (ident_success hran.identifies).congr hsame

/-- All along a run of an open handle the tablet is known, and the getters are safe, exactly
if every reset on the way ends with a known tablet. -/
theorem identity_kept_iff (hopen : wacomOpenSerialTablet pModel line = some t)
    (calls : List Call) :
    (∀ before after, calls = before ++ after →
        (run step t before).Identified ∧ (run step t before).GettersSafe) ↔
      AllSteps step KeepsIdentity t calls := by
  rw [← always_iff_allSteps Identified RequestFound ?_ ?_
    (open_requestFound hopen) (open_identified hopen) calls]
  · constructor
    · intro h before after hcalls
      exact (h before after hcalls).1
    · intro h before after hcalls
      exact ⟨h before after hcalls, gettersSafe_iff.mpr (h before after hcalls)⟩
  · intro t call hfound
    rwa [RequestFound, step_requested]
  · intro t call hfound hknown
    exact step_identified_iff hfound hknown call

/-- The line of a Graphire, which answers as it should. -/
def graphireLine : Line :=
  answeringLine [3, 2, 3, 2, 3, 2, 4, 3, 3, 3] "~#ET-0405-R00,V1.3-5\r~C5103,3711\r"

/-- A line on which nothing succeeds. -/
def deadLine : Line where
  isatty := true
  tcgetattr := false
  tcsetattr := []
  write := []
  arrivals := []
  errno := 0
  ioError := 5

theorem graphire_opens : (wacomOpenSerialTablet none graphireLine).isSome = true := by
  decide +kernel

def graphire : SerialTablet := (wacomOpenSerialTablet none graphireLine).get graphire_opens

theorem open_graphire : wacomOpenSerialTablet none graphireLine = some graphire :=
  (Option.some_get graphire_opens).symm

/-- Four packets without the high bit, and a read that resets the tablet. -/
def errorsThenRead (line : Line) : List Call :=
  List.replicate 4 (.parseData (fun _ => 0) 7 none) ++ [.readRaw ⟨fun _ => 0, 64, line, []⟩]

theorem graphire_identifies : ResetIdentifies .zero graphireLine :=
  ⟨none, none, none, rfl, Or.inr ⟨by decide +kernel, Or.inr
    ⟨chars "ET-0405-R00,V1.3-5", by decide +kernel, by decide +kernel⟩⟩⟩

/-- A Graphire that answers again while it is reset stays known. -/
theorem identity_kept_graphire :
    (run step graphire (errorsThenRead graphireLine)).Identified ∧
      (run step graphire (errorsThenRead graphireLine)).GettersSafe := by
  apply (identity_kept_iff open_graphire (errorsThenRead graphireLine)).mpr ?_
    (errorsThenRead graphireLine) [] (List.append_nil _).symm
  refine ⟨trivial, trivial, trivial, trivial, fun _ _ => ?_, trivial⟩
  simp only [step_requested]
  exact graphire_identifies

/-- A tablet that is unplugged while it is reset is forgotten. -/
theorem not_identity_kept :
    ¬ ∀ (pModel : Option WacomModel) (line : Line) (t : SerialTablet),
      wacomOpenSerialTablet pModel line = some t → ∀ calls : List Call,
        (run step t calls).Identified ∧ (run step t calls).GettersSafe := by
  intro h
  have hknown := (h none graphireLine graphire open_graphire (errorsThenRead deadLine)).1
  exact absurd hknown.vendor (by decide +kernel)

end Calls

end SerialTablet

end AndroidX86Tv.Wacom
