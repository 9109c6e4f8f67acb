import AndroidX86Tv.Wacom.State

/-!
# The models of serial tablets (wacom/wacserial.c)

The tables of vendors, devices and subtypes, and `SerialFindModel`, which looks a
requested model up in them.

## Implementation notes

A pointer into a table is the entry that it points to; no two entries are the same.
-/

namespace AndroidX86Tv.Wacom

/-- The functions that may stand in `pfnIdent`. -/
inductive IdentFunc where
  | serialIdentDefault
  | serialIdentWacom
  | serialIdentTabletPC
  deriving DecidableEq

/-- The functions that may stand in `pfnInit`. -/
inductive InitFunc where
  | serialInitWacom
  | serialInitTabletPC
  deriving DecidableEq

structure SerialSubType where
  pszName : String
  pszDesc : String
  uSubType : UInt32
  pszIdent : String
  pfnInit : Option InitFunc
  deriving DecidableEq

structure SerialDevice where
  pszName : String
  pszDesc : String
  uDevice : UInt32
  pSubTypes : Option (List SerialSubType)
  nProtocol : Int32
  uPacketLength : Nat
  uCaps : UInt32
  nMinBaudRate : Nat
  pfnIdent : Option IdentFunc
  deriving DecidableEq

structure SerialVendor where
  pszName : String
  pszDesc : String
  uVendor : UInt32
  pDevices : List SerialDevice
  deriving DecidableEq

def wacomVendorWacom : UInt32 := 0x056A
def wacomVendorTpc : UInt32 := 0xFFFFFF01

def wacomDeviceArtPad : UInt32 := 0x0001
def wacomDeviceArtPadII : UInt32 := 0x0002
def wacomDeviceDigitizer : UInt32 := 0x0003
def wacomDeviceDigitizerII : UInt32 := 0x0004
def wacomDevicePenPartner : UInt32 := 0x0005
def wacomDeviceGraphire : UInt32 := 0x0006
def wacomDeviceIntuos : UInt32 := 0x000A
def wacomDeviceIntuos2 : UInt32 := 0x000B
def wacomDeviceCintiq : UInt32 := 0x000C
def wacomDeviceTpc : UInt32 := 0x0010

def caps (fields : List Field) : UInt32 := fields.foldl (fun mask f => mask ||| wacomValid f) 0

def artPadCaps : UInt32 :=
  caps [.toolType, .proximity, .buttons, .positionX, .positionY, .pressure]

def artPadIICaps : UInt32 :=
  caps [.toolType, .proximity, .buttons, .positionX, .positionY, .pressure]

def digitizerIICaps : UInt32 :=
  caps [.toolType, .proximity, .buttons, .positionX, .positionY, .pressure, .tiltX, .tiltY]

def penPartnerCaps : UInt32 :=
  caps [.toolType, .proximity, .buttons, .positionX, .positionY, .pressure]

def graphireCaps : UInt32 :=
  caps [.toolType, .proximity, .buttons, .positionX, .positionY, .pressure, .tiltX, .tiltY]

def cintiqCaps : UInt32 :=
  caps [.toolType, .proximity, .buttons, .positionX, .positionY, .pressure, .tiltX, .tiltY]

def intuosCaps : UInt32 :=
  caps [.toolType, .serial, .proximity, .buttons, .positionX, .positionY, .rotationZ, .distance,
    .pressure, .tiltX, .tiltY, .absWheel, .relWheel, .throttle]

def tabletPCCaps : UInt32 :=
  caps [.toolType, .serial, .proximity, .buttons, .positionX, .positionY, .pressure]

def intuos2Caps : UInt32 := intuosCaps

def protocol4 : Int32 := 4
def protocol5 : Int32 := 5

/-- `WACOM_SUBTYPE`. -/
def wacomSubType (id d : String) (s : UInt32) : SerialSubType :=
  ⟨id, d, s, id, some .serialInitWacom⟩

/-- `TPC_SUBTYPE`. -/
def tpcSubType (id d : String) (s : UInt32) : SerialSubType :=
  ⟨id, d, s, id, some .serialInitTabletPC⟩

/-- `WACOM_DEVICE_P4`. -/
def wacomDeviceP4 (n d : String) (i : UInt32) (s : Option (List SerialSubType)) (c : UInt32) :
    SerialDevice :=
  ⟨n, d, i, s, protocol4, 7, c, 9600, some .serialIdentWacom⟩

/-- `WACOM_DEVICE_P5`. -/
def wacomDeviceP5 (n d : String) (i : UInt32) (s : Option (List SerialSubType)) (c : UInt32) :
    SerialDevice :=
  ⟨n, d, i, s, protocol5, 9, c, 9600, some .serialIdentWacom⟩

/-- `TPC_DEVICE`. -/
def tpcDevice (n d : String) (i : UInt32) (s : Option (List SerialSubType)) (c : UInt32) :
    SerialDevice :=
  ⟨n, d, i, s, 0, 9, c, 19200, some .serialIdentTabletPC⟩

def xArtPadII : List SerialSubType := [wacomSubType "KT-0405-R" "Wacom ArtPadII 4x5" 1]

def xDigitizerII : List SerialSubType :=
  [wacomSubType "UD-0608-R" "Wacom DigitizerII 6x8" 1,
    wacomSubType "UD-1212-R" "Wacom DigitizerII 12x12" 2,
    wacomSubType "UD-1218-R" "Wacom DigitizerII 12x18" 3,
    wacomSubType "UD-1825-R" "Wacom DigitizerII 18x25" 4]

def xPenPartner : List SerialSubType := [wacomSubType "CT-0405-R" "Wacom PenPartner" 1]

def xGraphire : List SerialSubType := [wacomSubType "ET-0405-R" "Wacom Graphire" 1]

def xIntuos : List SerialSubType :=
  [wacomSubType "GD-0405-R" "Wacom Intuos 4x5" 1,
    wacomSubType "GD-0608-R" "Wacom Intuos 6x8" 2,
    wacomSubType "GD-0912-R" "Wacom Intuos 9x12" 3,
    wacomSubType "GD-1212-R" "Wacom Intuos 12x12" 4,
    wacomSubType "GD-1218-R" "Wacom Intuos 12x18" 5]

def xIntuos2 : List SerialSubType :=
  [wacomSubType "XD-0405-R" "Wacom Intuos2 4x5" 1,
    wacomSubType "XD-0608-R" "Wacom Intuos2 6x8" 2,
    wacomSubType "XD-0912-R" "Wacom Intuos2 9x12" 3,
    wacomSubType "XD-1212-R" "Wacom Intuos2 12x12" 4,
    wacomSubType "XD-1218-R" "Wacom Intuos2 12x18" 5]

def xCintiq : List SerialSubType :=
  [wacomSubType "PL-250" "Wacom PL-250" 1,
    wacomSubType "PL-270" "Wacom PL-270" 2,
    wacomSubType "PL-400" "Wacom PL-400" 3,
    wacomSubType "PL-500" "Wacom PL-500" 4,
    wacomSubType "PL-550" "Wacom PL-550" 5,
    wacomSubType "PL-600" "Wacom PL-600" 6,
    wacomSubType "PL-600SX" "Wacom PL-600SX" 7,
    wacomSubType "PL-800" "Wacom PL-800" 8]

def xWacomDevices : List SerialDevice :=
  [wacomDeviceP4 "art" "ArtPad" wacomDeviceArtPad none artPadCaps,
    wacomDeviceP4 "art2" "ArtPadII" wacomDeviceArtPadII (some xArtPadII) artPadIICaps,
    wacomDeviceP4 "dig" "Digitizer" wacomDeviceDigitizer none digitizerIICaps,
    wacomDeviceP4 "dig2" "Digitizer II" wacomDeviceDigitizerII (some xDigitizerII) digitizerIICaps,
    wacomDeviceP4 "pp" "PenPartner" wacomDevicePenPartner (some xPenPartner) penPartnerCaps,
    wacomDeviceP4 "gr" "Graphire" wacomDeviceGraphire (some xGraphire) graphireCaps,
    wacomDeviceP4 "pl" "Cintiq (PL)" wacomDeviceCintiq (some xCintiq) cintiqCaps,
    wacomDeviceP5 "int" "Intuos" wacomDeviceIntuos (some xIntuos) intuosCaps,
    wacomDeviceP5 "int2" "Intuos2" wacomDeviceIntuos2 (some xIntuos2) intuos2Caps]

def xTabletPC : List SerialSubType := [tpcSubType "tpc" "Tablet PC Screen" 1]

def xtpcDevices : List SerialDevice :=
  [tpcDevice "tpc" "TabletPC" wacomDeviceTpc (some xTabletPC) tabletPCCaps]

def xWacomVendor : SerialVendor := ⟨"wacom", "Wacom", wacomVendorWacom, xWacomDevices⟩

def xtpcVendor : SerialVendor := ⟨"Wacom", "Wacom", wacomVendorTpc, xtpcDevices⟩

def xVendors : List SerialVendor := [xWacomVendor, xtpcVendor]

/-- `WACOMMODEL`. -/
structure WacomModel where
  uClass : UInt32
  uVendor : UInt32
  uDevice : UInt32
  uSubType : UInt32
  deriving DecidableEq

/-- The model that `memset` leaves. -/
def WacomModel.zero : WacomModel := ⟨0, 0, 0, 0⟩

/-- What `SerialFindModel` comes to. The last is a `NULL` list of subtypes searched. -/
inductive Lookup where
  | found (pVendor : Option SerialVendor) (pDevice : Option SerialDevice)
      (pSubType : Option SerialSubType)
  | noMatch
  | nullDereference

/-- The loop over the devices of a vendor; `none` goes on to the next vendor. -/
def findDevice (model : WacomModel) (vendor : SerialVendor) : List SerialDevice → Option Lookup
  | [] => if model.uVendor ≠ 0 then some .noMatch else none
  | device :: devices =>
      if model.uDevice = device.uDevice then
        if model.uSubType = 0 then some (.found (some vendor) (some device) none)
        else
          match device.pSubTypes with
          | none => some .nullDereference
          | some subTypes =>
              match subTypes.find? fun subType => model.uSubType = subType.uSubType with
              | some subType => some (.found (some vendor) (some device) (some subType))
              | none => if model.uVendor = 0 then none else some .noMatch
      else findDevice model vendor devices

/-- The loop over the vendors. -/
def findVendor (model : WacomModel) : List SerialVendor → Lookup
  | [] => .noMatch
  | vendor :: vendors =>
      if model.uVendor = 0 ∨ model.uVendor = vendor.uVendor then
        (findDevice model vendor vendor.pDevices).getD (findVendor model vendors)
      else findVendor model vendors

def serialFindModel (model : WacomModel) : Lookup :=
  if model.uDevice = 0 then .found none none none else findVendor model xVendors

section Found

variable {model : WacomModel} {pVendor : Option SerialVendor} {pDevice : Option SerialDevice}
  {pSubType : Option SerialSubType}

/-- The device is listed for the vendor. -/
def Listed (vendor : SerialVendor) (device : SerialDevice) : Prop :=
  vendor ∈ xVendors ∧ device ∈ vendor.pDevices

theorem findDevice_found {vendor : SerialVendor} {devices : List SerialDevice}
    (h : findDevice model vendor devices = some (.found pVendor pDevice pSubType)) :
    pVendor = some vendor ∧ ∃ device ∈ devices, pDevice = some device := by
  induction devices with
  | nil =>
      rw [findDevice] at h
      split at h
      · cases h
      · cases h
  | cons device devices ih =>
      rw [findDevice] at h
      split at h
      · have hhead : pVendor = some vendor ∧ pDevice = some device := by
          split at h
          · cases h
            exact ⟨rfl, rfl⟩
          · split at h
            · cases h
            · split at h
              · cases h
                exact ⟨rfl, rfl⟩
              · split at h
                · cases h
                · cases h
        exact ⟨hhead.1, device, List.mem_cons_self, hhead.2⟩
      · obtain ⟨hvendor, other, hmem, hdevice⟩ := ih h
        exact ⟨hvendor, other, List.mem_cons_of_mem device hmem, hdevice⟩

theorem findVendor_found {vendors : List SerialVendor}
    (h : findVendor model vendors = .found pVendor pDevice pSubType) :
    ∃ vendor ∈ vendors, ∃ device ∈ vendor.pDevices,
      pVendor = some vendor ∧ pDevice = some device := by
  induction vendors with
  | nil => cases h
  | cons vendor vendors ih =>
      have hlater : findVendor model vendors = .found pVendor pDevice pSubType →
          ∃ other ∈ vendor :: vendors, ∃ device ∈ other.pDevices,
            pVendor = some other ∧ pDevice = some device := by
        intro hfound
        obtain ⟨other, hother, hrest⟩ := ih hfound
        exact ⟨other, List.mem_cons_of_mem vendor hother, hrest⟩
      rw [findVendor] at h
      split at h
      · cases hdevice : findDevice model vendor vendor.pDevices with
        | none => exact hlater (by rwa [hdevice, Option.getD_none] at h)
        | some result =>
            rw [hdevice, Option.getD_some] at h
            obtain ⟨hvendor, device, hmem, hfound⟩ := findDevice_found (hdevice.trans (by rw [h]))
            exact ⟨vendor, List.mem_cons_self, device, hmem, hvendor, hfound⟩
      · exact hlater h

/-- Without a device in the model nothing is looked up; otherwise a listed device is found. -/
theorem serialFindModel_found (h : serialFindModel model = .found pVendor pDevice pSubType) :
    (pVendor = none ∧ pDevice = none ∧ pSubType = none) ∨
      ∃ vendor device, Listed vendor device ∧ pVendor = some vendor ∧ pDevice = some device := by
  rw [serialFindModel] at h
  split at h
  · cases h
    exact Or.inl ⟨rfl, rfl, rfl⟩
  · obtain ⟨vendor, hvendor, device, hdevice, hfound⟩ := findVendor_found h
    exact Or.inr ⟨vendor, device, ⟨hvendor, hdevice⟩, hfound⟩

end Found

/-- Only the tablet PC has a function of its own to identify it. -/
theorem listed_tabletPC : ∀ vendor ∈ xVendors, ∀ device ∈ vendor.pDevices,
    device.pfnIdent = some .serialIdentTabletPC →
      vendor = xtpcVendor ∧ device.pSubTypes = some xTabletPC ∧ device.uPacketLength = 9 := by
  decide

/-- Every device has a function to identify it. -/
theorem listed_pfnIdent : ∀ vendor ∈ xVendors, ∀ device ∈ vendor.pDevices,
    device.pfnIdent = some .serialIdentWacom ∨ device.pfnIdent = some .serialIdentTabletPC := by
  decide

end AndroidX86Tv.Wacom
