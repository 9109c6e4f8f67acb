import Mathlib.Data.List.Perm.Basic
import AndroidX86Tv.Lib.KeyedWrites

/-!
# `vendor_load_properties`

At the start of init the vendor's code sets properties from the size of the memory
and from the DMI tables. The tables are read along hash maps, whose order the
language leaves open.
-/

namespace AndroidX86Tv.Libinit

open KeyedWrites

/-- The system properties; one that does not exist has no value. -/
abbrev Properties := String → Option String

/-- What `__system_property_update` and `__system_property_add` leave of a property.
Either may refuse a value. -/
structure PropertyArea where
  update : String → String → String → String
  add : String → String → Option String

/-- The value of a property that is overridden, from the one it had. -/
def PropertyArea.overridden (area : PropertyArea) (prop value : String) :
    Option String → Option String
  | some old => some (area.update prop old value)
  | none => area.add prop value

section

variable (area : PropertyArea)

def propertyOverride (prop value : String) (add : Bool) (props : Properties) : Properties :=
  match props prop with
  | some old => Function.update props prop (some (area.update prop old value))
  | none => if add then Function.update props prop (area.add prop value) else props

def roPropsDefaultSourceOrder : List String :=
  ["bliss.", "odm.", "odm_dlkm.", "product.", "system.", "system_ext.", "vendor.",
    "vendor_dlkm.", ""]

def setRoBuildProp (prop value : String) (product : Bool) (props : Properties) : Properties :=
  roPropsDefaultSourceOrder.foldl (fun props source =>
    propertyOverride area
      (if product then "ro.product." ++ source ++ prop else "ro." ++ source ++ "build." ++ prop)
      value true props) props

structure DalvikHeapInfo where
  heapstartsize : String
  heapgrowthlimit : String
  heapsize : String
  heapminfree : String
  heapmaxfree : String
  heaptargetutilization : String

def dalvikHeapInfo16384 : DalvikHeapInfo := ⟨"32m", "448m", "640m", "16m", "64m", "0.4"⟩
def dalvikHeapInfo12288 : DalvikHeapInfo := ⟨"24m", "384m", "512m", "8m", "56m", "0.42"⟩
def dalvikHeapInfo8192 : DalvikHeapInfo := ⟨"24m", "256m", "512m", "8m", "48m", "0.46"⟩
def dalvikHeapInfo6144 : DalvikHeapInfo := ⟨"16m", "256m", "512m", "8m", "32m", "0.5"⟩
def dalvikHeapInfo4096 : DalvikHeapInfo := ⟨"8m", "256m", "512m", "8m", "16m", "0.6"⟩
def dalvikHeapInfo2048 : DalvikHeapInfo := ⟨"8m", "128m", "256m", "512k", "8m", "0.75"⟩
def dalvikHeapInfo1024 : DalvikHeapInfo := ⟨"8m", "96m", "256m", "512k", "8m", "0.75"⟩

def gb (b : Nat) : Nat := b * 1024 * 1024 * 1024

/-- The profile for a size of memory. `GB(1.3)` is a number between 1395864371 and the
next integer. -/
def dalvikHeapInfo (totalram : UInt64) : DalvikHeapInfo :=
  if totalram.toNat > gb 15 then dalvikHeapInfo16384
  else if totalram.toNat > gb 11 then dalvikHeapInfo12288
  else if totalram.toNat > gb 7 then dalvikHeapInfo8192
  else if totalram.toNat > gb 5 then dalvikHeapInfo6144
  else if totalram.toNat > gb 3 then dalvikHeapInfo4096
  else if totalram.toNat > 1395864371 then dalvikHeapInfo2048
  else dalvikHeapInfo1024

def setDalvikHeap (totalram : UInt64) (props : Properties) : Properties :=
  let dhi := dalvikHeapInfo totalram
  let props := propertyOverride area "dalvik.vm.heapstartsize" dhi.heapstartsize true props
  let props := propertyOverride area "dalvik.vm.heapgrowthlimit" dhi.heapgrowthlimit true props
  let props := propertyOverride area "dalvik.vm.heapsize" dhi.heapsize true props
  let props := propertyOverride area "dalvik.vm.heaptargetutilization"
    dhi.heaptargetutilization true props
  let props := propertyOverride area "dalvik.vm.heapminfree" dhi.heapminfree true props
  propertyOverride area "dalvik.vm.heapmaxfree" dhi.heapmaxfree true props

/-- `GetProperty("ro.boot.insecure_adb", "") == "1"`. -/
def insecureAdb (props : Properties) : Bool := props "ro.boot.insecure_adb" == some "1"

def setMiscProperties (props : Properties) : Properties :=
  if insecureAdb props then
    let props := propertyOverride area "ro.adb.secure" "0" true props
    propertyOverride area "ro.secure" "0" true props
  else props

def kDmiIdToPropertyMap : List (String × String) :=
  [("bios_version", "ro.boot.bootloader"), ("product_serial", "ro.bliss.serialnumber"),
    ("board_name", "ro.product.board")]

def kDmiIdToRoBuildPropMap : List (String × String) :=
  [("product_name", "name"), ("chassis_vendor", "brand"), ("board_name", "model"),
    ("sys_vendor", "manufacturer")]

def kLenovoDmiIdToRoBuildPropMap : List (String × String) :=
  [("product_family", "name"), ("chassis_vendor", "brand"), ("board_name", "model"),
    ("sys_vendor", "manufacturer")]

/-- The orders in which the three maps are gone through. -/
structure MapOrder where
  property : List (String × String)
  roBuildProp : List (String × String)
  lenovoRoBuildProp : List (String × String)
  property_perm : property.Perm kDmiIdToPropertyMap
  roBuildProp_perm : roBuildProp.Perm kDmiIdToRoBuildPropMap
  lenovoRoBuildProp_perm : lenovoRoBuildProp.Perm kLenovoDmiIdToRoBuildPropMap

/-- The files under `/sys/devices/virtual/dmi/id/` that can be read. The kernel ends
each with a newline. -/
structure DmiId where
  content : String → Option (List Char)
  ended : ∀ file text, content file = some text → text ≠ []

/-- `ReadFileToString`, which clears the text first. -/
def DmiId.readFileToString (dmi : DmiId) (file : String) : List Char :=
  (dmi.content file).getD []

def isLenovo (dmi : DmiId) : Bool :=
  match dmi.content "sys_vendor" with
  | some value => value.dropLast = "Lenovo".toList || value.dropLast = "LENOVO".toList
  | none => false

/-- The loop over a map of DMI files, with what it does for each. -/
def forEachDmiId (dmi : DmiId) (set : String → String → Properties → Properties)
    (map : List (String × String)) (props : Properties) : Properties :=
  map.foldl (fun props entry =>
    if dmi.readFileToString entry.1 = [] then props
    else set entry.2 (String.ofList (dmi.readFileToString entry.1).dropLast) props) props

def setPropertiesFromDmiId (dmi : DmiId) (order : MapOrder) (props : Properties) : Properties :=
  let props := forEachDmiId dmi (fun prop value => propertyOverride area prop value true)
    order.property props
  if isLenovo dmi then
    forEachDmiId dmi (fun prop value => setRoBuildProp area prop value true)
      order.lenovoRoBuildProp props
  else
    forEachDmiId dmi (fun prop value => setRoBuildProp area prop value true)
      order.roBuildProp props

def vendorLoadProperties (totalram : UInt64) (dmi : DmiId) (order : MapOrder)
    (props : Properties) : Properties :=
  setPropertiesFromDmiId area dmi order (setMiscProperties area (setDalvikHeap area totalram props))

end

end AndroidX86Tv.Libinit
